import SearchRelay.Percent
import SearchRelay.Url.Domain
import SearchRelay.Url.Fault
import SearchRelay.Url.Ipv4
import SearchRelay.Url.Ipv6

/-!
# Hosts

An address or a name. In the schemes of the web a name is a domain: its escapes
are undone, and it is converted to ASCII. In other schemes it is kept as it
stands, controls and all beyond ASCII escaped.
-/

namespace SearchRelay.Url

inductive Host where
  | named (name : List Char)
  | ipv4 (address : UInt32)
  | ipv6 (address : Ipv6.Address)
deriving DecidableEq

namespace Host

def write : Host → List Char
  | named name => name
  | ipv4 address => Ipv4.write address
  | ipv6 address => '[' :: Ipv6.write address ++ [']']

def bracketed (inner : List Char) : Except Fault Host :=
  if inner.getLast? = some ']' then
    match Ipv6.parse? inner.dropLast with
    | some address => .ok (.ipv6 address)
    | none => .error .badIpv6
  else .error .badIpv6

/-! ## Domains -/

/-- The host that a text names on the web: an address, or a domain by `toAscii`. -/
def ofDomain (toAscii : ToAscii) (text : List Char) : Except Fault Host :=
  match text with
  | '[' :: inner => bracketed inner
  | _ =>
    match toAscii (Percent.decode text) with
    | none => .error .badDomain
    | some [] => .error .emptyHost
    | some name =>
      if Ipv4.endsInNumber name then
        match Ipv4.parse? name with
        | some address => .ok (.ipv4 address)
        | none => .error .badIpv4
      else .ok (.named name)

/-! ## Names in other schemes -/

def isForbiddenInName (c : Char) : Bool :=
  c == '\x00' || c == '\t' || c == '\n' || c == '\r' || c == ' ' || c == '#' || c == '/' || c == ':' ||
    c == '<' || c == '>' || c == '?' || c == '@' || c == '[' || c == '\\' || c == ']' || c == '^' || c == '|'

/-- The characters that are not escaped anywhere: all of printable ASCII and the space. -/
def isPlain (c : Char) : Bool := 0x20 ≤ c.toNat && c.toNat < 0x7F

/-- The host that a text names in a scheme that is not of the web; the empty text names none. -/
def ofName (text : List Char) : Except Fault (Option Host) :=
  match text with
  | [] => .ok none
  | '[' :: inner => (bracketed inner).map some
  | _ =>
    if text.any isForbiddenInName then .error .badHostCharacter
    else .ok (some (.named (Percent.encode isPlain text)))

end Host

end SearchRelay.Url
