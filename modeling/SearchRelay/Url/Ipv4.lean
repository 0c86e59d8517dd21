import SearchRelay.Text.Ascii

/-!
# IPv4 addresses

One to four numbers between dots, each decimal, octal after `0` or hexadecimal
after `0x`. Every number but the last is one byte; the last one fills the bytes
that are left.
-/

namespace SearchRelay.Ipv4

def radix : List Char → Nat × List Char
  | '0' :: 'x' :: digits => (16, digits)
  | '0' :: 'X' :: digits => (16, digits)
  | '0' :: d :: digits => (8, d :: digits)
  | digits => (10, digits)

def digit? (base : Nat) (c : Char) : Option Nat := (Ascii.hexValue? c).filter (· < base)

def number? (part : List Char) : Option Nat :=
  if part.isEmpty then none
  else
    let (base, digits) := radix part
    digits.foldlM (fun n c => (digit? base c).map (base * n + ·)) 0

def parts (name : List Char) : List (List Char) :=
  let pieces := name.splitOn '.'
  if pieces.getLast? = some [] then pieces.dropLast else pieces

/-- Whether a name has to be an address: its last part is a number. -/
def endsInNumber (name : List Char) : Bool :=
  match (parts name).getLast? with
  | none => false
  | some part => (!part.isEmpty && part.all Ascii.isDigit) || (number? part).isSome

def combine : Nat → List Nat → Option Nat
  | k + 1, [n] => if n < 256 ^ (k + 1) then some n else none
  | k + 1, n :: m :: rest => if n < 256 then (combine k (m :: rest)).map (n * 256 ^ k + ·) else none
  | _, _ => none

def parse? (name : List Char) : Option UInt32 := do
  let numbers ← (parts name).mapM number?
  let value ← combine 4 numbers
  return UInt32.ofNat value

def decimal (n : Nat) : List Char := Nat.toDigits 10 n

def write (address : UInt32) : List Char :=
  let n := address.toNat
  decimal (n / 16777216) ++ '.' :: decimal (n / 65536 % 256) ++ '.' :: decimal (n / 256 % 256) ++
    '.' :: decimal (n % 256)

end SearchRelay.Ipv4
