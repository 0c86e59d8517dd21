import SearchRelay.Url.Host
import SearchRelay.Url.Path

/-!
# URLs

A scheme, then either an authority and a path of segments, or a text that no
segment can be added to; then a query and a fragment, if there are any. All
parts hold the characters that are written.
-/

namespace SearchRelay.Url

/-! ## Schemes -/

/-- The schemes of the web and their ports, files, and all others. -/
inductive Kind where
  | web (port : Nat)
  | file
  | other
deriving DecidableEq, Repr

def Kind.ofScheme (scheme : List Char) : Kind :=
  if scheme = "http".toList || scheme = "ws".toList then .web 80
  else if scheme = "https".toList || scheme = "wss".toList then .web 443
  else if scheme = "ftp".toList then .web 21
  else if scheme = "file".toList then .file
  else .other

def Kind.foldsSlashes : Kind → Bool
  | other => false
  | _ => true

/-! ## Parts -/

structure Authority where
  user : List Char
  password : Option (List Char)
  host : Option Host
  port : Option Nat
deriving DecidableEq

namespace Authority

def none : Authority := ⟨[], .none, .none, .none⟩

def hasCredentials (authority : Authority) : Bool := !authority.user.isEmpty || authority.password.isSome

def writeCredentials (authority : Authority) : List Char :=
  if authority.hasCredentials then
    authority.user ++ (authority.password.map (':' :: ·)).getD [] ++ ['@']
  else []

def write (authority : Authority) : List Char :=
  authority.writeCredentials ++ (authority.host.map Host.write).getD [] ++
    (authority.port.map fun port => ':' :: Nat.toDigits 10 port).getD []

end Authority

inductive Target where
  | segments (authority : Option Authority) (path : Path)
  | bare (text : List Char)
deriving DecidableEq

/-- The target as it is written. A path of two slashes at its start gets a dot in front, so that they open
no authority. -/
def Target.write : Target → List Char
  | segments (some authority) path => '/' :: '/' :: authority.write ++ path.write
  | segments none ([] :: next :: rest) => '/' :: '.' :: Path.write ([] :: next :: rest)
  | segments none path => path.write
  | bare text => text

end Url

structure Url where
  scheme : List Char
  target : Url.Target
  query : Option (List Char)
  fragment : Option (List Char)
deriving DecidableEq

namespace Url

def write (url : Url) : List Char :=
  url.scheme ++ ':' :: url.target.write ++ (url.query.map ('?' :: ·)).getD [] ++
    (url.fragment.map ('#' :: ·)).getD []

def authority? (url : Url) : Option Authority :=
  match url.target with
  | .segments authority _ => authority
  | .bare _ => none

def path? (url : Url) : Option Path :=
  match url.target with
  | .segments _ path => some path
  | .bare _ => none

/-- The port that is contacted: the one given or that of the scheme. -/
def effectivePort? (url : Url) : Option Nat :=
  (url.authority?.bind Authority.port).or
    (match Kind.ofScheme url.scheme with
    | .web port => some port
    | _ => none)

end SearchRelay.Url
