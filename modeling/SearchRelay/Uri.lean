import SearchRelay.Text.Ascii
import SearchRelay.Text.Utf8

/-!
# Request targets

What a request on the wire may name: a path with a query, a star, an authority,
or all of it after a scheme. Unlike a URL it is taken as it stands; nothing is
escaped and no dots are followed. A fragment is left out.
-/

namespace SearchRelay

structure Uri where
  scheme : Option (List Char)
  authority : Option (List Char)
  path : List Char
  query : Option (List Char)
deriving DecidableEq, Repr

namespace Uri

inductive Fault where
  | empty
  | badCharacter
  | badAuthority
  | badFormat
  | tooLong
  | schemeTooLong
deriving DecidableEq, Repr

def Fault.message : Fault → String
  | empty => "empty string"
  | badCharacter => "invalid uri character"
  | badAuthority => "invalid authority"
  | badFormat => "invalid format"
  | tooLong => "uri too long"
  | schemeTooLong => "scheme too long"

/-! ## Character sets -/

def isAuthorityChar (c : Char) : Bool :=
  Ascii.isAlphanumeric c || c == '!' || c == '$' || c == '&' || c == '\'' || c == '(' || c == ')' || c == '*' ||
    c == '+' || c == ',' || c == '-' || c == '.' || c == ':' || c == ';' || c == '=' || c == '@' || c == '[' ||
    c == ']' || c == '_' || c == '~'

def isPathChar (c : Char) : Bool :=
  let n := c.toNat
  n == 0x21 || n == 0x22 || (0x24 ≤ n && n ≤ 0x3B) || n == 0x3D || (0x40 ≤ n && n ≤ 0x5F) ||
    (0x61 ≤ n && n != 0x7F)

def isQueryChar (c : Char) : Bool :=
  let n := c.toNat
  n == 0x21 || (0x24 ≤ n && n ≤ 0x3B) || n == 0x3D || (0x3F ≤ n && n != 0x7F)

def isSchemeChar (c : Char) : Bool := Ascii.isAlphanumeric c || c == '+' || c == '-' || c == '.' || c == '~'

/-! ## The authority -/

/-- What has been seen of an authority since its user: colons, brackets and escapes. -/
structure Scan where
  colons : Nat
  opened : Bool
  closed : Bool
  escaped : Bool
deriving DecidableEq, Repr

/-- Takes the next character of an authority. Colons and escapes are free before an `@` and in brackets. -/
def Scan.next (s : Scan) (c : Char) : Except Fault Scan :=
  if c = ':' then if 8 ≤ s.colons then .error .badAuthority else .ok { s with colons := s.colons + 1 }
  else if c = '[' then if s.escaped || s.opened then .error .badAuthority else .ok { s with opened := true }
  else if c = ']' then
    if !s.opened || s.closed then .error .badAuthority
    else .ok { s with closed := true, colons := 0, escaped := false }
  else if c = '@' then .ok { s with colons := 0, escaped := false }
  else if c = '%' then .ok { s with escaped := true }
  else if isAuthorityChar c then .ok s
  else .error .badCharacter

def checkAuthority (text : List Char) : Except Fault Unit := do
  let s ← text.foldlM Scan.next ⟨0, false, false, false⟩
  if s.opened != s.closed || 1 < s.colons || text.getLast? = some '@' || s.escaped then .error .badAuthority

def endsAuthority (c : Char) : Bool := c == '/' || c == '?' || c == '#'

def readAuthority (text : List Char) : Except Fault (List Char × List Char) := do
  let (authority, rest) := text.span (!endsAuthority ·)
  checkAuthority authority
  return (authority, rest)

/-! ## The scheme -/

def startsWith (word text : List Char) : Bool := (text.take word.length).map Ascii.lower == word

/-- The scheme before `://`, if there is one, and what follows. The schemes of the web are put in small
letters. -/
def readScheme (text : List Char) : Except Fault (Option (List Char) × List Char) :=
  if startsWith "http://".toList text then .ok (some "http".toList, text.drop 7)
  else if startsWith "https://".toList text then .ok (some "https".toList, text.drop 8)
  else
    match text.span isSchemeChar with
    | (scheme, ':' :: '/' :: '/' :: rest) =>
      if text.length ≤ 3 then .ok (none, text)
      else if 64 < scheme.length then .error .schemeTooLong
      else .ok (some scheme, rest)
    | _ => .ok (none, text)

/-! ## The path and the query -/

def readPath (text : List Char) : Except Fault (List Char × Option (List Char)) :=
  let (path, rest) := text.span fun c => c != '?' && c != '#'
  if !path.all isPathChar then .error .badCharacter
  else
    match rest with
    | '?' :: rest =>
      let query := rest.takeWhile (· != '#')
      if query.all isQueryChar then .ok (path, some query) else .error .badCharacter
    | _ => .ok (path, none)

/-! ## The whole -/

/-- A target that is one character: a star, the root or an authority. -/
def readSingle (c : Char) : Except Fault Uri :=
  if c = '/' || c = '*' then .ok ⟨none, none, [c], none⟩
  else do
    let (authority, rest) ← readAuthority [c]
    if rest.isEmpty then return ⟨none, some authority, [], none⟩ else .error .badCharacter

def readFull (text : List Char) : Except Fault Uri := do
  match ← readScheme text with
  | (none, text) =>
    let (authority, rest) ← readAuthority text
    if rest.isEmpty then return ⟨none, some authority, [], none⟩ else .error .badFormat
  | (some scheme, rest) =>
    if rest.isEmpty then .error .empty
    let (authority, rest) ← readAuthority rest
    if authority.isEmpty then .error .badFormat
    let (path, query) ← readPath rest
    return ⟨some scheme, some authority, path, query⟩

def parse (text : List Char) : Except Fault Uri :=
  if 65534 < Utf8.size text then .error .tooLong
  else
    match text with
    | [] => .error .empty
    | [c] => readSingle c
    | '/' :: rest => do
      let (path, query) ← readPath ('/' :: rest)
      return ⟨none, none, path, query⟩
    | text => readFull text

def wholePath (uri : Uri) : List Char :=
  if uri.path.isEmpty && uri.scheme.isSome then ['/'] else uri.path

def write (uri : Uri) : List Char :=
  (uri.scheme.map (· ++ "://".toList)).getD [] ++ uri.authority.getD [] ++ uri.wholePath ++
    (uri.query.map ('?' :: ·)).getD []

end Uri

end SearchRelay
