import SearchRelay.Url.Basic

/-!
# Reading a URL

Blanks and controls at the ends are dropped, tabs and line ends everywhere. The
kind of the scheme decides how the rest is read: on the web there always is an
authority, however many slashes are before it; a file has one only after two
slashes; in other schemes two slashes open one, and without any slash the rest
is a text. The text of a file keeps its tabs and line ends until its path is
split, because there they may part a drive from what follows it.
-/

namespace SearchRelay.Url

/-! ## Character sets -/

def isKeptInUser (c : Char) : Bool :=
  Ascii.isAlphanumeric c || c == '!' || c == '$' || c == '%' || c == '&' || c == '\'' || c == '(' || c == ')' ||
    c == '*' || c == '+' || c == ',' || c == '-' || c == '.' || c == '_' || c == '~'

def isKeptInFragment (c : Char) : Bool :=
  Host.isPlain c && c != ' ' && c != '"' && c != '<' && c != '>' && c != '\x60'

def isKeptInPath (c : Char) : Bool :=
  isKeptInFragment c && c != '#' && c != '?' && c != '\x7b' && c != '\x7d'

def isKeptInQuery (kind : Kind) (c : Char) : Bool :=
  Host.isPlain c && c != ' ' && c != '"' && c != '#' && c != '<' && c != '>' &&
    !(kind.foldsSlashes && c == '\'')

/-! ## The text and its scheme -/

def isEdge (c : Char) : Bool := c.toNat ≤ 0x20

def trim (text : List Char) : List Char := ((text.dropWhile isEdge).reverse.dropWhile isEdge).reverse

def isSchemeChar (c : Char) : Bool := Ascii.isAlphanumeric c || c == '+' || c == '-' || c == '.'

def cutScheme? (text : List Char) : Option (List Char × List Char) :=
  match text.span (· != ':') with
  | (scheme, _ :: rest) =>
    let scheme := unbroken scheme
    if (scheme.head?.any Ascii.isLetter) && scheme.all isSchemeChar then some (scheme.map Ascii.lower, rest) else none
  | _ => none

/-! ## The authority -/

def isSlash (kind : Kind) (c : Char) : Bool := c == '/' || (kind.foldsSlashes && c == '\\')

def endsPath (c : Char) : Bool := c == '?' || c == '#'

def endsAuthority (kind : Kind) (c : Char) : Bool := isSlash kind c || endsPath c

def cutLastAt : List Char → Option (List Char × List Char)
  | [] => none
  | c :: rest =>
    match cutLastAt rest with
    | some (before, after) => some (c :: before, after)
    | none => if c = '@' then some ([], rest) else none

def readCredentials (text : List Char) : List Char × Option (List Char) :=
  let encode := Percent.encode isKeptInUser
  match text.span (· != ':') with
  | (user, _ :: c :: password) => (encode user, some (encode (c :: password)))
  | (user, _) => (encode user, none)

def cutHost : Bool → List Char → List Char × List Char
  | _, [] => ([], [])
  | inside, c :: rest =>
    if c = ':' && !inside then ([], c :: rest)
    else
      let (host, port) := cutHost (c == '[' || (inside && c != ']')) rest
      (c :: host, port)

def readPort (text : List Char) : Except Fault (Option Nat × List Char) :=
  let (digits, rest) := text.span Ascii.isDigit
  let port := digits.foldl (fun n c => 10 * n + (c.toNat - 48)) 0
  if 65535 < port || (rest.head?.map fun c => !(isSlash (.web 0) c || endsPath c)).getD false then .error .badPort
  else .ok (if digits.isEmpty then none else some port, rest)

/-- The port, unless it is that of the scheme, and what follows it. -/
def readPortMark (kind : Kind) : List Char → Except Fault (Option Nat × List Char)
  | ':' :: text => do
    let (port, rest) ← readPort text
    return (port.filter fun n => decide (kind ≠ .web n), rest)
  | rest => .ok (none, rest)

/-- The host that a text names. Only outside the web it may be none, and then there is no port. -/
def readHost (toAscii : ToAscii) (kind : Kind) (host rest : List Char) : Except Fault (Option Host) :=
  match kind with
  | .other => if host.isEmpty && rest.head? = some ':' then .error .emptyHost else Host.ofName host
  | _ => if host.isEmpty then .error .emptyHost else (Host.ofDomain toAscii host).map some

def readAuthority (toAscii : ToAscii) (kind : Kind) (text : List Char) : Except Fault (Authority × List Char) := do
  let (whole, rest) := text.span (!endsAuthority kind ·)
  let (credentials, place) := (cutLastAt whole).getD ([], whole)
  let (user, password) := readCredentials credentials
  let (hostText, portText) := cutHost false place
  if credentials.isEmpty && place.isEmpty && !whole.isEmpty && !rest.isEmpty then .error .emptyHost
  let host ← readHost toAscii kind hostText portText
  let (port, after) ← readPortMark kind (portText ++ rest)
  let authority : Authority := ⟨user, password, host, port⟩
  if host.isNone && authority.hasCredentials then .error .emptyHost
  return (authority, after)

/-! ## The path, the query and the fragment -/

def escapeSegment (segment : List Char) : List Char := Percent.encode isKeptInPath segment

def pieces (kind : Kind) (text : List Char) : List (List Char) :=
  (text.map fun c => if isSlash kind c then '/' else c).splitOn '/'

def readPath (kind : Kind) (text : List Char) : Path :=
  (Path.steps ((pieces kind text).map escapeSegment)).foldl Path.walk []

def dropSlash (kind : Kind) : List Char → List Char
  | [] => []
  | c :: rest => if isSlash kind c then rest else c :: rest

def readTail (kind : Kind) (text : List Char) : Option (List Char) × Option (List Char) :=
  let (query, fragment) := text.span (· != '#')
  (match query with
    | '?' :: query => some (Percent.encode (isKeptInQuery kind) query)
    | _ => none,
  match fragment with
    | _ :: fragment => some (Percent.encode isKeptInFragment fragment)
    | [] => none)

def withTail (scheme : List Char) (target : Target) (tail : List Char) : Url :=
  let (query, fragment) := readTail (Kind.ofScheme scheme) tail
  ⟨scheme, target, query, fragment⟩

/-! ## The kinds of scheme -/

def readWeb (toAscii : ToAscii) (scheme : List Char) (kind : Kind) (text : List Char) : Except Fault Url := do
  let (authority, rest) ← readAuthority toAscii kind (text.dropWhile (isSlash kind))
  let (path, tail) := rest.span (!endsPath ·)
  return withTail scheme (.segments (some authority) (readPath kind (dropSlash kind path))) tail

/-- A URL whose authority follows two slashes. Its path may be empty. -/
def readOtherAuthority (toAscii : ToAscii) (scheme text : List Char) : Except Fault Url := do
  let (authority, rest) ← readAuthority toAscii .other text
  let (path, tail) := rest.span (!endsPath ·)
  let segments := if path.isEmpty then [] else readPath .other (dropSlash .other path)
  return withTail scheme (.segments (some authority) segments) tail

def readOther (toAscii : ToAscii) (scheme : List Char) : List Char → Except Fault Url
  | '/' :: '/' :: text => readOtherAuthority toAscii scheme text
  | '/' :: text =>
    let (path, tail) := text.span (!endsPath ·)
    .ok (withTail scheme (.segments none (readPath .other path)) tail)
  | text =>
    let (path, tail) := text.span (!endsPath ·)
    .ok (withTail scheme (.bare (Percent.encode Host.isPlain path)) tail)

/-! ## Files -/

/-- Where a file is: on a host or on this machine, and at a path. -/
structure FilePlace where
  host : Option Host
  path : Path

/-- Enters a piece of a path. A drive at the start of the path, which is written with a colon, is on this
machine, unless it is parted from the rest of its piece. -/
def FilePlace.enter (place : FilePlace) (piece : List Char) : FilePlace :=
  let segment := escapeSegment (unbroken piece)
  if !place.path.isEmpty then { place with path := place.path ++ [segment] }
  else
    match Path.cutDrive? piece with
    | some (drive, rest) => { place with path := [drive, escapeSegment rest] }
    | none =>
      if Path.isDrive segment then ⟨none, [segment.take 1 ++ [':']]⟩ else { place with path := [segment] }

def FilePlace.walk (place : FilePlace) : Option (List Char) → FilePlace
  | none => { place with path := Path.parent place.path }
  | some piece => place.enter piece

/-- The file on a host that a text names after its first slash; `tail` follows it. -/
def fileUrl (host : Option Host) (text tail : List Char) : Url :=
  let place := (Path.steps (pieces .file text)).foldl FilePlace.walk ⟨host, []⟩
  let authority : Authority := ⟨[], none, place.host, none⟩
  withTail "file".toList (.segments (some authority) (Path.dropEmpty place.path)) (unbroken tail)

/-- What follows a slash, unless there is none. -/
def cutSlash? (text : List Char) : Option (List Char) :=
  match text.dropWhile isBreak with
  | [] => none
  | c :: rest => if isSlash .file c then some rest else none

def readFileHost (toAscii : ToAscii) (text : List Char) : Except Fault (Option Host) :=
  if text.isEmpty then .ok none
  else (Host.ofDomain toAscii text).map fun host => if host = .named "localhost".toList then none else some host

def readFileAuthority (toAscii : ToAscii) (text : List Char) : Except Fault Url := do
  let (whole, tail) := text.span (!endsPath ·)
  let (hostText, path) := whole.span (!isSlash .file ·)
  if Path.isDrive (unbroken hostText) then return fileUrl none whole tail
  else
    match ← readFileHost toAscii (unbroken hostText) with
    | none => return fileUrl none path tail
    | some host => return fileUrl (some host) ((cutSlash? path).getD path) tail

def readFile (toAscii : ToAscii) (text : List Char) : Except Fault Url :=
  match cutSlash? text with
  | none => .ok (readHere text)
  | some rest =>
    match cutSlash? rest with
    | none => .ok (readHere rest)
    | some place => readFileAuthority toAscii place
where
  readHere (text : List Char) : Url :=
    let (path, tail) := text.span (!endsPath ·)
    fileUrl none path tail

end Url

def Url.parse (toAscii : Url.ToAscii) (text : List Char) : Except Url.Fault Url :=
  match Url.cutScheme? (Url.trim text) with
  | none => .error .noScheme
  | some (scheme, rest) =>
    match Url.Kind.ofScheme scheme with
    | .file => Url.readFile toAscii rest
    | .other => Url.readOther toAscii scheme (Url.unbroken rest)
    | kind => Url.readWeb toAscii scheme kind (Url.unbroken rest)

end SearchRelay
