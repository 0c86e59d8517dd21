import SearchRelay.Percent

/-!
# Form encoding of a query

Pairs joined by `&`, name and value by `=`, a space written `+`, and every byte
outside letters, digits, `*`, `-`, `.` and `_` escaped. Reading skips empty
pieces, cuts each at its first `=`, and undoes `+` before the escapes.
-/

namespace SearchRelay.Form

def isKept (c : Char) : Bool := Ascii.isAlphanumeric c || c == '*' || c == '-' || c == '.' || c == '_'

def encodeText (text : String) : List Char :=
  text.toList.flatMap fun c => if c = ' ' then ['+'] else Percent.encodeChar isKept c

def encodePair (pair : String × String) : List Char := encodeText pair.1 ++ '=' :: encodeText pair.2

def encode (pairs : List (String × String)) : List Char := ['&'].intercalate (pairs.map encodePair)

def plusToSpace (text : List Char) : List Char := text.map fun c => if c = '+' then ' ' else c

def decodeText (text : List Char) : String :=
  String.ofList (Utf8.decodeLossy (Percent.decode (plusToSpace text)))

def decodePair (piece : List Char) : String × String :=
  let (name, rest) := piece.span (· != '=')
  (decodeText name, decodeText (rest.drop 1))

def decode (query : List Char) : List (String × String) :=
  ((query.splitOn '&').filter (!·.isEmpty)).map decodePair

end SearchRelay.Form
