import SearchRelay.Text.Ascii
import SearchRelay.Text.Utf8

/-!
# Percent-encoding

A text goes into a URL with some characters kept and each byte of the others
written `%XX`. Reading back takes every `%` before two hexadecimal digits for a
byte and every other character for its own bytes.
-/

namespace SearchRelay.Percent

def escape (b : UInt8) : List Char := ['%', Ascii.hexUpper (b.toNat / 16), Ascii.hexUpper (b.toNat % 16)]

def encodeChar (keep : Char → Bool) (c : Char) : List Char :=
  if keep c then [c] else (String.utf8EncodeChar c).flatMap escape

def encode (keep : Char → Bool) (text : List Char) : List Char := text.flatMap (encodeChar keep)

def byte? (high low : Char) : Option UInt8 := do
  let h ← Ascii.hexValue? high
  let l ← Ascii.hexValue? low
  return UInt8.ofNat (16 * h + l)

/-- The bytes of a text, with its escapes undone; a `%` that opens no escape stands for itself. -/
def decode : List Char → List UInt8
  | [] => []
  | '%' :: a :: b :: rest =>
    match byte? a b with
    | some x => x :: decode rest
    | none => 37 :: decode (a :: b :: rest)
  | c :: rest => String.utf8EncodeChar c ++ decode rest

/-- The characters that a path segment keeps: letters, digits, `-`, `.`, `_` and `~`. -/
def isUnreserved (c : Char) : Bool :=
  Ascii.isAlphanumeric c || c == '-' || c == '.' || c == '_' || c == '~'

def encodeSegment (text : String) : List Char := encode isUnreserved text.toList

/-- The text of a segment, unless its bytes are not UTF-8. -/
def decodeSegment? (segment : List Char) : Option String := (Utf8.decode? (decode segment)).map String.ofList

end SearchRelay.Percent
