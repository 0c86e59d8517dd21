import SearchRelay.Text.Quoted
import SearchRelay.Text.Utf8

/-!
# What is wrong with a JSON text

A fault is a cause and a place. The place is kept as the number of bytes that
remain after it, which a reader knows without knowing where it started; the
line and the column are found once, from the whole text.
-/

namespace SearchRelay.Json

inductive Found where
  | null
  | boolean (b : Bool)
  | integer (n : Int)
  | float (digits : String)
  | text (s : String)
  | sequence
  | map
deriving DecidableEq, Repr

inductive Cause where
  | endInValue
  | endInList
  | endInObject
  | endInString
  | noColon
  | noListCommaOrEnd
  | noObjectCommaOrEnd
  | noIdent
  | noValue
  | badEscape
  | badNumber
  | numberOutOfRange
  | controlCharacter
  | keyNotString
  | loneSurrogate
  | unfinishedSurrogate
  | trailingComma
  | trailingCharacters
  | wrongType (found : Found) (wanted : String)
  | wrongValue (n : Int) (wanted : String)
  | wrongLength (n : Nat) (wanted : String)
  | duplicateField (name : String)
  | missingField (name : String)
deriving DecidableEq, Repr

/-- A cause, and how many bytes of the text stand after the place it was seen. -/
structure Fault where
  cause : Cause
  left : Nat
deriving DecidableEq, Repr

def Fault.before (cause : Cause) (rest : List Char) : Fault := ⟨cause, Utf8.size rest⟩

def Fault.on (cause : Cause) (rest : List Char) : Fault := ⟨cause, Utf8.size rest - 1⟩

/-! ## Messages -/

def Found.describe : Found → String
  | .null => "null"
  | .boolean b => s!"boolean `{b}`"
  | .integer n => s!"integer `{n}`"
  | .float digits => s!"floating point `{digits}`"
  | .text s => s!"string {Quoted.quote s}"
  | .sequence => "sequence"
  | .map => "map"

def Cause.message : Cause → String
  | .endInValue => "EOF while parsing a value"
  | .endInList => "EOF while parsing a list"
  | .endInObject => "EOF while parsing an object"
  | .endInString => "EOF while parsing a string"
  | .noColon => "expected `:`"
  | .noListCommaOrEnd => "expected `,` or `]`"
  | .noObjectCommaOrEnd => "expected `,` or `\x7d`"
  | .noIdent => "expected ident"
  | .noValue => "expected value"
  | .badEscape => "invalid escape"
  | .badNumber => "invalid number"
  | .numberOutOfRange => "number out of range"
  | .controlCharacter => "control character (\\u0000-\\u001F) found while parsing a string"
  | .keyNotString => "key must be a string"
  | .loneSurrogate => "lone leading surrogate in hex escape"
  | .unfinishedSurrogate => "unexpected end of hex escape"
  | .trailingComma => "trailing comma"
  | .trailingCharacters => "trailing characters"
  | .wrongType found wanted => s!"invalid type: {found.describe}, expected {wanted}"
  | .wrongValue n wanted => s!"invalid value: integer `{n}`, expected {wanted}"
  | .wrongLength n wanted => s!"invalid length {n}, expected {wanted}"
  | .duplicateField name => s!"duplicate field `{name}`"
  | .missingField name => s!"missing field `{name}`"

/-- The line, and the bytes since its start, after some bytes of a text. -/
def locateFrom (line column : Nat) : Nat → List Char → Nat × Nat
  | 0, _ => (line, column)
  | n, [] => (line, column + n)
  | n, c :: rest =>
    if c.utf8Size ≤ n then
      if c = '\n' then locateFrom (line + 1) 0 (n - 1) rest
      else locateFrom line (column + c.utf8Size) (n - c.utf8Size) rest
    else (line, column + n)

def Fault.locate (f : Fault) (text : List Char) : Nat × Nat :=
  locateFrom 1 0 (Utf8.size text - f.left) text

def Fault.message (f : Fault) (text : List Char) : String :=
  let (line, column) := f.locate text
  s!"{f.cause.message} at line {line} column {column}"

end SearchRelay.Json
