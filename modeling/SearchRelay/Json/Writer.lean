import SearchRelay.Dict
import SearchRelay.Text.Ascii

/-!
# Writing JSON

Compact text: no blanks, members in the order they are given. A string escapes
the quote, the backslash and the controls, so a written value never holds a
line feed; every other character stands for itself.
-/

namespace SearchRelay.Json

def escapeChar (c : Char) : List Char :=
  match c with
  | '"' => ['\\', '"']
  | '\\' => ['\\', '\\']
  | '\x08' => ['\\', 'b']
  | '\x0C' => ['\\', 'f']
  | '\n' => ['\\', 'n']
  | '\r' => ['\\', 'r']
  | '\t' => ['\\', 't']
  | c =>
    if c.toNat < 0x20 then
      ['\\', 'u', '0', '0', Ascii.hexLower (c.toNat / 16), Ascii.hexLower (c.toNat % 16)]
    else [c]

def writeText (text : String) : List Char := '"' :: text.toList.flatMap escapeChar ++ ['"']

def writeNat (n : Nat) : List Char := Nat.toDigits 10 n

def writeList (items : List (List Char)) : List Char := '[' :: [','].intercalate items ++ [']']

def writeMember (member : String × List Char) : List Char := writeText member.1 ++ ':' :: member.2

def writeObject (members : List (String × List Char)) : List Char :=
  '{' :: [','].intercalate (members.map writeMember) ++ ['}']

def writeTexts (texts : List String) : List Char := writeList (texts.map writeText)

def writeDict (d : Dict) : List Char := writeObject (d.entries.map fun (key, value) => (key, writeText value))

/-- The member of an optional value, left out when there is none. -/
def optionalMember {α : Type} (name : String) (write : α → List Char) (value : Option α) :
    List (String × List Char) :=
  match value with
  | some a => [(name, write a)]
  | none => []

end SearchRelay.Json
