import SearchRelay.Text.Ascii
import SearchRelay.Text.Unprintable

/-!
# Quoted text

How messages and log lines show a text they quote: between double quotes, with
quotes and backslashes escaped, the usual short escapes, and every character
that cannot be seen as its code point in braces.
-/

namespace SearchRelay.Quoted

def isPlain (c : Char) : Bool :=
  if c.toNat < 0x7F then 0x20 ≤ c.toNat && c != '"' && c != '\\' else !Unprintable.contains c.toNat

def escape (c : Char) : List Char :=
  match c with
  | '"' => ['\\', '"']
  | '\\' => ['\\', '\\']
  | '\n' => ['\\', 'n']
  | '\r' => ['\\', 'r']
  | '\t' => ['\\', 't']
  | '\x00' => ['\\', '0']
  | c => if isPlain c then [c] else '\\' :: 'u' :: '{' :: Ascii.hexDigits c.toNat ++ ['}']

def quote (text : String) : String := String.ofList ('"' :: text.toList.flatMap escape ++ ['"'])

end SearchRelay.Quoted
