import SearchRelay.Dict
import SearchRelay.Json.Skip

/-!
# The grammar of JSON

Which texts are JSON, said without a reader. A string that is read says a text,
so its escapes have to name characters; a value that is passed over only has to
be well formed, and the escapes in its strings may be halves of characters.
-/

namespace SearchRelay.Json

def Blank (s : List Char) : Prop := s ⊆ [' ', '\n', '\t', '\r']

/-! ## Strings -/

def HexDigit (c : Char) (v : Nat) : Prop :=
  "0123456789abcdef".toList[v]? = some c ∨ "0123456789ABCDEF".toList[v]? = some c

inductive CodeUnit : List Char → Nat → Prop where
  | digits {a b c d : Char} {w x y z : Nat} : HexDigit a w → HexDigit b x → HexDigit c y → HexDigit d z →
      CodeUnit [a, b, c, d] (4096 * w + 256 * x + 16 * y + z)

def shortEscapes : List (Char × Char) :=
  [('"', '"'), ('\\', '\\'), ('/', '/'), ('b', '\x08'), ('f', '\x0C'), ('n', '\n'), ('r', '\r'), ('t', '\t')]

/-- The ways to write a character in a string. No unit alone names a surrogate, because no character is one. -/
inductive CharText (x : Char) : List Char → Prop where
  | plain : 0x20 ≤ x.toNat → x ≠ '"' → x ≠ '\\' → CharText x [x]
  | short {e : Char} : (e, x) ∈ shortEscapes → CharText x ['\\', e]
  | unit {u : List Char} : CodeUnit u x.toNat → CharText x ('\\' :: 'u' :: u)
  | pair {u v : List Char} {high low : Nat} : CodeUnit u high → CodeUnit v low →
      0xD800 ≤ high → high ≤ 0xDBFF → 0xDC00 ≤ low → low ≤ 0xDFFF →
      x.toNat = 0x10000 + 0x400 * (high - 0xD800) + (low - 0xDC00) →
      CharText x ('\\' :: 'u' :: (u ++ '\\' :: 'u' :: v))

inductive Spells : List Char → List Char → Prop where
  | nil : Spells [] []
  | cons {x : Char} {text s t : List Char} : CharText x s → Spells text t → Spells (x :: text) (s ++ t)

def Literal (text : String) (s : List Char) : Prop := ∃ body, Spells text.toList body ∧ s = '"' :: (body ++ ['"'])

/-- What may stand in a string that nobody reads: the escape of any code unit is one. -/
inductive LooseText : List Char → Prop where
  | nil : LooseText []
  | plain {c : Char} {s : List Char} : 0x20 ≤ c.toNat → c ≠ '"' → c ≠ '\\' → LooseText s →
    LooseText (c :: s)
  | short {e x : Char} {s : List Char} : (e, x) ∈ shortEscapes → LooseText s → LooseText ('\\' :: e :: s)
  | unit {u s : List Char} {n : Nat} : CodeUnit u n → LooseText s → LooseText ('\\' :: 'u' :: (u ++ s))

/-! ## Numbers -/

def Digits (s : List Char) : Prop := s ≠ [] ∧ ∀ c ∈ s, '0' ≤ c ∧ c ≤ '9'

def WholePart (s : List Char) : Prop := Digits s ∧ (s.head? = some '0' → s = ['0'])

def FractionPart (s : List Char) : Prop := s = [] ∨ ∃ digits, Digits digits ∧ s = '.' :: digits

def ExponentPart (s : List Char) : Prop :=
  s = [] ∨ ∃ mark sign digits, mark ∈ ['e', 'E'] ∧ sign ∈ [[], ['+'], ['-']] ∧ Digits digits ∧
    s = mark :: (sign ++ digits)

def Magnitude (s : List Char) : Prop :=
  ∃ whole fraction exponent, WholePart whole ∧ FractionPart fraction ∧ ExponentPart exponent ∧
    s = whole ++ (fraction ++ exponent)

/-- A number in decimal digits, without a leading zero. -/
def Numeral (n : Nat) (s : List Char) : Prop := WholePart s ∧ Nat.ofDigitChars 10 s 0 = n

/-! ## Values -/

inductive Scalar : List Char → Prop where
  | null : Scalar ['n', 'u', 'l', 'l']
  | yes : Scalar ['t', 'r', 'u', 'e']
  | no : Scalar ['f', 'a', 'l', 's', 'e']
  | number {s : List Char} : Magnitude s → Scalar s
  | negative {s : List Char} : Magnitude s → Scalar ('-' :: s)
  | text {s : List Char} : LooseText s → Scalar ('"' :: (s ++ ['"']))

def Bracket.opening : Bracket → Char
  | .list => '['
  | .object => '{'

/-- What stands before a value between brackets: nothing in a list, a key and a colon in an object. -/
inductive Label : Bracket → List Char → Prop where
  | list : Label .list []
  | object {key before after : List Char} : LooseText key → Blank before → Blank after →
      Label .object ('"' :: (key ++ '"' :: (before ++ ':' :: after)))

mutual
/-- A value of JSON, nested as deep as it may be. -/
inductive Value : List Char → Prop where
  | scalar {s : List Char} : Scalar s → Value s
  | nested {b : Bracket} {s : List Char} : Inside b s → Value (b.opening :: s)

/-- What follows an opening bracket, up to the closing one. -/
inductive Inside : Bracket → List Char → Prop where
  | empty {b : Bracket} {blank : List Char} : Blank blank → Inside b (blank ++ [b.close])
  | parts {b : Bracket} {blank label value rest : List Char} : Blank blank → Label b label → Value value →
      Rest b rest → Inside b (blank ++ (label ++ (value ++ rest)))

/-- What follows a value between brackets, up to the closing one. -/
inductive Rest : Bracket → List Char → Prop where
  | close {b : Bracket} {blank : List Char} : Blank blank → Rest b (blank ++ [b.close])
  | comma {b : Bracket} {before after label value rest : List Char} : Blank before → Blank after → Label b label →
      Value value → Rest b rest → Rest b (before ++ ',' :: (after ++ (label ++ (value ++ rest))))
end

/-! ## Lists and objects that are read -/

/-- What stands before a part between brackets: blanks, and a comma unless it is the first part. -/
inductive Lead : Bool → List Char → Prop where
  | first {blank : List Char} : Blank blank → Lead true blank
  | comma {before after : List Char} : Blank before → Blank after → Lead false (before ++ ',' :: after)

/-- The parts between brackets from some part on, which may be the first, and the closing bracket. -/
inductive Parts {α : Type} (close : Char) (Says : α → List Char → Prop) : Bool → List α →
  List Char → Prop where
  | close {first : Bool} {blank : List Char} : Blank blank → Parts close Says first [] (blank ++ [close])
  | part {first : Bool} {a : α} {as : List α} {lead part rest : List Char} : Lead first lead → Says a part →
      Parts close Says false as rest → Parts close Says first (a :: as) (lead ++ (part ++ rest))

def ListText {α : Type} (Says : α → List Char → Prop) (as : List α) (s : List Char) : Prop :=
  ∃ t, Parts ']' Says true as t ∧ s = '[' :: t

def MemberText (name : String) (Says : List Char → Prop) (s : List Char) : Prop :=
  ∃ key before after value, Literal name key ∧ Blank before ∧ Blank after ∧ Says value ∧
    s = key ++ (before ++ ':' :: (after ++ value))

def ObjectText {α : Type} (Part : α → List Char → Prop) (as : List α) (s : List Char) : Prop :=
  ∃ t, Parts '}' Part true as t ∧ s = '{' :: t

/-- An object of strings. Of members with one key the last counts. -/
def DictText (d : Dict) (s : List Char) : Prop :=
  ∃ pairs, d = Dict.ofList pairs ∧
    ObjectText (fun pair : String × String => MemberText pair.1 (Literal pair.2)) pairs s

def NullOr {α : Type} (Says : α → List Char → Prop) (a : Option α) (s : List Char) : Prop :=
  match a with
  | none => s = ['n', 'u', 'l', 'l']
  | some a => Says a s

end SearchRelay.Json
