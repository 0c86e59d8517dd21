import SearchRelay.Text.Utf8
import SearchRelay.Url.Punycode

/-!
# Domains

A name of the web is converted to ASCII by the rules of UTS 46: its characters
are mapped and normalized, its labels are checked, and those beyond ASCII are put
into Punycode. The tables behind these rules are no part of this library, so the
conversion is a parameter wherever a host is read, with laws that are relied on.
One conversion is given here, for names in characters that the tables leave as
they are.
-/

namespace SearchRelay.Url

/-- How the bytes of a host become a name in ASCII, if they do. -/
abbrev ToAscii := List UInt8 → Option (List Char)

namespace Domain

/-- The characters of ASCII that no domain has. -/
def isForbidden (c : Char) : Bool :=
  c.toNat < 0x20 || c.toNat == 0x7F || c == ' ' || c == '#' || c == '%' || c == '/' || c == ':' || c == '<' ||
    c == '>' || c == '?' || c == '@' || c == '[' || c == '\\' || c == ']' || c == '^' || c == '|'

/-- Whether a label in small letters is marked as one in Punycode. -/
def isMarked (label : List Char) : Bool := "xn--".toList.isPrefixOf label

/-- The most characters of a label in Punycode that are read. -/
def digitLimit : Nat := 2000

/-- A label that can be read, unless there is something else wrong with it. -/
def LabelFits (label : List Char) : Prop :=
  ∀ digits, label = 'x' :: 'n' :: '-' :: '-' :: digits → digits.length ≤ digitLimit

def Fits (name : List Char) : Prop := ∀ label ∈ name.splitOn '.', LabelFits label

end Domain

namespace ToAscii

/-! ## What is relied on -/

/-- The laws of a conversion. They hold of the one by UTS 46 that does not check hyphens or lengths, refuses the
forbidden characters of ASCII, and reads no label in Punycode that is longer than the limit. -/
structure Lawful (toAscii : ToAscii) : Prop where
  /-- A name is in ASCII, without forbidden characters. -/
  output : ∀ {bytes name}, toAscii bytes = some name →
    ∀ c ∈ name, Punycode.isBasic c = true ∧ Domain.isForbidden c = false
  /-- In ASCII only capitals are changed, if no label is in Punycode. -/
  ascii : ∀ {text}, (∀ c ∈ text, Punycode.isBasic c = true ∧ Domain.isForbidden c = false) →
    (∀ label ∈ (text.map Ascii.lower).splitOn '.', Domain.isMarked label = false) →
    toAscii (Utf8.encode text) = some (text.map Ascii.lower)
  refused : ∀ {bytes c}, Punycode.isBasic c = true → Domain.isForbidden c = true →
    UInt8.ofNat c.toNat ∈ bytes → toAscii bytes = none
  /-- A name that fits stays as it is. -/
  again : ∀ {bytes name}, toAscii bytes = some name → Domain.Fits name → toAscii (Utf8.encode name) = some name
  /-- Characters are counted when a label is put into Punycode and digits when it is read. So a label may be written
  that is then too long. -/
  limit : ∀ {bytes name}, toAscii bytes = some name → ¬Domain.Fits name → toAscii (Utf8.encode name) = none

/-! ## A limited conversion -/

/-- Ranges of letters and symbols beyond ASCII that are valid in names, are not mapped, do not combine with what
is before them, and run from left to right. -/
def stableRanges : List (Nat × Nat) :=
  [(0xDF, 0xFF), (0x3AC, 0x3CE), (0x430, 0x45F), (0x561, 0x586), (0x10D0, 0x10F0), (0x2600, 0x27BF),
    (0x3041, 0x3096), (0x30A1, 0x30FA), (0x3400, 0x4DBF), (0x4E00, 0x9FFF), (0xAC00, 0xD7A3), (0x1F300, 0x1F6D7)]

/-- More such letters, between which there are others. -/
def stableLetters : String := "āăąćĉċčďđēĕėęěĝğġģĥħĩīĭįıĵķĺļľłńņňŋōŏőœŕŗřśŝşšţťŧũūŭůűųŵŷźżž"

def isStable (c : Char) : Bool :=
  stableRanges.any (fun range => range.1 ≤ c.toNat && c.toNat ≤ range.2) || stableLetters.toList.contains c

def isAllowed (c : Char) : Bool := if Punycode.isBasic c then !Domain.isForbidden c else isStable c

/-- The most characters of a label that is put into Punycode. -/
def labelLimit : Nat := 1000

/-- The label that a text in Punycode stands for: one beyond ASCII, not too long, in characters that are allowed. -/
def unicodeLabel? (digits : List Char) : Option (List Char) :=
  if digits.all Punycode.isBasic && digits.length ≤ Domain.digitLimit then
    (Punycode.decode? digits).filter fun label =>
      label.any (!Punycode.isBasic ·) && label.all isAllowed && !Domain.isMarked label && label.length ≤ labelLimit
  else none

def asciiLabel? : List Char → Option (List Char)
  | 'x' :: 'n' :: '-' :: '-' :: digits => (unicodeLabel? digits).map fun _ => 'x' :: 'n' :: '-' :: '-' :: digits
  | label =>
    if label.all Punycode.isBasic then some label
    else if label.length ≤ labelLimit then some ('x' :: 'n' :: '-' :: '-' :: Punycode.encode label)
    else none

/-- The conversion of names in ASCII and in stable characters. What it gives for these, it gives by UTS 46; it
refuses all others, many of which the tables would map or let stand. -/
def limited : ToAscii := fun bytes => do
  let name := (Utf8.decodeLossy bytes).map Ascii.lower
  if !name.all isAllowed then none
  else return ['.'].intercalate (← (name.splitOn '.').mapM asciiLabel?)

end ToAscii

end SearchRelay.Url
