import SearchRelay.Text.Ascii

/-!
# IPv6 addresses

Eight words in hexadecimal between colons. One double colon stands for a run of
zeros, and the last two words may be written as four decimal bytes. Writing
shortens the first of the longest runs of at least two zeros.
-/

namespace SearchRelay.Ipv6

abbrev Address := Vector UInt16 8

/-! ## Reading -/

def word? (piece : List Char) : Option UInt16 :=
  if piece.isEmpty || 4 < piece.length then none
  else (piece.foldlM (fun n c => (Ascii.hexValue? c).map (16 * n + ·)) 0).map UInt16.ofNat

def byte? (piece : List Char) : Option Nat :=
  if piece.isEmpty || !piece.all Ascii.isDigit || (piece.head? = some '0' && 1 < piece.length) then none
  else (some (piece.foldl (fun n c => 10 * n + (c.toNat - 48)) 0)).filter (· < 256)

def dotted? (piece : List Char) : Option (List UInt16) :=
  match (piece.splitOn '.').mapM byte? with
  | some [a, b, c, d] => some [UInt16.ofNat (256 * a + b), UInt16.ofNat (256 * c + d)]
  | _ => none

/-- The words of some pieces; with `last`, the last piece may be four bytes. -/
def words? (last : Bool) : List (List Char) → Option (List UInt16)
  | [] => some []
  | [piece] => (word? piece).map ([·]) <|> (if last then dotted? piece else none)
  | piece :: rest => do return (← word? piece) :: (← words? last rest)

def side? (last : Bool) (text : List Char) : Option (List UInt16) :=
  if text.isEmpty then some [] else words? last (text.splitOn ':')

/-- The text before the first double colon and the text after it, if there is one. -/
def cutGap : List Char → List Char × Option (List Char)
  | [] => ([], none)
  | ':' :: ':' :: rest => ([], some rest)
  | c :: rest => ((c :: (cutGap rest).1), (cutGap rest).2)

/-- The words of an address, of which a double colon stands for at least one. -/
def allWords? (text : List Char) : Option (List UInt16) :=
  match cutGap text with
  | (whole, none) => side? true whole
  | (before, some after) => do
    let left ← side? false before
    let right ← side? true after
    let gap := 8 - (left.length + right.length)
    if gap = 0 then none else return left ++ List.replicate gap 0 ++ right

def parse? (text : List Char) : Option Address := do
  let words ← allWords? text
  if h : words.toArray.size = 8 then return ⟨words.toArray, h⟩ else none

/-! ## Writing -/

def zeros (words : List UInt16) : Nat := (words.takeWhile (· == 0)).length

/-- Place and length of the first of the longest runs of zeros. -/
def longestRun : List UInt16 → Nat × Nat
  | [] => (0, 0)
  | w :: rest =>
    let here := zeros (w :: rest)
    let later := longestRun rest
    if later.2 ≤ here then (0, here) else (later.1 + 1, later.2)

def writeWords (words : List UInt16) : List Char :=
  [':'].intercalate (words.map fun w => Ascii.hexDigits w.toNat)

def write (address : Address) : List Char :=
  let words := address.toList
  let (place, size) := longestRun words
  if size < 2 then writeWords words
  else writeWords (words.take place) ++ ':' :: ':' :: writeWords (words.drop (place + size))

end SearchRelay.Ipv6
