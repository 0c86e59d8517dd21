import SearchRelay.Text.Ascii

/-!
# Punycode

A label of a domain in ASCII. The ASCII characters come first, then a hyphen if
there were any, then for every other character, in the order of the alphabet,
how far it is from the one before: a number whose digits adapt to what was
written so far.
-/

namespace SearchRelay.Punycode

/-- The largest digit that ends a number, plus one, at the `k`-th place. -/
def threshold (bias k : Nat) : Nat := min 26 (max 1 (k - bias))

theorem threshold_pos (bias k : Nat) : 1 ≤ threshold bias k := by unfold threshold; omega

/-- How many times a distance is divided until it is small, and what is left. -/
def settle (delta : Nat) : Nat × Nat :=
  if delta ≤ 455 then (0, delta)
  else
    let (times, left) := settle (delta / 35)
    (times + 1, left)
termination_by delta
decreasing_by exact Nat.div_lt_self (by omega) (by omega)

/-- The bias after a distance, when `count` characters are in place. -/
def adapt (delta count : Nat) (first : Bool) : Nat :=
  let scaled := if first then delta / 700 else delta / 2
  let (times, left) := settle (scaled + scaled / count)
  36 * times + 36 * left / (left + 38)

/-! ## Writing -/

def digitChar (d : Nat) : Char := Char.ofNat (if d < 26 then 97 + d else 22 + d)

def writeNumber (bias k q : Nat) : List Char :=
  let t := threshold bias k
  if q < t then [digitChar q]
  else digitChar (t + (q - t) % (36 - t)) :: writeNumber bias (k + 36) ((q - t) / (36 - t))
termination_by q
decreasing_by
  have := threshold_pos bias k
  exact Nat.lt_of_le_of_lt (Nat.div_le_self _ _) (by omega)

/-- What has been written: the distance since the last character, the bias, the characters in place. -/
structure Progress where
  delta : Nat
  bias : Nat
  count : Nat
  first : Bool
  digits : List Char

/-- Passes one character of the label while `point` is being placed. -/
def pass (point : Nat) (p : Progress) (c : Char) : Progress :=
  if c.toNat < point then { p with delta := p.delta + 1 }
  else if c.toNat = point then
    ⟨0, adapt p.delta (p.count + 1) p.first, p.count + 1, false, p.digits ++ writeNumber p.bias 36 p.delta⟩
  else p

/-- Places the given characters, which ascend, everywhere in a label; `next` is the least not yet placed. -/
def place (label : List Char) : Nat → List Nat → Progress → List Char
  | _, [], p => p.digits
  | next, point :: rest, p =>
    let p := label.foldl (pass point) { p with delta := p.delta + (point - next) * (p.count + 1) }
    place label (point + 1) rest { p with delta := p.delta + 1 }

def isBasic (c : Char) : Bool := c.toNat < 128

def encode (label : List Char) : List Char :=
  let basic := label.filter isBasic
  let points := ((label.filter (!isBasic ·)).map Char.toNat).mergeSort.eraseDups
  basic ++ (if basic.isEmpty then [] else ['-']) ++ place label 128 points ⟨0, 72, basic.length, true, []⟩

/-! ## Reading -/

def digit? (c : Char) : Option Nat :=
  if Ascii.isLetter c then some ((Ascii.lower c).toNat - 97)
  else if Ascii.isDigit c then some (c.toNat - 22)
  else none

/-- Adds the number that a text starts with to `sum`; the digit at hand weighs `weight`. -/
def readNumber (bias : Nat) : Nat → Nat → Nat → List Char → Option (Nat × List Char)
  | _, _, _, [] => none
  | k, weight, sum, c :: rest =>
    match digit? c with
    | none => none
    | some d =>
      if d < threshold bias k then some (sum + d * weight, rest)
      else readNumber bias (k + 36) (weight * (36 - threshold bias k)) (sum + d * weight) rest

theorem readNumber_shorter {bias k weight sum : Nat} {text : List Char} {r : Nat × List Char}
    (h : readNumber bias k weight sum text = some r) : r.2.length < text.length := by
  induction text generalizing k weight sum with
  | nil => simp [readNumber] at h
  | cons c rest ih =>
    unfold readNumber at h
    split at h
    · simp at h
    · split at h
      · cases h; simp
      · exact Nat.lt_succ_of_lt (ih h)

/-- Puts the characters that a text describes into a label; `point` and `i` are where the last one went. -/
def insertAll (bias point i : Nat) (label text : List Char) : Option (List Char) :=
  if text.isEmpty then some label
  else
    match _h : readNumber bias 36 1 i text with
    | none => none
    | some (j, rest) =>
      let count := label.length + 1
      let point := point + j / count
      if point.isValidChar then
        insertAll (adapt (j - i) count (i == 0)) point (j % count + 1)
          (label.insertIdx (j % count) (Char.ofNat point)) rest
      else none
termination_by text.length
decreasing_by exact readNumber_shorter ‹_›

def cutLastHyphen (text : List Char) : List Char × List Char :=
  let tail := (text.reverse.takeWhile (· != '-')).reverse
  (text.take (text.length - tail.length - 1), tail)

def decode? (text : List Char) : Option (List Char) :=
  let (basic, digits) := cutLastHyphen text
  if basic.isEmpty then insertAll 72 128 0 [] text else insertAll 72 128 0 basic digits

end SearchRelay.Punycode
