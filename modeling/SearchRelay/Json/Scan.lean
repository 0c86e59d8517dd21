import SearchRelay.Decimal.Shortest
import SearchRelay.Json.Fault

/-!
# Words, strings and numbers of JSON

Each reader takes one piece off the front of a text and hands back the rest.
Strings are decoded and checked for paired surrogates. A number keeps its
significand below 2^64 and turns the rest of it into an exponent.
-/

namespace SearchRelay.Json

def isSpace (c : Char) : Bool := c == ' ' || c == '\n' || c == '\t' || c == '\r'

def skipSpace (s : List Char) : List Char := s.dropWhile isSpace

theorem length_skipSpace_le (s : List Char) : (skipSpace s).length ≤ s.length :=
  (List.dropWhile_suffix isSpace).length_le

def readWord : List Char → List Char → Except Fault (List Char)
  | [], s => .ok s
  | _ :: _, [] => .error (.before .endInValue [])
  | w :: word, c :: rest => if c = w then readWord word rest else .error (.on .noIdent (c :: rest))

theorem readWord_shorter : ∀ {word s r : List Char}, readWord word s = .ok r → r.length ≤ s.length
  | [], s, r, h => by cases h; exact Nat.le_refl _
  | _ :: _, [], r, h => by cases h
  | w :: word, c :: rest, r, h => by
    unfold readWord at h
    split at h
    · have := readWord_shorter h
      simp only [List.length_cons]; omega
    · cases h

/-! ## Strings -/

def readUnit (s : List Char) : Except Fault (Nat × List Char) :=
  match s with
  | a :: b :: c :: d :: rest =>
    match Ascii.hexValue? a, Ascii.hexValue? b, Ascii.hexValue? c, Ascii.hexValue? d with
    | some w, some x, some y, some z => .ok (((w * 16 + x) * 16 + y) * 16 + z, rest)
    | _, _, _, _ => .error ⟨.badEscape, Utf8.size s - 4⟩
  | s => if 4 ≤ Utf8.size s then .error ⟨.badEscape, Utf8.size s - 4⟩ else .error ⟨.endInString, 0⟩

theorem readUnit_shorter {s r : List Char} {n : Nat} (h : readUnit s = .ok (n, r)) : r.length < s.length := by
  unfold readUnit at h
  split at h
  · split at h
    · cases h; simp only [List.length_cons]; omega
    · cases h
  · split at h <;> cases h

def readLowSurrogate (high : Nat) (s : List Char) : Except Fault (Char × List Char) :=
  match s with
  | [] => .error (.before .endInString [])
  | ['\\'] => .error (.before .endInString [])
  | '\\' :: 'u' :: rest => do
    let (low, rest) ← readUnit rest
    if 0xDC00 ≤ low ∧ low ≤ 0xDFFF then
      return (Char.ofNat ((high - 0xD800) * 1024 + (low - 0xDC00) + 0x10000), rest)
    else .error (.before .loneSurrogate rest)
  | '\\' :: rest => .error (.on .unfinishedSurrogate rest)
  | s => .error (.on .unfinishedSurrogate s)

def shortEscape? : Char → Option Char
  | '"' => some '"'
  | '\\' => some '\\'
  | '/' => some '/'
  | 'b' => some '\x08'
  | 'f' => some '\x0C'
  | 'n' => some '\n'
  | 'r' => some '\r'
  | 't' => some '\t'
  | _ => none

def readEscape (s : List Char) : Except Fault (Char × List Char) :=
  match s with
  | [] => .error (.before .endInString [])
  | c :: rest =>
    match shortEscape? c with
    | some x => .ok (x, rest)
    | none =>
      if c = 'u' then do
        let (unit, rest) ← readUnit rest
        if 0xDC00 ≤ unit ∧ unit ≤ 0xDFFF then .error (.before .loneSurrogate rest)
        else if 0xD800 ≤ unit ∧ unit ≤ 0xDBFF then readLowSurrogate unit rest
        else return (Char.ofNat unit, rest)
      else .error (.on .badEscape (c :: rest))

theorem readLowSurrogate_shorter {high : Nat} {s r : List Char} {c : Char}
    (h : readLowSurrogate high s = .ok (c, r)) : r.length < s.length := by
  unfold readLowSurrogate at h
  split at h
  · cases h
  · cases h
  · next rest =>
    cases hu : readUnit rest with
    | error e => rw [hu] at h; cases h
    | ok p =>
      obtain ⟨low, rest'⟩ := p
      have := readUnit_shorter hu
      rw [hu] at h
      simp only [bind, Except.bind] at h
      split at h
      · simp only [pure, Except.pure, Except.ok.injEq, Prod.mk.injEq] at h
        simp only [List.length_cons, ← h.2]; omega
      · cases h
  · cases h
  · cases h

theorem readEscape_shorter {s r : List Char} {x : Char} (h : readEscape s = .ok (x, r)) :
    r.length < s.length := by
  unfold readEscape at h
  split at h
  · cases h
  next c rest =>
  split at h
  · cases h; simp only [List.length_cons]; omega
  split at h
  · cases hu : readUnit rest with
    | error e => rw [hu] at h; cases h
    | ok p =>
      obtain ⟨unit, rest'⟩ := p
      have := readUnit_shorter hu
      rw [hu] at h
      simp only [bind, Except.bind] at h
      split at h
      · cases h
      split at h
      · have := readLowSurrogate_shorter h
        simp only [List.length_cons]; omega
      · simp only [pure, Except.pure, Except.ok.injEq, Prod.mk.injEq] at h
        simp only [List.length_cons, ← h.2]; omega
  · cases h

/-- The characters up to the closing quote, the opening one being read. -/
def readText (s : List Char) : Except Fault (List Char × List Char) :=
  match s with
  | [] => .error (.before .endInString [])
  | '"' :: rest => .ok ([], rest)
  | '\\' :: rest =>
    match h : readEscape rest with
    | .error f => .error f
    | .ok (c, rest') =>
      have := readEscape_shorter h
      (readText rest').map fun (text, r) => (c :: text, r)
  | c :: rest =>
    if c.toNat < 0x20 then .error (.on .controlCharacter (c :: rest))
    else (readText rest).map fun (text, r) => (c :: text, r)
termination_by s.length
decreasing_by all_goals simp only [List.length_cons]; omega

/-! ## Numbers -/

/-- A number as it was written: a whole number, or a significand and a power of ten. -/
inductive Number where
  | whole (n : Int)
  | scaled (negative : Bool) (significand : Nat) (exponent : Int)
deriving DecidableEq, Repr

def digit? (c : Char) : Option Nat := if Ascii.isDigit c then some (c.toNat - 48) else none

/-- Takes digits into a significand while it stays below 2^64, and counts them. -/
def absorb (significand : Nat) : List Char → Nat × Nat × List Char
  | [] => (significand, 0, [])
  | c :: rest =>
    match digit? c with
    | some d =>
      if significand * 10 + d ≤ 18446744073709551615 then
        let (total, count, r) := absorb (significand * 10 + d) rest
        (total, count + 1, r)
      else (significand, 0, c :: rest)
    | none => (significand, 0, c :: rest)

def startsDigit : List Char → Bool
  | c :: _ => Ascii.isDigit c
  | [] => false

def skipDigits (s : List Char) : List Char := s.dropWhile Ascii.isDigit

/-- The largest exponent that is kept; a longer one is out of range, or the number is zero. -/
def exponentLimit : Nat := 2147483647

def clampExponent (e : Int) : Int := max (-2147483648) (min 2147483647 e)

def readExponentDigits (negative : Bool) (significand : Nat) (start : Int) (down : Bool) (e : Nat) :
    List Char → Except Fault (Number × List Char)
  | [] => .ok (.scaled negative significand (clampExponent (if down then start - e else start + e)), [])
  | c :: rest =>
    match digit? c with
    | none => .ok (.scaled negative significand (clampExponent (if down then start - e else start + e)), c :: rest)
    | some d =>
      if e * 10 + d ≤ exponentLimit then readExponentDigits negative significand start down (e * 10 + d) rest
      else if significand ≠ 0 ∧ ¬down then .error (.before .numberOutOfRange rest)
      else .ok (.scaled negative 0 0, skipDigits rest)

def takeSign : List Char → Bool × List Char
  | '+' :: rest => (false, rest)
  | '-' :: rest => (true, rest)
  | s => (false, s)

theorem length_takeSign_le (s : List Char) : (takeSign s).2.length ≤ s.length := by
  unfold takeSign
  split <;> simp

def readExponent (negative : Bool) (significand : Nat) (start : Int) (s : List Char) :
    Except Fault (Number × List Char) :=
  match takeSign s with
  | (_, []) => .error (.before .endInValue [])
  | (down, c :: rest) =>
    match digit? c with
    | some d => readExponentDigits negative significand start down d rest
    | none => .error (.on .badNumber (c :: rest))

/-- An exponent if its mark is next, else the number as it stands. -/
def readExponent? (negative : Bool) (significand : Nat) (exponent : Int) (s : List Char) :
    Except Fault (Number × List Char) :=
  match s with
  | 'e' :: rest => readExponent negative significand exponent rest
  | 'E' :: rest => readExponent negative significand exponent rest
  | s => .ok (.scaled negative significand exponent, s)

/-- Reads the digits after a point; the ones that no longer fit are dropped. -/
def readFraction (negative : Bool) (significand : Nat) (exponent : Int) (s : List Char) :
    Except Fault (Number × List Char) :=
  let (total, count, rest) := absorb significand s
  if startsDigit rest then readExponent? negative total (exponent - count) (skipDigits rest)
  else if count = 0 then
    .error (.on (if rest.isEmpty then .endInValue else .badNumber) rest)
  else readExponent? negative total (exponent - count) rest

def readTail (negative : Bool) (significand : Nat) (s : List Char) : Except Fault (Number × List Char) :=
  match s with
  | '.' :: rest => readFraction negative significand 0 rest
  | 'e' :: rest => readExponent negative significand 0 rest
  | 'E' :: rest => readExponent negative significand 0 rest
  | s =>
    if negative then
      if significand = 0 ∨ 9223372036854775808 < significand then .ok (.scaled true significand 0, s)
      else .ok (.whole (-significand), s)
    else .ok (.whole significand, s)

def readNumber (negative : Bool) (s : List Char) : Except Fault (Number × List Char) :=
  match s with
  | [] => .error (.before .endInValue [])
  | '0' :: rest =>
    if startsDigit rest then .error (.on .badNumber rest) else readTail negative 0 rest
  | c :: rest =>
    match digit? c with
    | none => .error (.on .badNumber (c :: rest))
    | some d =>
      let (total, _, r) := absorb d rest
      if startsDigit r then
        let r' := skipDigits r
        let dropped : Int := (r.length - r'.length : Nat)
        match r' with
        | '.' :: r' => readFraction negative total dropped r'
        | r' => readExponent? negative total dropped r'
      else readTail negative total r

/-! ## The value of a scaled number -/

/-- Divides by powers of ten of at most 308 until the exponent is used up or nothing is left. -/
def divideDown (x : Float) (e : Nat) : Float :=
  if e ≤ 308 then x / Float.ofScientific 1 false e
  else if x == 0 then x
  else divideDown (x / Float.ofScientific 1 false 308) (e - 308)
termination_by e

/-- The double of a significand and a power of ten, one rounding a step; none when it is too large. -/
def scale? (significand : Nat) (exponent : Int) : Option Float :=
  let x := (UInt64.ofNat significand).toFloat
  if exponent < 0 then some (divideDown x exponent.natAbs)
  else if exponent ≤ 308 then
    let y := x * Float.ofScientific 1 false exponent.toNat
    if y.isInf then none else some y
  else if x == 0 then some x
  else none

/-- Doubles in messages are positional when the first digit stands for a power of ten from -5 to 15. -/
def floatLayout : Decimal.Layout := ⟨-5, 15⟩

/-- What a number is found to be; a scaled one too large for a double is a fault. -/
def Number.found (n : Number) (rest : List Char) : Except Fault Found :=
  match n with
  | .whole n => .ok (.integer n)
  | .scaled negative significand exponent =>
    match scale? significand exponent with
    | some x => .ok (.float (floatLayout.ofFloat (if negative then -x else x)))
    | none => .error (.before .numberOutOfRange rest)

end SearchRelay.Json
