import SearchRelay.Json.Scan

/-!
# Values that are passed over

The value of a member nobody asked for is checked against the grammar of JSON
and nothing more: any depth, any number, any escape of four digits. Open
brackets are kept on a stack, so depth costs no more than length.
-/

namespace SearchRelay.Json

def skipString (s : List Char) : Except Fault (List Char) :=
  match s with
  | [] => .error (.before .endInString [])
  | '"' :: rest => .ok rest
  | ['\\'] => .error (.before .endInString [])
  | '\\' :: 'u' :: rest =>
    match h : readUnit rest with
    | .error f => .error f
    | .ok (_, r) =>
      have := readUnit_shorter h
      skipString r
  | '\\' :: c :: rest => if (shortEscape? c).isSome then skipString rest else .error (.on .badEscape (c :: rest))
  | c :: rest => if c.toNat < 0x20 then .error (.before .controlCharacter (c :: rest)) else skipString rest
termination_by s.length
decreasing_by all_goals simp only [List.length_cons]; omega

def skipExponent (s : List Char) : Except Fault (List Char) :=
  let s := (takeSign s).2
  if startsDigit s then .ok (skipDigits s) else .error (.on .badNumber s)

def skipExponent? (s : List Char) : Except Fault (List Char) :=
  match s with
  | 'e' :: rest => skipExponent rest
  | 'E' :: rest => skipExponent rest
  | s => .ok s

def skipNumber (s : List Char) : Except Fault (List Char) := do
  let rest ← match s with
    | '0' :: rest => if startsDigit rest then .error (.on .badNumber rest) else .ok rest
    | s => if startsDigit s then .ok (skipDigits s) else .error (.on .badNumber s)
  match rest with
  | '.' :: rest => if startsDigit rest then skipExponent? (skipDigits rest) else .error (.on .badNumber rest)
  | rest => skipExponent? rest

def skipScalar (s : List Char) : Except Fault (List Char) :=
  match s with
  | [] => .error (.on .endInValue [])
  | 'n' :: rest => readWord ['u', 'l', 'l'] rest
  | 't' :: rest => readWord ['r', 'u', 'e'] rest
  | 'f' :: rest => readWord ['a', 'l', 's', 'e'] rest
  | '"' :: rest => skipString rest
  | '-' :: rest => skipNumber rest
  | c :: rest => if Ascii.isDigit c then skipNumber (c :: rest) else .error (.on .noValue (c :: rest))

/-! ## Each of them takes something -/

theorem length_skipDigits_le (s : List Char) : (skipDigits s).length ≤ s.length :=
  (List.dropWhile_suffix Ascii.isDigit).length_le

theorem length_skipDigits_lt {s : List Char} (h : startsDigit s = true) : (skipDigits s).length < s.length := by
  cases s with
  | nil => cases h
  | cons c rest =>
    have hd : Ascii.isDigit c = true := h
    rw [skipDigits, List.dropWhile_cons, if_pos hd]
    have := length_skipDigits_le rest
    simp only [skipDigits, List.length_cons] at this ⊢
    omega

theorem skipString_shorter {s r : List Char} (h : skipString s = .ok r) : r.length < s.length := by
  fun_induction skipString s with
  | case1 => cases h
  | case2 rest => cases h; simp
  | case3 => cases h
  | case4 rest f hf => cases h
  | case5 rest n r' hr _ ih =>
    have := readUnit_shorter hr
    have := ih h
    simp only [List.length_cons]; omega
  | case6 c rest _ _ ih => have := ih h; simp only [List.length_cons]; omega
  | case7 => cases h
  | case8 => cases h
  | case9 c rest _ _ _ _ _ ih => have := ih h; simp only [List.length_cons]; omega

theorem skipExponent_shorter {s r : List Char} (h : skipExponent s = .ok r) : r.length < s.length := by
  simp only [skipExponent] at h
  split at h
  · next hd =>
    cases h
    exact Nat.lt_of_lt_of_le (length_skipDigits_lt hd) (length_takeSign_le s)
  · cases h

theorem skipExponent?_shorter {s r : List Char} (h : skipExponent? s = .ok r) : r.length ≤ s.length := by
  unfold skipExponent? at h
  split at h
  · have := skipExponent_shorter h; simp only [List.length_cons]; omega
  · have := skipExponent_shorter h; simp only [List.length_cons]; omega
  · cases h; exact Nat.le_refl _

theorem skipNumber_shorter {s r : List Char} (h : skipNumber s = .ok r) : r.length < s.length := by
  unfold skipNumber at h
  have tail : ∀ {t : List Char}, t.length < s.length →
      (match t with
        | '.' :: rest =>
          if startsDigit rest then skipExponent? (skipDigits rest) else .error (.on .badNumber rest)
        | rest => skipExponent? rest) = .ok r → r.length < s.length := by
    intro t ht h
    split at h
    · split at h
      · next rest hd =>
        have := skipExponent?_shorter h
        have := length_skipDigits_lt hd
        simp only [List.length_cons] at ht
        omega
      · cases h
    · have := skipExponent?_shorter h; omega
  split at h
  · split at h
    · cases h
    · exact tail (by simp) h
  · split at h
    · next hd => exact tail (length_skipDigits_lt hd) h
    · cases h

theorem skipScalar_shorter {s r : List Char} (h : skipScalar s = .ok r) : r.length < s.length := by
  unfold skipScalar at h
  split at h
  · cases h
  · have := readWord_shorter h; simp only [List.length_cons]; omega
  · have := readWord_shorter h; simp only [List.length_cons]; omega
  · have := readWord_shorter h; simp only [List.length_cons]; omega
  · have := skipString_shorter h; simp only [List.length_cons]; omega
  · have := skipNumber_shorter h; simp only [List.length_cons]; omega
  · split at h
    · exact skipNumber_shorter h
    · cases h

/-! ## Nested values -/

inductive Bracket where
  | list
  | object
deriving DecidableEq, Repr

def Bracket.close : Bracket → Char
  | .list => ']'
  | .object => '}'

def Bracket.atEnd : Bracket → Cause
  | .list => .endInList
  | .object => .endInObject

def Bracket.noCommaOrEnd : Bracket → Cause
  | .list => .noListCommaOrEnd
  | .object => .noObjectCommaOrEnd

def readColon (s : List Char) : Except Fault (List Char) :=
  match skipSpace s with
  | [] => .error (.on .endInObject [])
  | ':' :: rest => .ok rest
  | s => .error (.on .noColon s)

theorem readColon_shorter {s r : List Char} (h : readColon s = .ok r) : r.length < s.length := by
  unfold readColon at h
  split at h
  · cases h
  · next rest hs =>
    cases h
    have := length_skipSpace_le s
    rw [hs, List.length_cons] at this
    omega
  · cases h

/-- Passes over what a member has before its value: nothing in a list, a key and a colon in an object. -/
def Bracket.skipKey (b : Bracket) (s : List Char) : Except Fault (List Char) :=
  match b with
  | .list => .ok s
  | .object =>
    match skipSpace s with
    | [] => .error (.on .endInObject [])
    | '"' :: rest => do readColon (← skipString rest)
    | s => .error (.on .keyNotString s)

theorem Bracket.skipKey_shorter {b : Bracket} {s r : List Char} (h : b.skipKey s = .ok r) :
    r.length ≤ s.length := by
  cases b with
  | list => cases h; exact Nat.le_refl _
  | object =>
    unfold Bracket.skipKey at h
    simp only at h
    split at h
    · cases h
    · next rest hs =>
      cases hk : skipString rest with
      | error f => rw [hk] at h; cases h
      | ok t =>
        rw [hk] at h
        have := skipString_shorter hk
        have := readColon_shorter h
        have := length_skipSpace_le s
        rw [hs, List.length_cons] at this
        omega
    · cases h

/-- Where the skipper stands: before a value, behind an opening bracket, or behind a value. -/
inductive Stage where
  | value
  | opened
  | closed
deriving DecidableEq, Repr

def Stage.rank : Stage → Nat
  | .value => 0
  | .opened => 1
  | .closed => 1

/-- Passes over the rest of the values whose open brackets stand on the stack. -/
def skipNested (stage : Stage) (stack : List Bracket) (s : List Char) : Except Fault (List Char) :=
  match stage, stack with
  | .value, stack =>
    match hs : skipSpace s with
    | '[' :: rest =>
      have := length_skipSpace_le s
      have : (skipSpace s).length = rest.length + 1 := by rw [hs, List.length_cons]
      skipNested .opened (.list :: stack) rest
    | '{' :: rest =>
      have := length_skipSpace_le s
      have : (skipSpace s).length = rest.length + 1 := by rw [hs, List.length_cons]
      skipNested .opened (.object :: stack) rest
    | t =>
      match h : skipScalar t with
      | .error f => .error f
      | .ok r =>
        have := length_skipSpace_le s
        have := skipScalar_shorter h
        have : (skipSpace s).length = t.length := by rw [hs]
        skipNested .closed stack r
  | .opened, [] => .ok s
  | .opened, b :: outer =>
    match hs : skipSpace s with
    | [] => .error (.on b.atEnd [])
    | c :: rest =>
      have := length_skipSpace_le s
      have : (skipSpace s).length = rest.length + 1 := by rw [hs, List.length_cons]
      if c = b.close then skipNested .closed outer rest
      else
        match h : b.skipKey (c :: rest) with
        | .error f => .error f
        | .ok r =>
          have := Bracket.skipKey_shorter h
          skipNested .value (b :: outer) r
  | .closed, [] => .ok s
  | .closed, b :: outer =>
    match hs : skipSpace s with
    | [] => .error (.on b.atEnd [])
    | c :: rest =>
      have := length_skipSpace_le s
      have : (skipSpace s).length = rest.length + 1 := by rw [hs, List.length_cons]
      if c = ',' then
        match h : b.skipKey rest with
        | .error f => .error f
        | .ok r =>
          have := Bracket.skipKey_shorter h
          skipNested .value (b :: outer) r
      else if c = b.close then skipNested .closed outer rest
      else .error (.on b.noCommaOrEnd (c :: rest))
termination_by (s.length, stage.rank)
decreasing_by
  all_goals simp only [Prod.lex_def, Stage.rank, List.length_cons] at *; omega

theorem skipNested_shorter {stage : Stage} {stack : List Bracket} {s r : List Char}
    (h : skipNested stage stack s = .ok r) : r.length ≤ s.length ∧ (stage = .value → r.length < s.length) := by
  fun_induction skipNested stage stack s with
  | case1 stack s rest hs hle heq ih => have := ih h; exact ⟨by omega, fun _ => by omega⟩
  | case2 stack s rest hs hle heq ih => have := ih h; exact ⟨by omega, fun _ => by omega⟩
  | case3 => cases h
  | case4 stack s _ _ r' hr hle hlt heq ih => have := ih h; exact ⟨by omega, fun _ => by omega⟩
  | case5 s => cases h; exact ⟨Nat.le_refl _, fun e => by cases e⟩
  | case6 => cases h
  | case7 s b outer rest hs hle heq ih => have := ih h; exact ⟨by omega, fun e => by cases e⟩
  | case8 => cases h
  | case9 s b outer c rest hs hle heq hc r' hr hk ih =>
    have := ih h
    simp only [List.length_cons] at hk
    exact ⟨by omega, fun e => by cases e⟩
  | case10 s => cases h; exact ⟨Nat.le_refl _, fun e => by cases e⟩
  | case11 => cases h
  | case12 => cases h
  | case13 s b outer rest hs hle heq r' hr hk ih =>
    have := ih h
    exact ⟨by omega, fun e => by cases e⟩
  | case14 s b outer rest hs hle heq hc ih => have := ih h; exact ⟨by omega, fun e => by cases e⟩
  | case15 => cases h

def skipValue (s : List Char) : Except Fault (List Char) := skipNested .value [] s

theorem skipValue_shorter {s r : List Char} (h : skipValue s = .ok r) : r.length < s.length :=
  (skipNested_shorter h).2 rfl

end SearchRelay.Json
