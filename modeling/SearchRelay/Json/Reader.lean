import SearchRelay.Dict
import SearchRelay.Json.Skip

/-!
# Readers of typed JSON

A reader takes a value of one type off the front of a text and always takes
something, which is what lets lists, dictionaries and records of readers end.
A fault in what a value means is placed where reading it stopped.
-/

namespace SearchRelay.Json

structure Reader (α : Type) where
  read : List Char → Except Fault (α × List Char)
  shorter : ∀ {s r : List Char} {a : α}, read s = .ok (a, r) → r.length < s.length

/-! ## What has been taken -/

theorem readText_shorter {s r text : List Char} (h : readText s = .ok (text, r)) : r.length < s.length := by
  fun_induction readText s generalizing text with
  | case1 => cases h
  | case2 rest => cases h; simp
  | case3 rest f hf => cases h
  | case4 rest c rest' hr _ ih =>
    have := readEscape_shorter hr
    cases ht : readText rest' with
    | error f => rw [ht] at h; cases h
    | ok p =>
      obtain ⟨t, r'⟩ := p
      rw [ht] at h
      cases h
      have := ih ht
      simp only [List.length_cons]; omega
  | case5 => cases h
  | case6 c rest _ _ _ ih =>
    cases ht : readText rest with
    | error f => rw [ht] at h; cases h
    | ok p =>
      obtain ⟨t, r'⟩ := p
      rw [ht] at h
      cases h
      have := ih ht
      simp only [List.length_cons]; omega

theorem length_absorb_le (n : Nat) (s : List Char) : (absorb n s).2.2.length ≤ s.length := by
  induction s generalizing n with
  | nil => simp [absorb]
  | cons c rest ih =>
    unfold absorb
    split
    · next d hd =>
      split
      · exact Nat.le_succ_of_le (ih (n * 10 + d))
      · exact Nat.le_refl _
    · exact Nat.le_refl _

theorem readExponentDigits_shorter {negative down : Bool} {significand e : Nat} {start : Int} {n : Number} :
    ∀ {s r : List Char}, readExponentDigits negative significand start down e s = .ok (n, r) →
      r.length ≤ s.length := by
  intro s
  induction s generalizing e with
  | nil => intro r h; cases h; exact Nat.le_refl _
  | cons c rest ih =>
    intro r h
    unfold readExponentDigits at h
    split at h
    · cases h; exact Nat.le_refl _
    · split at h
      · have := ih h; simp only [List.length_cons]; omega
      · split at h
        · cases h
        · cases h
          have := length_skipDigits_le rest
          simp only [List.length_cons]; omega

theorem readExponent_shorter {negative : Bool} {significand : Nat} {start : Int} {s r : List Char} {n : Number}
    (h : readExponent negative significand start s = .ok (n, r)) : r.length ≤ s.length := by
  unfold readExponent at h
  have sign := length_takeSign_le s
  split at h
  · cases h
  · next down c rest hs =>
    rw [hs, List.length_cons] at sign
    split at h
    · have := readExponentDigits_shorter h; omega
    · cases h

theorem readExponent?_shorter {negative : Bool} {significand : Nat} {e : Int} {s r : List Char} {n : Number}
    (h : readExponent? negative significand e s = .ok (n, r)) : r.length ≤ s.length := by
  unfold readExponent? at h
  split at h
  · have := readExponent_shorter h; simp only [List.length_cons]; omega
  · have := readExponent_shorter h; simp only [List.length_cons]; omega
  · cases h; exact Nat.le_refl _

theorem readFraction_shorter {negative : Bool} {significand : Nat} {e : Int} {s r : List Char} {n : Number}
    (h : readFraction negative significand e s = .ok (n, r)) : r.length ≤ s.length := by
  unfold readFraction at h
  have ha := length_absorb_le significand s
  generalize absorb significand s = p at h ha
  obtain ⟨total, count, rest⟩ := p
  simp only at h ha
  split at h
  · have := readExponent?_shorter h
    have := length_skipDigits_le rest
    omega
  · split at h
    · cases h
    · have := readExponent?_shorter h; omega

theorem readTail_shorter {negative : Bool} {significand : Nat} {s r : List Char} {n : Number}
    (h : readTail negative significand s = .ok (n, r)) : r.length ≤ s.length := by
  unfold readTail at h
  split at h
  · have := readFraction_shorter h; simp only [List.length_cons]; omega
  · have := readExponent_shorter h; simp only [List.length_cons]; omega
  · have := readExponent_shorter h; simp only [List.length_cons]; omega
  · split at h
    · split at h <;> cases h <;> exact Nat.le_refl _
    · cases h; exact Nat.le_refl _

theorem readNumber_shorter {negative : Bool} {s r : List Char} {n : Number}
    (h : readNumber negative s = .ok (n, r)) : r.length < s.length := by
  unfold readNumber at h
  split at h
  · cases h
  · split at h
    · cases h
    · have := readTail_shorter h; simp only [List.length_cons]; omega
  · next c rest _ =>
    split at h
    · cases h
    · next d hd =>
      have ha := length_absorb_le d rest
      generalize absorb d rest = p at h ha
      obtain ⟨total, count, t⟩ := p
      simp only at h ha
      have := length_skipDigits_le t
      split at h
      · split at h
        · next heq =>
          have := readFraction_shorter h
          have := congrArg List.length heq
          simp only [List.length_cons] at *
          omega
        · have := readExponent?_shorter h
          simp only [List.length_cons] at *
          omega
      · have := readTail_shorter h; simp only [List.length_cons]; omega

/-! ## Values of the wrong kind -/

/-- Takes the value that is next, as far as a message names it. -/
def readFound (s : List Char) : Except Fault (Found × List Char) :=
  match s with
  | [] => .error (.on .noValue [])
  | 'n' :: rest => do return (.null, ← readWord ['u', 'l', 'l'] rest)
  | 't' :: rest => do return (.boolean true, ← readWord ['r', 'u', 'e'] rest)
  | 'f' :: rest => do return (.boolean false, ← readWord ['a', 'l', 's', 'e'] rest)
  | '-' :: rest => do
    let (n, rest) ← readNumber true rest
    return (← n.found rest, rest)
  | '"' :: rest => do
    let (text, rest) ← readText rest
    return (.text (String.ofList text), rest)
  | '[' :: rest => .ok (.sequence, '[' :: rest)
  | '{' :: rest => .ok (.map, '{' :: rest)
  | c :: rest =>
    if Ascii.isDigit c then do
      let (n, rest) ← readNumber false (c :: rest)
      return (← n.found rest, rest)
    else .error (.on .noValue (c :: rest))

def mismatch (wanted : String) (s : List Char) : Fault :=
  match readFound s with
  | .error f => f
  | .ok (found, rest) => .before (.wrongType found wanted) rest

/-! ## Texts, words and values that may be null -/

def readString (s : List Char) : Except Fault (String × List Char) :=
  match skipSpace s with
  | [] => .error (.on .endInValue [])
  | '"' :: rest => (readText rest).map fun (text, r) => (String.ofList text, r)
  | s => .error (mismatch "a string" s)

theorem readString_shorter {s r : List Char} {a : String} (h : readString s = .ok (a, r)) :
    r.length < s.length := by
  unfold readString at h
  split at h
  · cases h
  · next rest hs =>
    cases ht : readText rest with
    | error f => rw [ht] at h; cases h
    | ok p =>
      obtain ⟨t, r'⟩ := p
      rw [ht] at h
      cases h
      have := readText_shorter ht
      have := length_skipSpace_le s
      rw [hs, List.length_cons] at this
      omega
  · cases h

def Reader.text : Reader String := ⟨readString, readString_shorter⟩

def Number.word? (n : Number) (rest : List Char) : Except Fault Nat :=
  match n with
  | .whole n =>
    if 0 ≤ n ∧ n < 65536 then .ok n.toNat else .error (.before (.wrongValue n "u16") rest)
  | n => do .error (.before (.wrongType (← n.found rest) "u16") rest)

def readWord16 (s : List Char) : Except Fault (Nat × List Char) :=
  match skipSpace s with
  | [] => .error (.on .endInValue [])
  | c :: rest =>
    if c = '-' then do
      let (n, rest) ← readNumber true rest
      return (← n.word? rest, rest)
    else if Ascii.isDigit c then do
      let (n, rest) ← readNumber false (c :: rest)
      return (← n.word? rest, rest)
    else .error (mismatch "u16" (c :: rest))

theorem readWord16_shorter {s r : List Char} {a : Nat} (h : readWord16 s = .ok (a, r)) :
    r.length < s.length := by
  unfold readWord16 at h
  have space := length_skipSpace_le s
  have number : ∀ {negative : Bool} {t : List Char}, t.length ≤ s.length →
      (do let (n, rest) ← readNumber negative t
          return (← n.word? rest, rest)) = Except.ok (a, r) → r.length < s.length := by
    intro negative t ht h
    cases hn : readNumber negative t with
    | error f => rw [hn] at h; cases h
    | ok p =>
      obtain ⟨n, r'⟩ := p
      rw [hn] at h
      simp only [bind, Except.bind] at h
      split at h
      · cases h
      · cases h
        have := readNumber_shorter hn
        omega
  split at h
  · cases h
  · next c rest hs =>
    rw [hs, List.length_cons] at space
    split at h
    · exact number (by omega) h
    split at h
    · exact number (by simp only [List.length_cons]; omega) h
    · cases h

def Reader.word16 : Reader Nat := ⟨readWord16, readWord16_shorter⟩

def Reader.orNull {α : Type} (inner : Reader α) : Reader (Option α) where
  read s :=
    match skipSpace s with
    | 'n' :: rest => (readWord ['u', 'l', 'l'] rest).map fun r => (none, r)
    | _ => (inner.read s).map fun (a, r) => (some a, r)
  shorter := by
    intro s r a h
    split at h
    · next rest hs =>
      cases hw : readWord ['u', 'l', 'l'] rest with
      | error f => rw [hw] at h; cases h
      | ok r' =>
        rw [hw] at h
        cases h
        have := readWord_shorter hw
        have := length_skipSpace_le s
        rw [hs, List.length_cons] at this
        omega
    · cases hi : inner.read s with
      | error f => rw [hi] at h; cases h
      | ok p =>
        obtain ⟨b, r'⟩ := p
        rw [hi] at h
        cases h
        exact inner.shorter hi

/-! ## Lists and dictionaries -/

/-- What comes next between brackets: the end, or an item that starts at a place. -/
inductive Next where
  | stop (rest : List Char)
  | item (rest : List Char)
deriving DecidableEq, Repr

def nextItem (first : Bool) (s : List Char) : Except Fault Next :=
  match skipSpace s with
  | [] => .error (.on .endInList [])
  | c :: rest =>
    if c = ']' then .ok (.stop rest)
    else if first then .ok (.item (c :: rest))
    else if c = ',' then
      match skipSpace rest with
      | [] => .error (.on .endInValue [])
      | d :: rest => if d = ']' then .error (.on .trailingComma (d :: rest)) else .ok (.item (d :: rest))
    else .error (.on .noListCommaOrEnd (c :: rest))

def nextKey (first : Bool) (s : List Char) : Except Fault Next :=
  match skipSpace s with
  | [] => .error (.on .endInObject [])
  | c :: rest =>
    if c = '}' then .ok (.stop rest)
    else if first then
      if c = '"' then .ok (.item rest) else .error (.on .keyNotString (c :: rest))
    else if c = ',' then
      match skipSpace rest with
      | [] => .error (.on .endInValue [])
      | d :: rest =>
        if d = '"' then .ok (.item rest)
        else if d = '}' then .error (.on .trailingComma (d :: rest))
        else .error (.on .keyNotString (d :: rest))
    else .error (.on .noObjectCommaOrEnd (c :: rest))

def Next.rest : Next → List Char
  | .stop r => r
  | .item r => r

theorem nextItem_shorter {first : Bool} {s : List Char} {n : Next} (h : nextItem first s = .ok n) :
    n.rest.length ≤ s.length ∧ (∀ r, n = .stop r → r.length < s.length) := by
  have space := length_skipSpace_le s
  unfold nextItem at h
  split at h
  · cases h
  next c rest hs =>
  rw [hs, List.length_cons] at space
  split at h
  · cases h; exact ⟨by simp only [Next.rest]; omega, fun r hr => by cases hr; omega⟩
  split at h
  · cases h; exact ⟨by simp only [Next.rest, List.length_cons]; omega, fun r hr => by cases hr⟩
  split at h
  · have inner := length_skipSpace_le rest
    split at h
    · cases h
    next d r' hr =>
    rw [hr, List.length_cons] at inner
    split at h
    · cases h
    · cases h; exact ⟨by simp only [Next.rest, List.length_cons]; omega, fun r hr => by cases hr⟩
  · cases h

theorem nextKey_shorter {first : Bool} {s : List Char} {n : Next} (h : nextKey first s = .ok n) :
    n.rest.length < s.length := by
  have space := length_skipSpace_le s
  unfold nextKey at h
  split at h
  · cases h
  next c rest hs =>
  rw [hs, List.length_cons] at space
  split at h
  · cases h; simp only [Next.rest]; omega
  split at h
  · split at h
    · cases h; simp only [Next.rest]; omega
    · cases h
  split at h
  · have inner := length_skipSpace_le rest
    split at h
    · cases h
    next d r' hr =>
    rw [hr, List.length_cons] at inner
    split at h
    · cases h; simp only [Next.rest]; omega
    split at h <;> cases h
  · cases h

/-- Reads the items of a list, its opening bracket being taken. -/
def readItems {α : Type} (item : Reader α) (first : Bool) (s : List Char) :
    Except Fault (List α × List Char) :=
  match hn : nextItem first s with
  | .error f => .error f
  | .ok (.stop r) => .ok ([], r)
  | .ok (.item t) =>
    match hi : item.read t with
    | .error f => .error f
    | .ok (a, r) =>
      have : r.length < s.length := Nat.lt_of_lt_of_le (item.shorter hi) (nextItem_shorter hn).1
      (readItems item false r).map fun (as, r) => (a :: as, r)
termination_by s.length

theorem readItems_shorter {α : Type} {item : Reader α} {first : Bool} {s r : List Char} {as : List α}
    (h : readItems item first s = .ok (as, r)) : r.length < s.length := by
  fun_induction readItems item first s generalizing as with
  | case1 => cases h
  | case2 first s r' hn => cases h; exact (nextItem_shorter hn).2 _ rfl
  | case3 => cases h
  | case4 first s t hn a r' hi lt ih =>
    cases hr : readItems item false r' with
    | error f => rw [hr] at h; cases h
    | ok p =>
      obtain ⟨rest, r''⟩ := p
      rw [hr] at h
      cases h
      have := ih hr
      omega

def readPairs (first : Bool) (s : List Char) : Except Fault (List (String × String) × List Char) :=
  match hn : nextKey first s with
  | .error f => .error f
  | .ok (.stop r) => .ok ([], r)
  | .ok (.item t) =>
    match hk : readText t with
    | .error f => .error f
    | .ok (key, r) =>
      match hc : readColon r with
      | .error f => .error f
      | .ok u =>
        match hv : readString u with
        | .error f => .error f
        | .ok (value, r) =>
          have : r.length < s.length := by
            have := nextKey_shorter hn
            have := readText_shorter hk
            have := readColon_shorter hc
            have := readString_shorter hv
            simp only [Next.rest] at *
            omega
          (readPairs false r).map fun (pairs, r) => ((String.ofList key, value) :: pairs, r)
termination_by s.length

theorem readPairs_shorter {first : Bool} {s r : List Char} {pairs : List (String × String)}
    (h : readPairs first s = .ok (pairs, r)) : r.length < s.length := by
  fun_induction readPairs first s generalizing pairs with
  | case1 => cases h
  | case2 first s r' hn => cases h; exact nextKey_shorter hn
  | case3 => cases h
  | case4 => cases h
  | case5 => cases h
  | case6 first s t hn key r₁ hk u hc value r₂ hv lt ih =>
    cases hr : readPairs false r₂ with
    | error f => rw [hr] at h; cases h
    | ok p =>
      obtain ⟨rest, r''⟩ := p
      rw [hr] at h
      cases h
      have := ih hr
      omega

def Reader.list {α : Type} (item : Reader α) : Reader (List α) where
  read s :=
    match skipSpace s with
    | [] => .error (.on .endInValue [])
    | '[' :: rest => readItems item true rest
    | s => .error (mismatch "a sequence" s)
  shorter := by
    intro s r a h
    split at h
    · cases h
    · next rest hs =>
      have := readItems_shorter h
      have := length_skipSpace_le s
      rw [hs, List.length_cons] at this
      omega
    · cases h

/-- An object whose values are strings; of a repeated key the last value counts. -/
def Reader.dict : Reader Dict where
  read s :=
    match skipSpace s with
    | [] => .error (.on .endInValue [])
    | '{' :: rest => (readPairs true rest).map fun (pairs, r) => (Dict.ofList pairs, r)
    | s => .error (mismatch "a map" s)
  shorter := by
    intro s r a h
    split at h
    · cases h
    · next rest hs =>
      cases hp : readPairs true rest with
      | error f => rw [hp] at h; cases h
      | ok p =>
        obtain ⟨pairs, r'⟩ := p
        rw [hp] at h
        cases h
        have := readPairs_shorter hp
        have := length_skipSpace_le s
        rw [hs, List.length_cons] at this
        omega
    · cases h

/-! ## A whole text -/

def Reader.readAll {α : Type} (r : Reader α) (text : List Char) : Except Fault α :=
  match r.read text with
  | .error f => .error f
  | .ok (a, rest) =>
    match skipSpace rest with
    | [] => .ok a
    | s => .error (.on .trailingCharacters s)

end SearchRelay.Json
