import SearchRelay.Json.Reader

/-!
# Records

A record is written as an object, its members in any order and unknown ones
passed over, or as a list of its fields from the first on. A field may stand
once; one that is not there keeps what the record starts with.
-/

namespace SearchRelay.Json

structure Field (σ : Type) where
  name : String
  required : Bool
  filled : σ → Bool
  read : σ → List Char → Except Fault (σ × List Char)
  shorter : ∀ {s r : List Char} {x y : σ}, read x s = .ok (y, r) → r.length < s.length

def Field.of {σ α : Type} (name : String) (required : Bool) (inner : Reader α) (filled : σ → Bool)
    (fill : σ → α → σ) : Field σ where
  name := name
  required := required
  filled := filled
  read x s := (inner.read s).map fun (a, r) => (fill x a, r)
  shorter := by
    intro s r x y h
    cases hi : inner.read s with
    | error f => rw [hi] at h; cases h
    | ok p =>
      obtain ⟨a, r'⟩ := p
      rw [hi] at h
      cases h
      exact inner.shorter hi

/-- The name of a kind of record in messages, and its fields in order. -/
structure Record (σ : Type) where
  title : String
  fields : List (Field σ)

/-! ## Objects -/

/-- A fault in what a record means is placed behind its closing bracket, if that is next. -/
def settle (cause : Cause) (s : List Char) : Fault :=
  match skipSpace s with
  | '}' :: rest => .before cause rest
  | s => .before cause s

/-- Reads the members of an object, its opening bracket being taken. -/
def Record.readMembers {σ : Type} (record : Record σ) (first : Bool) (x : σ) (s : List Char) :
    Except Fault (σ × List Char) :=
  match hn : nextKey first s with
  | .error f => .error f
  | .ok (.stop r) =>
    match record.fields.find? fun f => f.required && !f.filled x with
    | some f => .error (.before (.missingField f.name) r)
    | none => .ok (x, r)
  | .ok (.item t) =>
    match hk : readText t with
    | .error f => .error f
    | .ok (key, r) =>
      have taken : r.length < s.length := Nat.lt_trans (readText_shorter hk) (nextKey_shorter hn)
      match record.fields.find? fun f => f.name == String.ofList key with
      | some field =>
        if field.filled x then .error (settle (.duplicateField field.name) r)
        else
          match hc : readColon r with
          | .error f => .error f
          | .ok u =>
            match hv : field.read x u with
            | .error f => .error f
            | .ok (y, r') =>
              have : r'.length < s.length := Nat.lt_trans (field.shorter hv) (Nat.lt_trans (readColon_shorter hc) taken)
              record.readMembers false y r'
      | none =>
        match hc : readColon r with
        | .error f => .error f
        | .ok u =>
          match hv : skipValue u with
          | .error f => .error f
          | .ok r' =>
            have : r'.length < s.length :=
              Nat.lt_trans (skipValue_shorter hv) (Nat.lt_trans (readColon_shorter hc) taken)
            record.readMembers false x r'
termination_by s.length

theorem Record.readMembers_shorter {σ : Type} {record : Record σ} {first : Bool} {x y : σ} {s r : List Char}
    (h : record.readMembers first x s = .ok (y, r)) : r.length < s.length := by
  fun_induction Record.readMembers record first x s with
  | case1 => cases h
  | case2 => cases h
  | case3 first x s r' hn _ => cases h; exact nextKey_shorter hn
  | case4 => cases h
  | case5 => cases h
  | case6 => cases h
  | case7 => cases h
  | case8 first x s t hn key r₁ hk taken field hf hx u hc z r₂ hv lt ih => have := ih h; omega
  | case9 => cases h
  | case10 => cases h
  | case11 first x s t hn key r₁ hk taken hf u hc r₂ hv lt ih => have := ih h; omega

/-! ## Lists -/

def closeList (s : List Char) : Except Fault (List Char) :=
  match skipSpace s with
  | [] => .error (.on .endInList [])
  | ']' :: rest => .ok rest
  | ',' :: rest =>
    match skipSpace rest with
    | ']' :: r => .error (.on .trailingComma (']' :: r))
    | r => .error (.on .trailingCharacters r)
  | s => .error (.on .trailingCharacters s)

def Record.readPositions {σ : Type} (record : Record σ) :
    List (Field σ) → Nat → σ → List Char → Except Fault (σ × List Char)
  | [], _, x, s => (closeList s).map fun r => (x, r)
  | field :: fields, n, x, s =>
    match nextItem (n == 0) s with
    | .error f => .error f
    | .ok (.stop r) =>
      if (field :: fields).any (·.required) then
        .error (.before (.wrongLength n s!"{record.title} with {record.fields.length} elements") r)
      else .ok (x, r)
    | .ok (.item t) =>
      match field.read x t with
      | .error f => .error f
      | .ok (y, r) => record.readPositions fields (n + 1) y r

theorem closeList_shorter {s r : List Char} (h : closeList s = .ok r) : r.length < s.length := by
  unfold closeList at h
  split at h
  · cases h
  · next rest hs =>
    cases h
    have := length_skipSpace_le s
    rw [hs, List.length_cons] at this
    omega
  · split at h <;> cases h
  · cases h

theorem Record.readPositions_shorter {σ : Type} {record : Record σ} {fields : List (Field σ)} :
    ∀ {n : Nat} {x y : σ} {s r : List Char}, record.readPositions fields n x s = .ok (y, r) →
      r.length < s.length := by
  induction fields with
  | nil =>
    intro n x y s r h
    unfold Record.readPositions at h
    cases hc : closeList s with
    | error f => rw [hc] at h; cases h
    | ok r' => rw [hc] at h; cases h; exact closeList_shorter hc
  | cons field fields ih =>
    intro n x y s r h
    unfold Record.readPositions at h
    split at h
    · cases h
    · next r' hn =>
      split at h
      · cases h
      · cases h; exact (nextItem_shorter hn).2 _ rfl
    · next t hn =>
      split at h
      · cases h
      · next z r' hr =>
        have := ih h
        have := field.shorter hr
        have := (nextItem_shorter hn).1
        simp only [Next.rest] at this
        omega

/-- Reads a record, in either shape, into what it starts with. -/
def Record.reader {σ : Type} (record : Record σ) (start : σ) : Reader σ where
  read s :=
    match skipSpace s with
    | [] => .error (.on .endInValue [])
    | '[' :: rest => record.readPositions record.fields 0 start rest
    | '{' :: rest => record.readMembers true start rest
    | s => .error (mismatch record.title s)
  shorter := by
    intro s r x h
    have space := length_skipSpace_le s
    split at h
    · cases h
    · next rest hs =>
      have := record.readPositions_shorter h
      rw [hs, List.length_cons] at space
      omega
    · next rest hs =>
      have := record.readMembers_shorter h
      rw [hs, List.length_cons] at space
      omega
    · cases h

end SearchRelay.Json
