import SearchRelay.Json.Record
import SearchRelay.Proofs.Json.Text

/-!
# Reading written objects back

A written object is taken apart one member at a time: the comma before it if it
is not the first, its key, the colon, its value. A dictionary reads back as
itself because its keys come in ascending order.
-/

namespace SearchRelay

namespace Dict

theorem insertEntry_last {key value : String} : ∀ {entries : List (String × String)},
    (∀ p ∈ entries, p.1 < key) → insertEntry key value entries = entries ++ [(key, value)]
  | [], _ => rfl
  | (k, v) :: rest, h => by
    have before : k < key := h (k, v) List.mem_cons_self
    have distinct : key ≠ k := by
      rintro rfl
      exact String.lt_irrefl _ before
    rw [insertEntry, if_neg (String.lt_asymm before), if_neg distinct,
      insertEntry_last fun p hp => h p (List.mem_cons_of_mem _ hp), List.cons_append]

theorem entries_foldl_insert : ∀ {pairs : List (String × String)} {d : Dict},
    (d.entries ++ pairs).Pairwise (·.1 < ·.1) →
      (pairs.foldl (fun d p => d.insert p.1 p.2) d).entries = d.entries ++ pairs
  | [], d, _ => by rw [List.foldl_nil, List.append_nil]
  | (key, value) :: pairs, d, h => by
    have last : (d.insert key value).entries = d.entries ++ [(key, value)] :=
      insertEntry_last fun p hp => (List.pairwise_append.1 h).2.2 p hp (key, value) List.mem_cons_self
    rw [List.foldl_cons, entries_foldl_insert, last, List.append_assoc, List.singleton_append]
    rw [last, List.append_assoc, List.singleton_append]
    exact h

theorem ofList_entries (d : Dict) : ofList d.entries = d :=
  Dict.ext (entries_foldl_insert (d := empty) d.sorted)

end Dict

namespace Json

/-! ## The text of the members -/

/-- What is written of an object after its opening bracket, or after some of its members. -/
def membersText (first : Bool) : List (String × List Char) → List Char
  | [] => ['}']
  | member :: rest => (if first then [] else [',']) ++ writeMember member ++ membersText false rest

theorem writeObject_eq (members : List (String × List Char)) :
    writeObject members = '{' :: membersText true members := by
  have text : ∀ members : List (String × List Char),
      [','].intercalate (members.map writeMember) ++ ['}'] = membersText true members := by
    intro members
    induction members with
    | nil => rfl
    | cons member rest ih =>
      cases rest with
      | nil => simp [membersText]
      | cons next rest =>
        rw [List.map_cons, List.map_cons, List.intercalate_cons_cons, ← List.map_cons, List.append_assoc, ih]
        simp [membersText]
  rw [writeObject, List.cons_append, text]

theorem endsNumber_membersText {members : List (String × List Char)} (rest : List Char) :
    EndsNumber (membersText false members ++ rest) := by
  cases members with
  | nil => exact ⟨'}', rfl, .inr (.inl rfl)⟩
  | cons member members => exact ⟨',', rfl, .inl rfl⟩

theorem nextKey_stop (first : Bool) (rest : List Char) : nextKey first ('}' :: rest) = .ok (.stop rest) := rfl

theorem nextKey_member (first : Bool) (rest : List Char) :
    nextKey first ((if first then [] else [',']) ++ '"' :: rest) = .ok (.item rest) := by
  cases first <;> rfl

theorem readColon_colon (rest : List Char) : readColon (':' :: rest) = .ok rest := rfl

theorem nextKey_membersText (first : Bool) (key : String) (value : List Char) (members : List (String × List Char))
    (rest : List Char) : ∃ t, nextKey first (membersText first ((key, value) :: members) ++ rest) = .ok (.item t) ∧
      readText t = .ok (key.toList, ':' :: (value ++ (membersText false members ++ rest))) := by
  refine ⟨_, ?_, readText_flatMap_escapeChar _ key.toList⟩
  rw [membersText, writeMember, List.append_assoc, List.append_assoc, List.append_assoc, writeText_eq,
    nextKey_member, List.cons_append]

/-! ## Dictionaries -/

theorem readPairs_stop {first : Bool} {s rest : List Char} (h : nextKey first s = .ok (.stop rest)) :
    readPairs first s = .ok ([], rest) := by
  rw [readPairs]
  split
  · next hn => rw [h] at hn; cases hn
  · next hn => rw [h] at hn; cases hn; rfl
  · next hn => rw [h] at hn; cases hn

theorem readPairs_item {first : Bool} {s t r u r' key : List Char} {value : String}
    (next : nextKey first s = .ok (.item t)) (text : readText t = .ok (key, r)) (colon : readColon r = .ok u)
    (string : readString u = .ok (value, r')) :
    readPairs first s = (readPairs false r').map fun p => ((String.ofList key, value) :: p.1, p.2) := by
  rw [readPairs]
  split
  · next h => rw [next] at h; cases h
  · next h => rw [next] at h; cases h
  next h =>
  rw [next] at h
  cases h
  split
  · next h => rw [text] at h; cases h
  next h =>
  rw [text] at h
  cases h
  split
  · next h => rw [colon] at h; cases h
  next h =>
  rw [colon] at h
  cases h
  split
  · next h => rw [string] at h; cases h
  next h =>
  rw [string] at h
  cases h
  rfl

theorem readPairs_membersText (rest : List Char) : ∀ (first : Bool) (pairs : List (String × String)),
    readPairs first (membersText first (pairs.map fun (key, value) => (key, writeText value)) ++ rest) =
      .ok (pairs, rest)
  | first, [] => readPairs_stop (nextKey_stop first rest)
  | first, (key, value) :: pairs => by
    obtain ⟨t, next, text⟩ := nextKey_membersText first key (writeText value)
      (pairs.map fun (key, value) => (key, writeText value)) rest
    rw [List.map_cons, readPairs_item next text (readColon_colon _) (readString_writeText value _),
      readPairs_membersText rest false pairs, String.ofList_toList]
    rfl

theorem read_dict (d : Dict) (rest : List Char) : Reader.dict.read (writeDict d ++ rest) = .ok (d, rest) := by
  rw [writeDict, writeObject_eq]
  simp only [Reader.dict, List.cons_append, skipSpace_cons (show isSpace '{' = false from rfl),
    readPairs_membersText, Except.map, Dict.ofList_entries]

theorem read_orNull_dict (d : Dict) (rest : List Char) :
    (Reader.orNull .dict).read (writeDict d ++ rest) = .ok (some d, rest) := by
  have dict := read_dict d rest
  rw [writeDict, writeObject_eq] at dict ⊢
  simp only [Reader.orNull, List.cons_append, skipSpace_cons (show isSpace '{' = false from rfl)] at dict ⊢
  rw [dict]
  rfl

/-! ## Records -/

section
variable {σ : Type} {record : Record σ}

theorem Field.read_of {α : Type} {name : String} {required : Bool} {inner : Reader α} {filled : σ → Bool}
    {fill : σ → α → σ} {x : σ} {s r : List Char} {a : α} (h : inner.read s = .ok (a, r)) :
    (Field.of name required inner filled fill).read x s = .ok (fill x a, r) := by
  simp only [Field.of, h, Except.map]

theorem Record.readMembers_stop {first : Bool} {x : σ} {s rest : List Char}
    (h : nextKey first s = .ok (.stop rest))
    (full : record.fields.find? (fun f => f.required && !f.filled x) = none) :
    record.readMembers first x s = .ok (x, rest) := by
  rw [Record.readMembers]
  split
  · next hn => rw [h] at hn; cases hn
  · next hn =>
    rw [h] at hn
    cases hn
    rw [full]
  · next hn => rw [h] at hn; cases hn

theorem Record.readMembers_field {field : Field σ} {first : Bool} {x y : σ} {s t r u r' key : List Char}
    (next : nextKey first s = .ok (.item t)) (text : readText t = .ok (key, r))
    (found : record.fields.find? (fun f => f.name == String.ofList key) = some field)
    (fresh : field.filled x = false) (colon : readColon r = .ok u) (value : field.read x u = .ok (y, r')) :
    record.readMembers first x s = record.readMembers false y r' := by
  rw [Record.readMembers]
  split
  · next h => rw [next] at h; cases h
  · next h => rw [next] at h; cases h
  next h =>
  rw [next] at h
  cases h
  split
  · next h => rw [text] at h; cases h
  next h =>
  rw [text] at h
  cases h
  dsimp only
  rw [found]
  dsimp only
  rw [fresh, if_neg Bool.false_ne_true]
  split
  · next h => rw [colon] at h; cases h
  next h =>
  rw [colon] at h
  cases h
  split
  · next h => rw [value] at h; cases h
  next h =>
  rw [value] at h
  cases h
  rfl

theorem Record.readMembers_membersText {field : Field σ} {first : Bool} {x y : σ} {key : String} {value : List Char}
    {members : List (String × List Char)} {rest : List Char}
    (found : record.fields.find? (fun f => f.name == key) = some field) (fresh : field.filled x = false)
    (read : field.read x (value ++ (membersText false members ++ rest)) = .ok (y, membersText false members ++ rest)) :
    record.readMembers first x (membersText first ((key, value) :: members) ++ rest) =
      record.readMembers false y (membersText false members ++ rest) := by
  obtain ⟨t, next, text⟩ := nextKey_membersText first key value members rest
  refine Record.readMembers_field next text ?_ fresh (readColon_colon _) read
  rwa [String.ofList_toList]

theorem Record.readAll_writeObject {x y : σ} {members : List (String × List Char)}
    (h : record.readMembers true x (membersText true members) = .ok (y, [])) :
    (record.reader x).readAll (writeObject members) = .ok y := by
  simp only [writeObject_eq, Reader.readAll, Record.reader, skipSpace_cons (show isSpace '{' = false from rfl), h]
  rfl

end

/-! ## No controls -/

theorem printable_membersText : ∀ {first : Bool} {members : List (String × List Char)},
    (∀ member ∈ members, ∀ x ∈ member.2, 0x20 ≤ x.toNat) →
      ∀ x ∈ membersText first members, 0x20 ≤ x.toNat
  | first, [], _, x, h => by
    rw [membersText, List.mem_singleton] at h
    rw [h]
    decide
  | first, member :: rest, hm, x, h => by
    rw [membersText, List.append_assoc, List.mem_append, List.mem_append] at h
    rcases h with h | h | h
    · cases first
      · rw [if_neg Bool.false_ne_true, List.mem_singleton] at h
        rw [h]
        decide
      · cases h
    · rw [writeMember, List.mem_append, List.mem_cons] at h
      rcases h with h | rfl | h
      · exact printable_writeText h
      · decide
      · exact hm member List.mem_cons_self x h
    · exact printable_membersText (fun m hr => hm m (List.mem_cons_of_mem _ hr)) x h

theorem printable_writeObject {members : List (String × List Char)}
    (hm : ∀ member ∈ members, ∀ x ∈ member.2, 0x20 ≤ x.toNat) {x : Char} (h : x ∈ writeObject members) :
    0x20 ≤ x.toNat := by
  rw [writeObject_eq, List.mem_cons] at h
  rcases h with rfl | h
  · decide
  · exact printable_membersText hm x h

theorem printable_writeDict {d : Dict} {x : Char} (h : x ∈ writeDict d) : 0x20 ≤ x.toNat := by
  refine printable_writeObject (fun member hm y hy => ?_) h
  obtain ⟨pair, _, rfl⟩ := List.mem_map.1 hm
  exact printable_writeText hy

end Json

end SearchRelay
