import Mathlib.Data.List.Induction
import Mathlib.Data.List.Nodup
import SearchRelay.Dict

/-!
# Looking up

What a dictionary holds under a key after a value has been put there, or after a
whole list of pairs has been put in. Where no key stands twice, a pair is in a
list exactly if its value is found under its key.
-/

namespace SearchRelay

theorem lookup_cons_eq (key k v : String) (rest : List (String × String)) :
    ((k, v) :: rest).lookup key = if key = k then some v else rest.lookup key := by
  rw [List.lookup_cons]
  by_cases same : key = k
  · simp [same]
  · simp [same, beq_false_of_ne same]

theorem mem_iff_lookup {key value : String} : ∀ {pairs : List (String × String)}, (pairs.map Prod.fst).Nodup →
    ((key, value) ∈ pairs ↔ pairs.lookup key = some value)
  | [], _ => by simp
  | (k, v) :: rest, once => by
    rw [List.map_cons, List.nodup_cons] at once
    rw [lookup_cons_eq, List.mem_cons, Prod.mk.injEq]
    by_cases same : key = k
    · have absent : (k, value) ∉ rest := by
        intro h
        apply once.1
        exact List.mem_map.2 ⟨_, h, rfl⟩
      simp [same, absent, eq_comm]
    · simp [same, mem_iff_lookup once.2]

theorem lookup_eq_none_iff {key : String} : ∀ {pairs : List (String × String)},
    pairs.lookup key = none ↔ key ∉ pairs.map Prod.fst
  | [] => by simp
  | (k, v) :: rest => by
    rw [lookup_cons_eq, List.map_cons, List.mem_cons]
    by_cases same : key = k
    · simp [same]
    · simp [same, @lookup_eq_none_iff key rest]

theorem filter_key_of_mem {key value : String} : ∀ {pairs : List (String × String)}, (pairs.map Prod.fst).Nodup →
    (key, value) ∈ pairs → pairs.filter (fun pair => pair.1 = key) = [(key, value)]
  | [], _, h => by cases h
  | (k, v) :: rest, once, h => by
    rw [List.map_cons, List.nodup_cons] at once
    rw [List.filter_cons]
    by_cases same : k = key
    · subst same
      have absent : ∀ pair ∈ rest, ¬pair.1 = k := by
        intro pair hp equal
        apply once.1
        exact List.mem_map.2 ⟨pair, hp, equal⟩
      have first : value = v := by
        rcases List.mem_cons.1 h with first | later
        · exact congrArg Prod.snd first
        · exact absurd rfl (absent _ later)
      simpa [first] using absent
    · have later : (key, value) ∈ rest := by simpa [Ne.symm same] using h
      simpa [same] using filter_key_of_mem once.2 later

namespace Dict

theorem lookup_insertEntry (key value other : String) : ∀ entries : List (String × String),
    (insertEntry key value entries).lookup other = if other = key then some value else entries.lookup other
  | [] => by rw [insertEntry, lookup_cons_eq]
  | (k, v) :: rest => by
    unfold insertEntry
    split
    · rw [lookup_cons_eq]
    split
    · next equal =>
      rw [lookup_cons_eq, lookup_cons_eq, equal]
      by_cases same : other = k <;> simp [same]
    · next distinct =>
      rw [lookup_cons_eq, lookup_cons_eq, lookup_insertEntry key value other rest]
      by_cases same : other = key
      · simp [same, distinct]
      · simp [same]

theorem get?_insert (d : Dict) (key value other : String) :
    (d.insert key value).get? other = if other = key then some value else d.get? other :=
  lookup_insertEntry key value other d.entries

theorem get?_ofList (pairs : List (String × String)) (key : String) :
    (ofList pairs).get? key = pairs.reverse.lookup key := by
  induction pairs using List.reverseRecOn with
  | nil => rfl
  | append_singleton pairs pair ih =>
    have last : ofList (pairs ++ [pair]) = (ofList pairs).insert pair.1 pair.2 := by simp [ofList]
    rw [last, get?_insert, ih, List.reverse_append, List.reverse_singleton, List.singleton_append]
    exact (lookup_cons_eq key pair.1 pair.2 pairs.reverse).symm

theorem get?_ofList_eq_some_iff {pairs : List (String × String)} (once : (pairs.map Prod.fst).Nodup)
    {key value : String} :
    (ofList pairs).get? key = some value ↔ (key, value) ∈ pairs := by
  have once' : (pairs.reverse.map Prod.fst).Nodup := by rwa [List.map_reverse, List.nodup_reverse]
  rw [get?_ofList, ← mem_iff_lookup once', List.mem_reverse]

end Dict

end SearchRelay
