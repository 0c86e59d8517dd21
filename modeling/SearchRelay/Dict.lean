/-!
# Dictionaries

Texts under distinct texts, kept in ascending order of the keys, so that two
dictionaries with the same members are equal. The order of strings is that of
their code points, which is the order of their UTF-8 bytes.
-/

namespace SearchRelay

/-- Puts a value under a key, in place of the one that stands there. -/
def Dict.insertEntry (key value : String) : List (String × String) → List (String × String)
  | [] => [(key, value)]
  | (k, v) :: rest =>
    if key < k then (key, value) :: (k, v) :: rest
    else if key = k then (key, value) :: rest
    else (k, v) :: Dict.insertEntry key value rest

theorem Dict.fst_mem_insertEntry {key value : String} {p : String × String} :
    ∀ {entries : List (String × String)}, p ∈ Dict.insertEntry key value entries →
      p.1 = key ∨ p ∈ entries
  | [], h => by simp only [insertEntry, List.mem_singleton] at h; subst h; exact .inl rfl
  | (k, v) :: rest, h => by
    unfold insertEntry at h
    split at h
    · rcases List.mem_cons.1 h with h | h
      · subst h; exact .inl rfl
      · exact .inr h
    split at h
    · rcases List.mem_cons.1 h with h | h
      · subst h; exact .inl rfl
      · exact .inr (List.mem_cons_of_mem _ h)
    · rcases List.mem_cons.1 h with h | h
      · subst h; exact .inr List.mem_cons_self
      · exact (fst_mem_insertEntry h).imp id (List.mem_cons_of_mem _)

theorem Dict.sorted_insertEntry (key value : String) :
    ∀ {entries : List (String × String)}, entries.Pairwise (·.1 < ·.1) →
      (Dict.insertEntry key value entries).Pairwise (·.1 < ·.1)
  | [], _ => by simp [insertEntry]
  | (k, v) :: rest, h => by
    have hk := List.pairwise_cons.1 h
    unfold insertEntry
    split
    · next lt =>
      refine List.pairwise_cons.2 ⟨fun p hp => ?_, h⟩
      rcases List.mem_cons.1 hp with hp | hp
      · subst hp; exact lt
      · exact String.lt_trans lt (hk.1 p hp)
    split
    · next eq => subst eq; exact List.pairwise_cons.2 ⟨hk.1, hk.2⟩
    · next nlt ne =>
      refine List.pairwise_cons.2 ⟨fun p hp => ?_, sorted_insertEntry key value hk.2⟩
      rcases fst_mem_insertEntry hp with hp | hp
      · rw [hp]
        exact Decidable.byContradiction fun h' =>
          ne (String.le_antisymm (String.not_lt.1 h') (String.not_lt.1 nlt))
      · exact hk.1 p hp

/-- Distinct keys in ascending order, each with a value. -/
@[ext] structure Dict where
  entries : List (String × String)
  sorted : entries.Pairwise (·.1 < ·.1)
deriving DecidableEq

namespace Dict

def empty : Dict := ⟨[], .nil⟩

instance : Inhabited Dict := ⟨empty⟩

def isEmpty (d : Dict) : Bool := d.entries.isEmpty

def get? (d : Dict) (key : String) : Option String := d.entries.lookup key

def insert (d : Dict) (key value : String) : Dict :=
  ⟨insertEntry key value d.entries, sorted_insertEntry key value d.sorted⟩

/-- The dictionary of a list of pairs; of equal keys the last one counts. -/
def ofList (pairs : List (String × String)) : Dict :=
  pairs.foldl (fun d p => d.insert p.1 p.2) empty

end Dict

end SearchRelay
