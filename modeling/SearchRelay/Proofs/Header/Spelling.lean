import SearchRelay.Proofs.Dict
import SearchRelay.Proofs.Header

/-!
# Spellings of a name

Headers may spell one name in several ways and more than once. Of the headers
that spell a name on the list the last one gives the value and the first one the
place. Both are said of the headers as they came.
-/

namespace SearchRelay

namespace Ascii

theorem sameFold_iff {a b : String} : sameFold a b = true ↔ a.toList.map lower = b.toList.map lower := by
  simp [sameFold]

theorem find?_sameFold {α : Type} {all : List α} {label : α → String}
    (apart : ∀ a ∈ all, ∀ b ∈ all, sameFold (label a) (label b) = true → a = b) {name : String} {a : α} :
    all.find? (fun x => sameFold (label x) name) = some a ↔ a ∈ all ∧ sameFold (label a) name = true := by
  constructor
  · intro h
    exact ⟨List.mem_of_find?_eq_some h, List.find?_some (p := fun x => sameFold (label x) name) h⟩
  · intro ⟨ha, spelled⟩
    cases h : all.find? (fun x => sameFold (label x) name) with
    | none => exact absurd spelled (List.find?_eq_none.1 h a ha)
    | some b =>
      have spelled' := List.find?_some (p := fun x => sameFold (label x) name) h
      have common : sameFold (label b) (label a) = true :=
        sameFold_iff.2 ((sameFold_iff.1 spelled').trans (sameFold_iff.1 spelled).symm)
      rw [apart b (List.mem_of_find?_eq_some h) a ha common]

end Ascii

namespace Header

def spells (name : String) (header : String × String) : Bool := Ascii.sameFold name header.1

theorem sameFold_of_find? {headers : List (String × String)} {name : String} {header : String × String}
    (h : headers.find? (spells name) = some header) : Ascii.sameFold name header.1 = true :=
  List.find?_some (p := spells name) h

/-- Names of which no two have a spelling in common. -/
def Apart (names : List String) : Prop := ∀ a ∈ names, ∀ b ∈ names, Ascii.sameFold a b = true → a = b

theorem apart_requestNames : Apart requestNames := by unfold Apart; decide

theorem apart_answerNames : Apart answerNames := by unfold Apart; decide

section
variable {names : List String}

theorem canonical?_eq_some_iff (apart : Apart names) {key name : String} :
    canonical? names key = some name ↔ name ∈ names ∧ Ascii.sameFold name key = true :=
  @Ascii.find?_sameFold _ names id apart key name

theorem keep_append (names : List String) (headers more : List (String × String)) :
    keep names (headers ++ more) = more.foldl (take names) (keep names headers) := by
  rw [keep, List.foldl_append, ← keep]

theorem keep_snoc (names : List String) (headers : List (String × String)) (header : String × String) :
    keep names (headers ++ [header]) = take names (keep names headers) header := keep_append names headers [header]

/-! ## Values -/

theorem lookup_set (name value other : String) : ∀ kept : List (String × String),
    (set name value kept).lookup other = if other = name then some value else kept.lookup other
  | [] => by rw [set, lookup_cons_eq]
  | (n, v) :: rest => by
    unfold set
    split
    · next equal =>
      rw [lookup_cons_eq, lookup_cons_eq, equal]
      by_cases same : other = name <;> simp [same]
    · next distinct =>
      rw [lookup_cons_eq, lookup_cons_eq, lookup_set name value other rest]
      by_cases same : other = name
      · simp [same, Ne.symm distinct]
      · simp [same]

/-- Whether the last header that spells a name has the value. -/
def Gives (headers : List (String × String)) (name value : String) : Prop :=
  ∃ before key after, headers = before ++ (key, value) :: after ∧ Ascii.sameFold name key = true ∧
    ∀ header ∈ after, spells name header = false

theorem gives_iff {headers : List (String × String)} {name value : String} :
    Gives headers name value ↔ ∃ key, headers.reverse.find? (spells name) = some (key, value) := by
  constructor
  · rintro ⟨before, key, after, rfl, spelled, unspelled⟩
    refine ⟨key, List.find?_eq_some_iff_append.2 ⟨spelled, after.reverse, before.reverse, by simp, ?_⟩⟩
    intro header hm
    simp [unspelled header (List.mem_reverse.1 hm)]
  · intro ⟨key, found⟩
    obtain ⟨spelled, after, before, split, unspelled⟩ := List.find?_eq_some_iff_append.1 found
    refine ⟨before.reverse, key, after.reverse, ?_, spelled, ?_⟩
    · simpa using congrArg List.reverse split
    · intro header hm
      simpa using unspelled header (List.mem_reverse.1 hm)

theorem lookup_keep (apart : Apart names) {name : String} (hn : name ∈ names) (headers : List (String × String)) :
    (keep names headers).lookup name = (headers.reverse.find? (spells name)).map Prod.snd := by
  induction headers using List.reverseRecOn with
  | nil => rfl
  | append_singleton headers header ih =>
    rw [keep_snoc, take, List.reverse_append, List.reverse_singleton, List.singleton_append, List.find?_cons]
    by_cases spelled : spells name header = true
    · have found := (canonical?_eq_some_iff apart).2 ⟨hn, spelled⟩
      simp [found, spelled, lookup_set]
    · cases found : canonical? names header.1 with
      | none => simp [spelled, ih]
      | some other =>
        have differ : name ≠ other := by
          rintro rfl
          exact spelled ((canonical?_eq_some_iff apart).1 found).2
        simp [spelled, lookup_set, differ, ih]

theorem mem_names_keep (apart : Apart names) {name : String} {headers : List (String × String)} :
    name ∈ (keep names headers).map Prod.fst ↔
      name ∈ names ∧ ∃ header ∈ headers, spells name header = true := by
  have spelled (hn : name ∈ names) : name ∈ (keep names headers).map Prod.fst ↔
      ∃ header ∈ headers, spells name header = true := by
    rw [← not_iff_not, ← lookup_eq_none_iff, lookup_keep apart hn]
    simp
  constructor
  · intro h
    have hn := (kept_keep names headers).listed name h
    exact ⟨hn, (spelled hn).1 h⟩
  · intro ⟨hn, h⟩
    exact (spelled hn).2 h

/-- What passes under a name is what the headers give it. -/
theorem mem_keep_iff (apart : Apart names) {name value : String} {headers : List (String × String)} :
    (name, value) ∈ keep names headers ↔ name ∈ names ∧ Gives headers name value := by
  rw [mem_iff_lookup (kept_keep names headers).once, gives_iff]
  constructor
  · intro h
    have hn : name ∈ names := by
      apply (kept_keep names headers).listed
      exact List.mem_map.2 ⟨_, (mem_iff_lookup (kept_keep names headers).once).2 h, rfl⟩
    rw [lookup_keep apart hn] at h
    obtain ⟨⟨key, v⟩, found, rfl⟩ := Option.map_eq_some_iff.1 h
    exact ⟨hn, key, found⟩
  · intro ⟨hn, key, found⟩
    rw [lookup_keep apart hn, found]
    rfl

theorem filter_spells_keep (apart : Apart names) {name value : String} {headers : List (String × String)}
    (h : (name, value) ∈ keep names headers) : (keep names headers).filter (spells name) = [(name, value)] := by
  have kept := kept_keep names headers
  have only : ∀ header ∈ keep names headers, spells name header = decide (header.1 = name) := by
    intro header hm
    rw [Bool.eq_iff_iff, decide_eq_true_eq]
    constructor
    · intro spelled
      have listed := kept.listed header.1 (List.mem_map_of_mem hm)
      exact (apart name (kept.listed name (List.mem_map_of_mem h)) header.1 listed spelled).symm
    · intro same
      exact Ascii.sameFold_iff.2 (by rw [same])
  rw [List.filter_congr only]
  exact filter_key_of_mem kept.once h

/-! ## Places -/

def SpelledBefore (headers : List (String × String)) (a b : String) : Prop :=
  ∃ before header after, headers = before ++ header :: after ∧ spells a header = true ∧
    ∀ other ∈ before ++ [header], spells b other = false

theorem SpelledBefore.append {headers : List (String × String)} {a b : String} (h : SpelledBefore headers a b)
    (more : List (String × String)) : SpelledBefore (headers ++ more) a b := by
  obtain ⟨before, header, after, rfl, spelled, unspelled⟩ := h
  exact ⟨before, header, after ++ more, by simp, spelled, unspelled⟩

/-- The names that pass stand in the order in which they are first spelled. -/
theorem pairwise_keep (apart : Apart names) (headers : List (String × String)) :
    ((keep names headers).map Prod.fst).Pairwise (SpelledBefore headers) := by
  induction headers using List.reverseRecOn with
  | nil => exact .nil
  | append_singleton headers header ih =>
    have old : ((keep names headers).map Prod.fst).Pairwise (SpelledBefore (headers ++ [header])) :=
      ih.imp fun h => h.append [header]
    rw [keep_snoc, take]
    cases found : canonical? names header.1 with
    | none => exact old
    | some name =>
      rw [names_set]
      split
      · exact old
      · next new =>
        have unspelled : ∀ other ∈ headers, spells name other = false := by
          intro other ho
          rw [← Bool.not_eq_true]
          intro spelled
          apply new
          exact (mem_names_keep apart).2 ⟨((canonical?_eq_some_iff apart).1 found).1, other, ho, spelled⟩
        refine List.pairwise_append.2 ⟨old, List.pairwise_singleton _ _, ?_⟩
        intro first hf last hl
        rw [List.mem_singleton.1 hl]
        obtain ⟨_, other, ho, spelled⟩ := (mem_names_keep apart).1 hf
        obtain ⟨before, after, rfl⟩ := List.append_of_mem ho
        refine ⟨before, other, after ++ [header], by simp, spelled, ?_⟩
        intro x hx
        apply unspelled
        rw [List.append_cons]
        exact List.mem_append_left after hx

end

end Header

end SearchRelay
