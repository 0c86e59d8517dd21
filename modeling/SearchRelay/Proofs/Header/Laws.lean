import SearchRelay.Proofs.Header.Spelling

/-!
# Laws of the headers that pass

What passes is told from the headers as they came: which names, in which order,
with which values. What has passed passes again as it is, and it does not matter
whether headers pass all at once or some of them before the others come.
-/

namespace SearchRelay.Header

/-! ## Setting names -/

theorem set_set (name value value' : String) : ∀ kept : List (String × String),
    set name value' (set name value kept) = set name value' kept
  | [] => by simp [set]
  | (n, v) :: rest => by
    by_cases same : n = name
    · simp [set, same]
    · simp [set, same, set_set name value value' rest]

theorem set_comm {name other : String} (differ : other ≠ name) (value value' : String) :
    ∀ {kept : List (String × String)}, name ∈ kept.map Prod.fst →
      set name value (set other value' kept) = set other value' (set name value kept)
  | [], placed => by cases placed
  | (n, v) :: rest, placed => by
    by_cases same : n = name
    · subst same
      simp [set, Ne.symm differ]
    · have later : name ∈ rest.map Prod.fst := by simpa [Ne.symm same] using placed
      by_cases same' : n = other
      · subst same'
        simp [set, same]
      · simp [set, same, same', set_comm differ value value' later]

theorem mem_names_set_self (name value : String) (kept : List (String × String)) :
    name ∈ (set name value kept).map Prod.fst := by
  rw [names_set]
  split
  · next placed => exact placed
  · simp

theorem mem_names_set {name other value : String} {kept : List (String × String)}
    (placed : name ∈ kept.map Prod.fst) :
    name ∈ (set other value kept).map Prod.fst := by
  rw [names_set]
  split
  · exact placed
  · exact List.mem_append_left _ placed

section
variable {names : List String}

theorem set_foldl_take {name : String} (value : String) : ∀ {headers kept : List (String × String)},
    (∀ header ∈ headers, canonical? names header.1 ≠ some name) → name ∈ kept.map Prod.fst →
      set name value (headers.foldl (take names) kept) = headers.foldl (take names) (set name value kept)
  | [], _, _, _ => rfl
  | header :: headers, kept, apart, placed => by
    have later : ∀ header ∈ headers, canonical? names header.1 ≠ some name := fun other ho =>
      apart other (List.mem_cons_of_mem _ ho)
    rw [List.foldl_cons, List.foldl_cons]
    cases found : canonical? names header.1 with
    | none =>
      simp only [take, found]
      exact set_foldl_take value later placed
    | some other =>
      have differ : other ≠ name := by
        rintro rfl
        exact apart header List.mem_cons_self found
      simp only [take, found]
      rw [set_foldl_take value later (mem_names_set placed), set_comm differ value header.2 placed]

/-! ## Passing twice -/

theorem canonical?_self (apart : Apart names) {name : String} (hn : name ∈ names) :
    canonical? names name = some name :=
  (canonical?_eq_some_iff apart).2 ⟨hn, Ascii.sameFold_iff.2 rfl⟩

theorem Kept.tail {header : String × String} {rest : List (String × String)} (h : Kept names (header :: rest)) :
    Kept names rest :=
  ⟨fun name hn => h.listed name (List.mem_cons_of_mem _ hn), (List.nodup_cons.1 h.once).2⟩

theorem foldl_take_set (apart : Apart names) {name : String} (hn : name ∈ names) (value : String) :
    ∀ {more : List (String × String)}, Kept names more → ∀ kept : List (String × String),
      (set name value more).foldl (take names) kept = set name value (more.foldl (take names) kept)
  | [], _, kept => by simp [set, take, canonical?_self apart hn]
  | (n, v) :: rest, h, kept => by
    have listed := h.listed n List.mem_cons_self
    by_cases same : n = name
    · subst same
      have unspelled : ∀ header ∈ rest, canonical? names header.1 ≠ some n := by
        intro header hm found
        have inside : header.1 ∈ rest.map Prod.fst := List.mem_map_of_mem hm
        have own := canonical?_self apart (h.tail.listed header.1 inside)
        rw [found, Option.some.injEq] at own
        exact (List.nodup_cons.1 h.once).1 (own ▸ inside)
      simp only [set, if_true, List.foldl_cons, take, canonical?_self apart listed]
      rw [set_foldl_take value unspelled (mem_names_set_self n v kept), set_set]
    · simp only [set, same, if_false, List.foldl_cons]
      exact foldl_take_set apart hn value h.tail _

/-- What comes may pass by itself first. -/
theorem foldl_take_keep (apart : Apart names) (headers kept : List (String × String)) :
    (keep names headers).foldl (take names) kept = headers.foldl (take names) kept := by
  induction headers using List.reverseRecOn with
  | nil => rfl
  | append_singleton headers header ih =>
    rw [keep_snoc, List.foldl_append, List.foldl_cons, List.foldl_nil, ← ih]
    cases found : canonical? names header.1 with
    | none => simp only [take, found]
    | some name =>
      simp only [take, found]
      have listed := ((canonical?_eq_some_iff apart).1 found).1
      exact foldl_take_set apart listed header.2 (kept_keep names headers) kept

theorem keep_keep (apart : Apart names) (headers : List (String × String)) :
    keep names (keep names headers) = keep names headers := foldl_take_keep apart headers []

end

/-! ## What passes -/

/-- What passes of some headers, told from the headers as they came. -/
structure Passes (names : List String) (headers kept : List (String × String)) : Prop where
  once : (kept.map Prod.fst).Nodup
  spelled : ∀ name, name ∈ kept.map Prod.fst ↔
    name ∈ names ∧ ∃ header ∈ headers, Ascii.sameFold name header.1 = true
  value : ∀ name value, (name, value) ∈ kept ↔ name ∈ names ∧ Gives headers name value
  order : (kept.map Prod.fst).Pairwise (SpelledBefore headers)

theorem passes_keep {names : List String} (apart : Apart names) (headers : List (String × String)) :
    Passes names headers (keep names headers) where
  once := (kept_keep names headers).once
  spelled := fun _ => mem_names_keep apart
  value := fun _ _ => mem_keep_iff apart
  order := pairwise_keep apart headers

/-- What passes in either direction. What has passed passes as it is, alone or before what comes later, and what comes
later may have passed too. -/
theorem keep_laws {names : List String} (h : names ∈ [requestNames, answerNames]) :
    (∀ headers, Passes names headers (keep names headers)) ∧
    (∀ headers, keep names (keep names headers) = keep names headers) ∧
    ∀ headers more, keep names (headers ++ more) = keep names (keep names headers ++ more) ∧
      keep names (headers ++ more) = keep names (keep names headers ++ keep names more) := by
  have apart : Apart names := by
    simp only [List.mem_cons, List.not_mem_nil, or_false] at h
    rcases h with rfl | rfl
    · exact apart_requestNames
    · exact apart_answerNames
  refine ⟨passes_keep apart, keep_keep apart, fun headers more => ⟨?_, ?_⟩⟩
  · rw [keep_append, keep_append, keep_keep apart]
  · rw [keep_append, keep_append, keep_keep apart, foldl_take_keep apart]

/-- One name is spelled three times around the other. The first spelling gives the place and the last one the value,
also where the first two have passed before. -/
theorem keep_laws_spelled_thrice :
    let headers := [("etag", "a"), ("Server", "s"), ("CONTENT-TYPE", "t")]
    let more := [("ETAG", "b"), ("eTag", "c")]
    Passes answerNames (headers ++ more) [("ETag", "c"), ("Content-Type", "t")] ∧
      keep answerNames (keep answerNames headers ++ keep answerNames more) =
        [("ETag", "c"), ("Content-Type", "t")] := by
  intro headers more
  have laws := @keep_laws answerNames (by decide)
  have whole : keep answerNames (headers ++ more) = [("ETag", "c"), ("Content-Type", "t")] := by decide
  exact ⟨whole ▸ laws.1 (headers ++ more), whole ▸ (laws.2.2 headers more).2.symm⟩

end SearchRelay.Header
