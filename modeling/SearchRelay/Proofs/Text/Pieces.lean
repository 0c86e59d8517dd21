import Mathlib.Data.Bool.AllAny
import Mathlib.Data.List.TakeDrop

/-!
# Texts in pieces

A text that is joined of pieces, or cut into them, holds what the pieces hold and
the separators between them, and no piece that was cut holds a separator.
-/

namespace SearchRelay

theorem span_append {α : Type} {p : α → Bool} {a b : List α} (ha : ∀ c ∈ a, p c = true)
    (hb : ∀ c ∈ b.head?, p c = false) :
    (a ++ b).span p = (a, b) := by
  rw [List.span_eq_takeWhile_dropWhile, List.takeWhile_append_of_pos ha, List.dropWhile_append_of_pos ha]
  cases b with
  | nil => simp
  | cons c b => simp [hb c rfl]

theorem append_of_span {α : Type} {p : α → Bool} {text a b : List α} (h : text.span p = (a, b)) :
    text = a ++ b ∧ ∀ c ∈ b.head?, p c = false := by
  rw [List.span_eq_takeWhile_dropWhile] at h
  cases h
  refine ⟨List.takeWhile_append_dropWhile.symm, fun c hc => ?_⟩
  have ends := List.head?_dropWhile_not p text
  rw [Option.mem_def.1 hc] at ends
  exact ends

/-! ## Joined and cut -/

theorem mem_intercalate {c separator : Char} : ∀ {pieces : List (List Char)}, c ∈ [separator].intercalate pieces →
    c = separator ∨ ∃ piece ∈ pieces, c ∈ piece
  | [], h => by simp at h
  | [piece], h => by simpa using Or.inr h
  | piece :: next :: rest, h => by
    rw [List.intercalate_cons_cons, List.mem_append, List.mem_append, List.mem_singleton] at h
    rcases h with (h | h) | h
    · exact .inr ⟨piece, List.mem_cons_self, h⟩
    · exact .inl h
    · exact (mem_intercalate h).imp_right fun ⟨piece, hl, hc⟩ => ⟨piece, List.mem_cons_of_mem _ hl, hc⟩

theorem flatMap_cons_eq_intercalate {separator : Char} : ∀ {pieces : List (List Char)}, pieces ≠ [] →
    pieces.flatMap (separator :: ·) = separator :: [separator].intercalate pieces
  | [], h => absurd rfl h
  | [piece], _ => by simp
  | piece :: next :: rest, _ => by
    rw [List.flatMap_cons, flatMap_cons_eq_intercalate (List.cons_ne_nil next rest)]
    simp [List.intercalate_cons_cons]

theorem mem_splitOn {a : Char} {piece : List Char} : ∀ {text : List Char}, piece ∈ text.splitOn a →
    piece ⊆ text ∧ a ∉ piece
  | [], h => by
    rw [List.splitOn_nil, List.mem_singleton] at h
    rw [h]
    exact ⟨List.Subset.refl _, List.not_mem_nil⟩
  | c :: text, h => by
    rw [List.splitOn_cons_eq_if_modifyHead] at h
    split at h
    · rcases List.mem_cons.1 h with rfl | h
      · exact ⟨List.nil_subset _, List.not_mem_nil⟩
      · exact (mem_splitOn h).imp_left (List.subset_cons_of_subset _)
    · next other =>
      cases hs : text.splitOn a with
      | nil => exact absurd hs (List.splitOn_ne_nil a text)
      | cons first others =>
        have inner {piece} (hp : piece ∈ first :: others) : piece ⊆ text ∧ a ∉ piece := mem_splitOn (hs ▸ hp)
        rw [hs, List.modifyHead_cons] at h
        rcases List.mem_cons.1 h with rfl | h
        · obtain ⟨sub, free⟩ := inner List.mem_cons_self
          refine ⟨List.cons_subset_cons _ sub, ?_⟩
          rw [List.mem_cons, not_or]
          exact ⟨fun he => other (by simp [he]), free⟩
        · exact (inner (List.mem_cons_of_mem _ h)).imp_left (List.subset_cons_of_subset _)

/-! ## Pieces that are read one by one -/

theorem length_of_mapM {α β : Type} {f : α → Option β} : ∀ {l : List α} {r : List β}, l.mapM f = some r →
    r.length = l.length
  | [], r, h => by
    cases h
    rfl
  | a :: l, r, h => by
    rw [List.mapM_cons] at h
    obtain ⟨x, _, h⟩ := Option.bind_eq_some_iff.1 h
    obtain ⟨rest, hr, h⟩ := Option.bind_eq_some_iff.1 h
    cases h
    rw [List.length_cons, List.length_cons, length_of_mapM hr]

theorem exists_of_mem_mapM {α β : Type} {f : α → Option β} {b : β} : ∀ {l : List α} {r : List β},
    l.mapM f = some r → b ∈ r → ∃ a ∈ l, f a = some b
  | [], r, h, hb => by
    rw [List.mapM_nil] at h
    cases h
    cases hb
  | a :: l, r, h, hb => by
    rw [List.mapM_cons] at h
    obtain ⟨x, hx, h⟩ := Option.bind_eq_some_iff.1 h
    obtain ⟨rest, hr, h⟩ := Option.bind_eq_some_iff.1 h
    cases h
    rcases List.mem_cons.1 hb with rfl | hb
    · exact ⟨a, List.mem_cons_self, hx⟩
    · obtain ⟨a', ha', hf⟩ := exists_of_mem_mapM hr hb
      exact ⟨a', List.mem_cons_of_mem _ ha', hf⟩

end SearchRelay
