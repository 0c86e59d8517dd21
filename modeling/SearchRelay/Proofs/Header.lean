import SearchRelay.Header
import SearchRelay.Proofs.Text.Utf8

/-!
# What headers pass

A header that passes has a name of the list, and no two have the same. Whether a
value is valid can be seen on its bytes: those of a character beyond ASCII are
all above 0x7F.
-/

namespace SearchRelay

namespace Utf8

theorem encodeChar_of_ascii {c : Char} (h : c.toNat ≤ 0x7F) : String.utf8EncodeChar c = [UInt8.ofNat c.toNat] := by
  unfold String.utf8EncodeChar
  rw [if_pos (show c.val.toNat ≤ 0x7F from h)]
  rfl

theorem high_of_mem_encodeChar {c : Char} {b : UInt8} (h : 0x7F < c.toNat) (hb : b ∈ String.utf8EncodeChar c) :
    0x80 ≤ b.toNat := by
  have tail {n : Nat} (low : 0x80 ≤ n) (high : n < 256) : 0x80 ≤ (UInt8.ofNat n).toNat := by
    rwa [toNat_ofNat_byte high]
  have wide : ¬c.val.toNat ≤ 0x7F := Nat.not_le.2 h
  unfold String.utf8EncodeChar at hb
  rw [if_neg wide] at hb
  split at hb
  · simp only [List.mem_cons, List.not_mem_nil, or_false] at hb
    rcases hb with rfl | rfl <;> exact tail (by omega) (by omega)
  split at hb
  · simp only [List.mem_cons, List.not_mem_nil, or_false] at hb
    rcases hb with rfl | rfl | rfl <;> exact tail (by omega) (by omega)
  · simp only [List.mem_cons, List.not_mem_nil, or_false] at hb
    rcases hb with rfl | rfl | rfl | rfl <;> exact tail (by omega) (by omega)

end Utf8

namespace Header

/-! ## Values -/

def IsValueByte (b : UInt8) : Prop := (b = 9 ∨ 0x20 ≤ b) ∧ b ≠ 0x7F

theorem isValueByte_iff {b : UInt8} : IsValueByte b ↔ (b.toNat = 9 ∨ 0x20 ≤ b.toNat) ∧ b.toNat ≠ 0x7F := by
  rw [IsValueByte, UInt8.le_iff_toNat_le, ne_eq, ← UInt8.toNat_inj, ← UInt8.toNat_inj]
  rfl

theorem isValueChar_iff_toNat {c : Char} :
    isValueChar c = true ↔ (c.toNat = 9 ∨ 0x20 ≤ c.toNat) ∧ c.toNat ≠ 0x7F := by
  have tab : c = '\t' ↔ c.toNat = 9 := ⟨fun h => h ▸ rfl, fun h => Char.ext (UInt32.toNat_inj.1 h)⟩
  simp only [isValueChar, Bool.or_eq_true, Bool.and_eq_true, beq_iff_eq, decide_eq_true_eq, bne_iff_ne, tab]
  omega

theorem isValueChar_iff {c : Char} : isValueChar c = true ↔ ∀ b ∈ String.utf8EncodeChar c, IsValueByte b := by
  rw [isValueChar_iff_toNat]
  rcases Nat.lt_or_ge 0x7F c.toNat with wide | ascii
  · have bytes : ∀ b ∈ String.utf8EncodeChar c, IsValueByte b := by
      intro b hb
      have := Utf8.high_of_mem_encodeChar wide hb
      rw [isValueByte_iff]
      omega
    exact ⟨fun _ => bytes, fun _ => by omega⟩
  · rw [Utf8.encodeChar_of_ascii ascii, List.forall_mem_singleton, isValueByte_iff,
      Utf8.toNat_ofNat_byte (by omega)]

theorem isValidValue_iff {value : String} : isValidValue value = true ↔
    ∀ b ∈ Utf8.encode value.toList, IsValueByte b := by
  simp only [isValidValue, List.all_eq_true, isValueChar_iff, Utf8.encode, List.mem_flatMap]
  exact ⟨fun h b ⟨c, hc, hb⟩ => h c hc b hb, fun h c hc b hb => h b ⟨c, hc, hb⟩⟩

/-! ## Names -/

theorem names_set (name value : String) : ∀ kept : List (String × String), (set name value kept).map Prod.fst =
    if name ∈ kept.map Prod.fst then kept.map Prod.fst else kept.map Prod.fst ++ [name]
  | [] => by simp [set]
  | (n, v) :: rest => by
    unfold set
    split
    · next same => simp [same]
    · next other =>
      have last : (name = n ∨ name ∈ rest.map Prod.fst) ↔ name ∈ rest.map Prod.fst :=
        or_iff_right (Ne.symm other)
      simp only [List.map_cons, names_set name value rest, List.mem_cons, last]
      split <;> rfl

/-- Headers as they pass: each name is on the list and occurs once. -/
structure Kept (names : List String) (headers : List (String × String)) : Prop where
  listed : ∀ name ∈ headers.map Prod.fst, name ∈ names
  once : (headers.map Prod.fst).Nodup

theorem Kept.nil (names : List String) : Kept names [] := ⟨by simp, List.nodup_nil⟩

theorem Kept.set {names : List String} {kept : List (String × String)} {name : String} (h : Kept names kept)
    (hn : name ∈ names) (value : String) : Kept names (Header.set name value kept) := by
  constructor <;> rw [names_set] <;> split
  · exact h.listed
  · intro n hm
    rcases List.mem_append.1 hm with hm | hm
    · exact h.listed n hm
    · rwa [List.mem_singleton.1 hm]
  · exact h.once
  · next new =>
    refine List.nodup_append.2 ⟨h.once, by simp, fun n hm m hs same => new ?_⟩
    rwa [← List.mem_singleton.1 hs, ← same]

theorem Kept.take {names : List String} {kept : List (String × String)} (h : Kept names kept)
    (header : String × String) : Kept names (Header.take names kept header) := by
  unfold Header.take
  split
  · next hn => exact h.set (List.mem_of_find?_eq_some hn) _
  · exact h

theorem kept_keep (names : List String) (headers : List (String × String)) : Kept names (keep names headers) :=
  List.foldlRecOn headers _ (Kept.nil names) fun _ h header _ => h.take header

/-! ## Headers that do not pass -/

def isListed (names : List String) (header : String × String) : Bool := (canonical? names header.1).isSome

theorem isListed_eq (names : List String) (header : String × String) :
    isListed names header = names.any fun name => Ascii.sameFold name header.1 := by
  rw [Bool.eq_iff_iff, isListed, canonical?, List.find?_isSome, List.any_eq_true]

theorem take_of_unlisted {names : List String} {header : String × String} (h : isListed names header = false)
    (kept : List (String × String)) : take names kept header = kept := by
  rw [isListed, Option.isSome_eq_false_iff, Option.isNone_iff_eq_none] at h
  simp only [take, h]

theorem keep_filter (names : List String) (headers : List (String × String)) :
    keep names (headers.filter (isListed names)) = keep names headers := by
  have step : ∀ kept header, (if isListed names header = true then take names kept header else kept) =
      take names kept header := by
    intro kept header
    split
    · rfl
    · next unlisted => exact (take_of_unlisted (Bool.eq_false_iff.2 unlisted) kept).symm
  simp only [keep, List.foldl_filter, step]

end Header

end SearchRelay
