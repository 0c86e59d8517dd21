import SearchRelay.Proofs.Text.Utf8

/-!
# The order of bytes

Texts are ordered by their code points. That is the order of their bytes, because
the bytes of a character are never the first bytes of another one.
-/

namespace SearchRelay.Utf8

theorem ofNat_lt_ofNat {m n : Nat} (hn : n < 256) (h : m < n) : UInt8.ofNat m < UInt8.ofNat n := by
  rw [UInt8.lt_iff_toNat_lt, toNat_ofNat_byte hn, toNat_ofNat_byte (by omega)]
  exact h

theorem cons_ofNat_lt {m n : Nat} {x y : List UInt8} (hn : n < 256)
    (h : m < n ∨ m = n ∧ x < y) : UInt8.ofNat m :: x < UInt8.ofNat n :: y := by
  rw [List.cons_lt_cons_iff]
  rcases h with h | ⟨rfl, h⟩
  · exact .inl (ofNat_lt_ofNat hn h)
  · exact .inr ⟨rfl, h⟩

theorem encodeChar_lt_encodeChar {c d : Char} (h : c < d) (x y : List UInt8) :
    String.utf8EncodeChar c ++ x < String.utf8EncodeChar d ++ y := by
  have lt : c.val.toNat < d.val.toNat := h
  have bound : d.val.toNat < 0x110000 := by
    have : d.toNat < 0xD800 ∨ 0xDFFF < d.toNat ∧ d.toNat < 0x110000 := d.valid
    show d.toNat < 0x110000
    omega
  unfold String.utf8EncodeChar
  dsimp only
  generalize c.val.toNat = m at lt
  generalize d.val.toNat = n at lt bound
  -- a character of fewer bytes has a smaller first byte; of as many, the first bytes that differ decide
  split
  · split
    · exact cons_ofNat_lt (by omega) (.inl lt)
    split
    · exact cons_ofNat_lt (by omega) (.inl (by omega))
    split <;> exact cons_ofNat_lt (by omega) (.inl (by omega))
  rw [if_neg (by omega : ¬n ≤ 0x7F)]
  split
  · split
    · rcases Nat.lt_or_ge (m / 64) (n / 64) with q | q
      · exact cons_ofNat_lt (by omega) (.inl (by omega))
      · exact cons_ofNat_lt (by omega) (.inr ⟨by omega, cons_ofNat_lt (by omega) (.inl (by omega))⟩)
    split <;> exact cons_ofNat_lt (by omega) (.inl (by omega))
  rw [if_neg (by omega : ¬n ≤ 0x7FF)]
  split
  · split
    · rcases Nat.lt_or_ge (m / 4096) (n / 4096) with q | q
      · exact cons_ofNat_lt (by omega) (.inl (by omega))
      refine cons_ofNat_lt (by omega) (.inr ⟨by omega, ?_⟩)
      rcases Nat.lt_or_ge (m / 64) (n / 64) with r | r
      · exact cons_ofNat_lt (by omega) (.inl (by omega))
      · exact cons_ofNat_lt (by omega) (.inr ⟨by omega, cons_ofNat_lt (by omega) (.inl (by omega))⟩)
    · exact cons_ofNat_lt (by omega) (.inl (by omega))
  rw [if_neg (by omega : ¬n ≤ 0xFFFF)]
  rcases Nat.lt_or_ge (m / 262144) (n / 262144) with q | q
  · exact cons_ofNat_lt (by omega) (.inl (by omega))
  refine cons_ofNat_lt (by omega) (.inr ⟨by omega, ?_⟩)
  rcases Nat.lt_or_ge (m / 4096) (n / 4096) with r | r
  · exact cons_ofNat_lt (by omega) (.inl (by omega))
  refine cons_ofNat_lt (by omega) (.inr ⟨by omega, ?_⟩)
  rcases Nat.lt_or_ge (m / 64) (n / 64) with s | s
  · exact cons_ofNat_lt (by omega) (.inl (by omega))
  · exact cons_ofNat_lt (by omega) (.inr ⟨by omega, cons_ofNat_lt (by omega) (.inl (by omega))⟩)

theorem encode_lt_encode : ∀ {a b : List Char}, a < b → encode a < encode b
  | [], [], h => absurd h (by simp)
  | [], d :: b, _ => by
    have : 0 < (String.utf8EncodeChar d).length := by rw [String.length_utf8EncodeChar]; exact Char.utf8Size_pos d
    rw [encode_nil, encode_cons]
    cases he : String.utf8EncodeChar d with
    | nil => rw [he] at this; cases this
    | cons x rest => exact List.nil_lt_cons _ _
  | c :: a, [], h => absurd h (by simp)
  | c :: a, d :: b, h => by
    rcases List.cons_lt_cons_iff.1 h with lt | ⟨rfl, lt⟩
    · exact encodeChar_lt_encodeChar lt _ _
    · exact List.append_left_lt (encode_lt_encode lt)

theorem encode_lt_encode_iff {a b : String} : encode a.toList < encode b.toList ↔ a < b := by
  constructor
  · intro h
    rcases Std.lt_trichotomy a b with lt | rfl | gt
    · exact lt
    · exact absurd h (List.lt_irrefl _)
    · exact absurd (encode_lt_encode gt) (List.lt_asymm h)
  · intro h
    exact encode_lt_encode h

theorem encode_le_encode_iff {a b : String} : encode a.toList ≤ encode b.toList ↔ a ≤ b := by
  rw [← List.not_lt, ← String.not_lt, encode_lt_encode_iff]

end SearchRelay.Utf8
