import Mathlib.Tactic.IntervalCases
import SearchRelay.Text.Utf8

/-!
# Reading UTF-8 back

The machine reads each written character back and is then between characters,
so both readers invert the writer. A line feed always leaves the machine between
characters and is never part of another one, so the text of some bytes is cut at
its line feeds where the bytes are.
-/

namespace SearchRelay.Utf8

theorem toNat_ofNat_byte {n : Nat} (h : n < 256) : (UInt8.ofNat n).toNat = n := Nat.mod_eq_of_lt h

theorem toNat_ofNat_char {n : Nat} (h : n.isValidChar) : (Char.ofNat n).toNat = n := by
  rw [Char.ofNat, dif_pos h]
  rfl

/-! ## One character -/

/-- The bytes that finish a pending character. -/
inductive Finishes (c : Char) : Pending → List UInt8 → Prop where
  | last {p : Pending} {b : UInt8} : p.continues b = true → p.owed = 1 → Char.ofNat (p.push b).bits = c →
      Finishes c p [b]
  | more {p : Pending} {b : UInt8} {rest : List UInt8} : p.continues b = true → p.owed ≠ 1 →
      Finishes c (p.push b) rest → Finishes c p (b :: rest)

/-- The bytes of a character: one that is a character, or one that begins it and those that finish it. -/
inductive Spells (c : Char) : List UInt8 → Prop where
  | ascii {b : UInt8} : lead b = .ascii c → Spells c [b]
  | opens {b : UInt8} {p : Pending} {rest : List UInt8} : lead b = .opens p → Finishes c p rest →
      Spells c (b :: rest)

theorem continues_tail {p : Pending} {v : Nat} (hv : v < 64) (low : p.low.toNat ≤ v + 0x80)
    (high : v + 0x80 ≤ p.high.toNat) : p.continues (UInt8.ofNat (v + 0x80)) = true := by
  simp only [Pending.continues, Bool.and_eq_true, decide_eq_true_eq, UInt8.le_iff_toNat_le,
    toNat_ofNat_byte (show v + 0x80 < 256 by omega)]
  exact ⟨low, high⟩

theorem push_tail {v : Nat} (hv : v < 64) (p : Pending) :
    p.push (UInt8.ofNat (v + 0x80)) = ⟨p.taken + 1, p.owed - 1, 0x80, 0xBF, p.bits * 64 + v⟩ := by
  rw [Pending.push, toNat_ofNat_byte (by omega), Nat.add_sub_cancel]

theorem finishes_last {c : Char} {p : Pending} {v : Nat} (hv : v < 64) (low : p.low.toNat ≤ v + 0x80)
    (high : v + 0x80 ≤ p.high.toNat) (owed : p.owed = 1) (value : p.bits * 64 + v = c.toNat) :
    Finishes c p [UInt8.ofNat (v + 0x80)] := by
  refine .last (continues_tail hv low high) owed ?_
  rw [push_tail hv]
  simp only
  rw [value, Char.ofNat_toNat]

theorem finishes_more {c : Char} {p : Pending} {v : Nat} {rest : List UInt8} (hv : v < 64)
    (low : p.low.toNat ≤ v + 0x80) (high : v + 0x80 ≤ p.high.toNat) (owed : p.owed ≠ 1)
    (h : Finishes c ⟨p.taken + 1, p.owed - 1, 0x80, 0xBF, p.bits * 64 + v⟩ rest) :
    Finishes c p (UInt8.ofNat (v + 0x80) :: rest) := by
  refine .more (continues_tail hv low high) owed ?_
  rwa [push_tail hv]

/-- The first of three bytes. Its bounds for the second keep overlong forms and surrogates out. -/
theorem lead_three {q : Nat} (hq : q < 16) : ∃ low high : UInt8,
    lead (UInt8.ofNat (q + 0xE0)) = .opens ⟨1, 2, low, high, q⟩ ∧
    (low.toNat = if q = 0 then 0xA0 else 0x80) ∧ (high.toNat = if q = 0xD then 0x9F else 0xBF) := by
  interval_cases q <;> exact ⟨_, _, rfl, rfl, rfl⟩

/-- The first of four bytes. Its bounds for the second keep overlong forms and what is past the last character out. -/
theorem lead_four {q : Nat} (hq : q < 5) : ∃ low high : UInt8,
    lead (UInt8.ofNat (q + 0xF0)) = .opens ⟨1, 3, low, high, q⟩ ∧
    (low.toNat = if q = 0 then 0x90 else 0x80) ∧ (high.toNat = if q = 4 then 0x8F else 0xBF) := by
  interval_cases q <;> exact ⟨_, _, rfl, rfl, rfl⟩

theorem spells_encodeChar (c : Char) : Spells c (String.utf8EncodeChar c) := by
  have valid : c.toNat < 0xD800 ∨ 0xDFFF < c.toNat ∧ c.toNat < 0x110000 := c.valid
  unfold String.utf8EncodeChar
  rw [show c.val.toNat = c.toNat from rfl]
  dsimp only
  split
  · next h =>
    refine .ascii ?_
    simp only [lead, toNat_ofNat_byte (show c.toNat < 256 by omega)]
    rw [if_pos (by omega), Char.ofNat_toNat]
  split
  · next h =>
    rw [show c.toNat / 64 % 32 = c.toNat / 64 by omega]
    refine .opens (p := ⟨1, 1, 0x80, 0xBF, c.toNat / 64⟩) ?_ (finishes_last (by omega) ?_ ?_ rfl ?_)
    · simp only [lead, toNat_ofNat_byte (show c.toNat / 64 + 0xC0 < 256 by omega)]
      rw [if_neg (by omega), if_neg (by omega), if_pos (by omega), Nat.add_sub_cancel]
    · show 0x80 ≤ _
      omega
    · show _ ≤ 0xBF
      omega
    · show c.toNat / 64 * 64 + _ = _
      omega
  split
  · next h =>
    rw [show c.toNat / 4096 % 16 = c.toNat / 4096 by omega]
    obtain ⟨low, high, hl, hlow, hhigh⟩ := lead_three (q := c.toNat / 4096) (by omega)
    refine .opens hl (finishes_more (by omega) ?_ ?_ (by simp) (finishes_last (by omega) ?_ ?_ rfl ?_))
    · simp only [hlow]; split <;> omega
    · simp only [hhigh]; split <;> omega
    · show 0x80 ≤ _
      omega
    · show _ ≤ 0xBF
      omega
    · show (c.toNat / 4096 * 64 + _) * 64 + _ = _
      omega
  · next h =>
    rw [show c.toNat / 262144 % 8 = c.toNat / 262144 by omega]
    obtain ⟨low, high, hl, hlow, hhigh⟩ := lead_four (q := c.toNat / 262144) (by omega)
    refine .opens hl (finishes_more (by omega) ?_ ?_ (by simp)
      (finishes_more (by omega) ?_ ?_ (by simp) (finishes_last (by omega) ?_ ?_ rfl ?_)))
    · simp only [hlow]; split <;> omega
    · simp only [hhigh]; split <;> omega
    · show 0x80 ≤ _
      omega
    · show _ ≤ 0xBF
      omega
    · show 0x80 ≤ _
      omega
    · show _ ≤ 0xBF
      omega
    · show ((c.toNat / 262144 * 64 + _) * 64 + _) * 64 + _ = _
      omega

/-! ## Both readers invert the writer -/

theorem decodeFrom_cons (p : Option Pending) (b : UInt8) (rest : List UInt8) :
    decodeFrom p (b :: rest) = (step p b).1 ++ decodeFrom (step p b).2 rest := by
  cases p <;> rfl

theorem decodeFrom_finishes {c : Char} {p : Pending} {bytes : List UInt8} (h : Finishes c p bytes)
    (rest : List UInt8) : decodeFrom (some p) (bytes ++ rest) = c :: decodeFrom none rest := by
  induction h with
  | last hc ho hv =>
    rw [List.singleton_append, decodeFrom_cons, step, if_pos hc, if_pos ho, hv]
    rfl
  | more hc ho _ ih => rw [List.cons_append, decodeFrom_cons, step, if_pos hc, if_neg ho, List.nil_append, ih]

theorem decodeFrom_spells {c : Char} {bytes : List UInt8} (h : Spells c bytes) (rest : List UInt8) :
    decodeFrom none (bytes ++ rest) = c :: decodeFrom none rest := by
  cases h with
  | ascii h =>
    rw [List.singleton_append, decodeFrom_cons, step, start, h]
    rfl
  | opens h hf =>
    rw [List.cons_append, decodeFrom_cons, step, start, h, List.nil_append, decodeFrom_finishes hf]

theorem decodeStrictFrom_finishes {c : Char} {p : Pending} {bytes : List UInt8} (h : Finishes c p bytes)
    (before : Nat) (rest : List UInt8) : ∃ n,
      decodeStrictFrom before (some p) (bytes ++ rest) = (decodeStrictFrom n none rest).map (c :: ·) := by
  induction h with
  | @last p b hc ho hv =>
    refine ⟨before + p.taken + 1, ?_⟩
    rw [List.singleton_append, decodeStrictFrom, if_pos hc, if_pos ho, hv]
  | more hc ho _ ih =>
    obtain ⟨n, ih⟩ := ih
    refine ⟨n, ?_⟩
    rw [List.cons_append, decodeStrictFrom, if_pos hc, if_neg ho, ih]

theorem decodeStrictFrom_spells {c : Char} {bytes : List UInt8} (h : Spells c bytes) (before : Nat)
    (rest : List UInt8) : ∃ n,
      decodeStrictFrom before none (bytes ++ rest) = (decodeStrictFrom n none rest).map (c :: ·) := by
  cases h with
  | ascii h =>
    refine ⟨before + 1, ?_⟩
    rw [List.singleton_append, decodeStrictFrom, h]
  | opens h hf =>
    obtain ⟨n, hn⟩ := decodeStrictFrom_finishes hf before rest
    refine ⟨n, ?_⟩
    rw [List.cons_append, decodeStrictFrom, h]
    exact hn

@[simp] theorem encode_nil : encode [] = [] := rfl

@[simp] theorem encode_cons (c : Char) (text : List Char) :
    encode (c :: text) = String.utf8EncodeChar c ++ encode text := rfl

@[simp] theorem encode_append (a b : List Char) : encode (a ++ b) = encode a ++ encode b := List.flatMap_append

@[simp] theorem decodeLossy_encode : ∀ text : List Char, decodeLossy (encode text) = text
  | [] => rfl
  | c :: text => by
    have ih := decodeLossy_encode text
    rw [decodeLossy] at ih ⊢
    rw [encode_cons, decodeFrom_spells (spells_encodeChar c), ih]

theorem decodeStrictFrom_encode : ∀ (text : List Char) (before : Nat),
    decodeStrictFrom before none (encode text) = .ok text
  | [], _ => rfl
  | c :: text, before => by
    obtain ⟨n, hn⟩ := decodeStrictFrom_spells (spells_encodeChar c) before (encode text)
    rw [encode_cons, hn, decodeStrictFrom_encode text n]
    rfl

@[simp] theorem decode?_encode (text : List Char) : decode? (encode text) = some text := by
  rw [decode?, decodeStrict, decodeStrictFrom_encode]
  rfl

/-! ## ASCII characters and line feeds -/

/-- A pending character that no ASCII character continues and that is no line feed itself. -/
structure Pending.Begun (p : Pending) : Prop where
  low : 0x80 ≤ p.low.toNat
  bits : p.owed = 1 → 0 < p.bits
  more : 0 < p.bits ∨ 0x80 < p.low.toNat

theorem begun_of_lead {b : UInt8} {p : Pending} (h : lead b = .opens p) : p.Begun := by
  simp only [lead] at h
  split at h; · cases h
  split at h; · cases h
  split at h
  · next stray _ =>
    cases h
    exact ⟨by simp, fun _ => by simp only; omega, .inl (by simp only; omega)⟩
  split at h; · cases h; exact ⟨by simp, by simp, .inr (by simp)⟩
  split at h; · cases h; exact ⟨by simp, by simp, .inl (by simp)⟩
  split at h
  · cases h
    exact ⟨by simp, by simp, .inl (by simp only; omega)⟩
  split at h; · cases h; exact ⟨by simp, by simp, .inr (by simp)⟩
  split at h
  · cases h
    exact ⟨by simp, by simp, .inl (by simp only; omega)⟩
  split at h
  · cases h; exact ⟨by simp, by simp, .inl (by simp)⟩
  · cases h

theorem begun_push {b : UInt8} {p : Pending} (hp : p.Begun) (h : p.continues b = true) : (p.push b).Begun := by
  have low : p.low.toNat ≤ b.toNat := by
    simp only [Pending.continues, Bool.and_eq_true, decide_eq_true_eq, UInt8.le_iff_toNat_le] at h
    exact h.1
  have bits : 0 < (p.push b).bits := by
    show 0 < p.bits * 64 + (b.toNat - 0x80)
    rcases hp.more with h | h <;> omega
  exact ⟨by simp [Pending.push], fun _ => bits, .inl bits⟩

theorem not_continues_ascii {p : Pending} (hp : p.Begun) {b : UInt8} (hb : b.toNat < 0x80) : p.continues b = false := by
  have := hp.low
  simp only [Pending.continues, Bool.and_eq_false_iff, decide_eq_false_iff_not, UInt8.le_iff_toNat_le]
  left
  omega

theorem start_ascii {b : UInt8} (hb : b.toNat < 0x80) : start b = ([Char.ofNat b.toNat], none) := by
  simp [start, lead, hb]

theorem ofNat_ne_feed {n : Nat} (h : n ≠ 10) : Char.ofNat n ≠ '\n' := by
  intro hc
  by_cases hv : n.isValidChar
  · exact h ((toNat_ofNat_char hv).symm.trans (congrArg Char.toNat hc))
  · rw [Char.ofNat, dif_neg hv] at hc
    exact absurd hc (by decide)

def Sane (p : Option Pending) : Prop := ∀ q ∈ p, q.Begun

theorem sane_none : Sane none := by simp [Sane]

theorem sane_start (b : UInt8) : Sane (start b).2 := by
  intro q hq
  unfold start at hq
  split at hq
  · cases hq
  · next p h => cases hq; exact begun_of_lead h
  · cases hq

theorem sane_step {p : Option Pending} (hp : Sane p) (b : UInt8) : Sane (step p b).2 := by
  intro q hq
  cases p with
  | none => exact sane_start b q hq
  | some p =>
    simp only [step] at hq
    split at hq
    · next hc =>
      split at hq
      · cases hq
      · cases hq; exact begun_push (hp p rfl) hc
    · exact sane_start b q hq

theorem feed_not_mem_start {b : UInt8} (h : b ≠ 10) : '\n' ∉ (start b).1 := by
  unfold start
  split
  · next c hc =>
    simp only [lead] at hc
    split at hc
    · cases hc
      rw [List.mem_singleton]
      exact (ofNat_ne_feed fun hb => h (UInt8.toNat_inj.1 hb)).symm
    · repeat' (split at hc; · cases hc)
      cases hc
  · simp
  · decide

theorem feed_not_mem_step {p : Option Pending} (hp : Sane p) {b : UInt8} (h : b ≠ 10) : '\n' ∉ (step p b).1 := by
  cases p with
  | none => exact feed_not_mem_start h
  | some p =>
    simp only [step]
    split
    · next hc =>
      split
      · next ho =>
        have low := (hp p rfl).low
        have bits := (hp p rfl).bits ho
        rw [List.mem_singleton]
        refine (ofNat_ne_feed ?_).symm
        show p.bits * 64 + (b.toNat - 0x80) ≠ 10
        omega
      · simp
    · rw [List.mem_cons, not_or]
      exact ⟨by decide, feed_not_mem_start h⟩

theorem feed_not_mem_decodeFrom : ∀ {bytes : List UInt8} {p : Option Pending}, Sane p → 10 ∉ bytes →
    '\n' ∉ decodeFrom p bytes
  | [], none, _, _ => by simp [decodeFrom]
  | [], some _, _, _ => by simp [decodeFrom, replacement]
  | b :: rest, p, hp, h => by
    rw [List.mem_cons, not_or] at h
    rw [decodeFrom_cons, List.mem_append, not_or]
    exact ⟨feed_not_mem_step hp (Ne.symm h.1), feed_not_mem_decodeFrom (sane_step hp b) h.2⟩

theorem decodeFrom_ascii {x : UInt8} (hx : x.toNat < 0x80) (b : List UInt8) : ∀ (a : List UInt8) {p : Option Pending},
    Sane p → decodeFrom p (a ++ x :: b) = decodeFrom p a ++ Char.ofNat x.toNat :: decodeLossy b
  | [], none, _ => by
    rw [List.nil_append, decodeFrom_cons, step, start_ascii hx]
    rfl
  | [], some p, hp => by
    rw [List.nil_append, decodeFrom_cons, step, not_continues_ascii (hp p rfl) hx, start_ascii hx]
    rfl
  | y :: a, p, hp => by
    rw [List.cons_append, decodeFrom_cons, decodeFrom_ascii hx b a (sane_step hp y), decodeFrom_cons, List.append_assoc]

theorem decodeLossy_ascii {x : UInt8} (hx : x.toNat < 0x80) (a b : List UInt8) :
    decodeLossy (a ++ x :: b) = decodeLossy a ++ Char.ofNat x.toNat :: decodeLossy b :=
      decodeFrom_ascii hx b a sane_none

theorem decodeLossy_feed (a b : List UInt8) :
    decodeLossy (a ++ 10 :: b) = decodeLossy a ++ '\n' :: decodeLossy b := decodeLossy_ascii (by decide) a b

theorem feed_mem_of_mem_encode {text : List Char} (h : 10 ∈ encode text) : '\n' ∈ text := by
  obtain ⟨a, b, hab⟩ := List.append_of_mem h
  have whole := decodeLossy_feed a b
  rw [← hab, decodeLossy_encode] at whole
  rw [whole]
  exact List.mem_append_right _ List.mem_cons_self

theorem feed_not_mem_decodeLossy {bytes : List UInt8} (h : 10 ∉ bytes) : '\n' ∉ decodeLossy bytes :=
  feed_not_mem_decodeFrom sane_none h

/-! ## Bytes that are not UTF-8 -/

theorem replacement_mem_decodeFrom {before : Nat} {p : Option Pending} {bytes : List UInt8} {fault : Fault}
    (h : decodeStrictFrom before p bytes = .error fault) : replacement ∈ decodeFrom p bytes := by
  have text {result : Except Fault (List Char)} {c : Char} (h : result.map (c :: ·) = .error fault) :
      result = .error fault := by
    cases result <;> cases h
    rfl
  fun_induction decodeStrictFrom before p bytes with
  | case1 => cases h
  | case2 => exact List.mem_singleton_self _
  | case3 before b rest c hl ih =>
    rw [decodeFrom_cons, step, start, hl]
    exact List.mem_cons_of_mem c (ih (text h))
  | case4 before b rest p hl ih =>
    rw [decodeFrom_cons, step, start, hl]
    exact ih h
  | case5 before b rest hl =>
    rw [decodeFrom_cons, step, start, hl]
    exact List.mem_cons_self
  | case6 before p b rest hc ho ih =>
    rw [decodeFrom_cons, step, if_pos hc, if_pos ho]
    exact List.mem_cons_of_mem _ (ih (text h))
  | case7 before p b rest hc ho ih =>
    rw [decodeFrom_cons, step, if_pos hc, if_neg ho]
    exact ih h
  | case8 before p b rest hc =>
    rw [decodeFrom_cons, step, if_neg hc]
    exact List.mem_cons_self

/-- Wherever bytes stop being UTF-8, a replacement stands in their text. -/
theorem replacement_mem_decodeLossy {bytes : List UInt8} (h : decode? bytes = none) :
    replacement ∈ decodeLossy bytes := by
  cases hd : decodeStrict bytes with
  | ok text => rw [decode?, hd] at h; cases h
  | error fault => exact replacement_mem_decodeFrom hd

end SearchRelay.Utf8
