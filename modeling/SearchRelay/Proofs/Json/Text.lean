import SearchRelay.Json.Reader
import SearchRelay.Json.Writer
import SearchRelay.Proofs.Result

/-!
# Reading written strings and numbers back

What is proved of a reader is that it takes what the writer wrote off the front
of a text and leaves whatever stands behind it. Every character inside a written
string reads back as itself and is none of the controls.
-/

namespace SearchRelay.Json

/-! ## One character of a string -/

theorem hexValue?_hexLower : ∀ n < 16, Ascii.hexValue? (Ascii.hexLower n) = some n := by decide

theorem le_toNat_hexLower : ∀ n < 16, 0x20 ≤ (Ascii.hexLower n).toNat := by decide

theorem readUnit_low {n : Nat} (h : n < 0x100) (rest : List Char) :
    readUnit ('0' :: '0' :: Ascii.hexLower (n / 16) :: Ascii.hexLower (n % 16) :: rest) = .ok (n, rest) := by
  have zero : Ascii.hexValue? '0' = some 0 := rfl
  simp only [readUnit, zero, hexValue?_hexLower (n / 16) (by omega), hexValue?_hexLower (n % 16) (by omega)]
  rw [show (((0 * 16 + 0) * 16 + n / 16) * 16 + n % 16) = n by omega]

theorem readEscape_short {c x : Char} (h : shortEscape? c = some x) (rest : List Char) :
    readEscape (c :: rest) = .ok (x, rest) := by
  simp only [readEscape, h]

theorem readEscape_low {c : Char} (h : c.toNat < 0x20) (rest : List Char) :
    readEscape ('u' :: '0' :: '0' :: Ascii.hexLower (c.toNat / 16) :: Ascii.hexLower (c.toNat % 16) :: rest) =
      .ok (c, rest) := by
  have none : shortEscape? 'u' = none := rfl
  simp only [readEscape, none, if_pos, readUnit_low (show c.toNat < 0x100 by omega), bind, Except.bind]
  rw [if_neg (by omega), if_neg (by omega), Char.ofNat_toNat]
  rfl

theorem readText_escape {s rest : List Char} {c : Char} (h : readEscape s = .ok (c, rest)) :
    readText ('\\' :: s) = (readText rest).map fun p => (c :: p.1, p.2) := by
  rw [readText]
  split
  · next hf => rw [h] at hf; cases hf
  · next hf => rw [h] at hf; cases hf; rfl

theorem readText_plain {c : Char} (quote : c ≠ '"') (slash : c ≠ '\\') (h : 0x20 ≤ c.toNat) (rest : List Char) :
    readText (c :: rest) = (readText rest).map fun p => (c :: p.1, p.2) := by
  rw [readText.eq_4 _ _ quote slash, if_neg (by omega)]

theorem readText_escapeChar (c : Char) (rest : List Char) :
    readText (escapeChar c ++ rest) = (readText rest).map fun p => (c :: p.1, p.2) := by
  unfold escapeChar
  split
  iterate 7 exact readText_escape (readEscape_short rfl rest)
  next quote slash _ _ _ _ _ =>
  split
  · next h => exact readText_escape (readEscape_low h rest)
  · next h => exact readText_plain quote slash (by omega) rest

theorem printable_escapeChar {c x : Char} (h : x ∈ escapeChar c) : 0x20 ≤ x.toNat := by
  have short : ∀ {y : Char}, 0x20 ≤ y.toNat → x ∈ ['\\', y] → 0x20 ≤ x.toNat := by
    intro y hy h
    rcases List.mem_cons.1 h with rfl | h
    · decide
    · rwa [List.mem_singleton.1 h]
  unfold escapeChar at h
  split at h
  iterate 7 exact short (by decide) h
  split at h
  · next hc =>
    have high := le_toNat_hexLower (c.toNat / 16) (by omega)
    have low := le_toNat_hexLower (c.toNat % 16) (by omega)
    simp only [List.mem_cons, List.not_mem_nil, or_false] at h
    rcases h with rfl | rfl | rfl | rfl | rfl | rfl
    iterate 4 decide
    · exact high
    · exact low
  · next hc =>
    rw [List.mem_singleton] at h
    rw [h]
    exact Nat.le_of_not_lt hc

/-! ## Strings -/

theorem readText_flatMap_escapeChar (rest : List Char) : ∀ text : List Char,
    readText (text.flatMap escapeChar ++ '"' :: rest) = .ok (text, rest)
  | [] => by rw [List.flatMap_nil, List.nil_append, readText]
  | c :: text => by
    rw [List.flatMap_cons, List.append_assoc, readText_escapeChar, readText_flatMap_escapeChar rest text]
    rfl

theorem writeText_eq (text : String) (rest : List Char) :
    writeText text ++ rest = '"' :: (text.toList.flatMap escapeChar ++ '"' :: rest) := by
  simp only [writeText, List.cons_append, List.append_assoc, List.nil_append]

theorem skipSpace_cons {c : Char} (h : isSpace c = false) (rest : List Char) : skipSpace (c :: rest) = c :: rest := by
  rw [skipSpace, List.dropWhile_cons, h]
  rfl

theorem readString_writeText (text : String) (rest : List Char) :
    readString (writeText text ++ rest) = .ok (text, rest) := by
  rw [writeText_eq]
  simp only [readString, skipSpace_cons (show isSpace '"' = false from rfl), readText_flatMap_escapeChar,
    Except.map, String.ofList_toList]

theorem printable_writeText {text : String} {x : Char} (h : x ∈ writeText text) : 0x20 ≤ x.toNat := by
  simp only [writeText, List.cons_append, List.mem_cons, List.mem_append, List.mem_flatMap,
    List.not_mem_nil, or_false] at h
  rcases h with rfl | ⟨c, _, h⟩ | rfl
  · decide
  · exact printable_escapeChar h
  · decide

/-! ## Whole numbers -/

def EndsNumber (rest : List Char) : Prop := ∃ c ∈ rest.head?, c = ',' ∨ c = '}' ∨ c = ']'

theorem toNat_of_isDigit {c : Char} (h : c.isDigit = true) : 48 ≤ c.toNat ∧ c.toNat ≤ 57 := by
  simp only [Char.isDigit, Bool.and_eq_true, decide_eq_true_eq] at h
  exact h

theorem isDigit_ascii {c : Char} (h : c.isDigit = true) : Ascii.isDigit c = true := by
  simp only [Ascii.isDigit, Bool.and_eq_true, decide_eq_true_eq]
  exact toNat_of_isDigit h

theorem digit?_of_isDigit {c : Char} (h : c.isDigit = true) : digit? c = some (c.toNat - 48) := by
  rw [digit?, if_pos (isDigit_ascii h)]

theorem isSpace_of_isDigit {c : Char} (h : c.isDigit = true) : isSpace c = false := by
  have bounds := toNat_of_isDigit h
  simp only [isSpace, Bool.or_eq_false_iff, beq_eq_false_iff_ne]
  refine ⟨⟨⟨?_, ?_⟩, ?_⟩, ?_⟩ <;> rintro rfl <;> exact absurd bounds (by decide)

theorem digit?_endsNumber {rest : List Char} (h : EndsNumber rest) :
    ∃ c r, rest = c :: r ∧ digit? c = none ∧ Ascii.isDigit c = false ∧ c ≠ '.' ∧ c ≠ 'e' ∧
      c ≠ 'E' := by
  cases rest with
  | nil =>
    obtain ⟨c, hc, _⟩ := h
    cases hc
  | cons c r =>
    obtain ⟨x, hx, h⟩ := h
    obtain rfl : c = x := Option.some.inj hx
    refine ⟨c, r, rfl, ?_⟩
    rcases h with rfl | rfl | rfl <;> decide

theorem absorb_digits {rest : List Char} (hr : EndsNumber rest) : ∀ {digits : List Char} {m : Nat},
    (∀ c ∈ digits, c.isDigit = true) → Nat.ofDigitChars 10 digits m ≤ 18446744073709551615 →
      absorb m (digits ++ rest) = (Nat.ofDigitChars 10 digits m, digits.length, rest)
  | [], m, _, _ => by
    obtain ⟨c, r, rfl, hc, _⟩ := digit?_endsNumber hr
    simp only [List.nil_append, absorb, hc, Nat.ofDigitChars_nil, List.length_nil]
  | c :: digits, m, hd, hm => by
    rw [Nat.ofDigitChars_cons] at hm ⊢
    have step : 10 * m + (c.toNat - '0'.toNat) = m * 10 + (c.toNat - 48) := by
      rw [Nat.mul_comm]
      rfl
    have bound : m * 10 + (c.toNat - 48) ≤ 18446744073709551615 := by
      refine Nat.le_trans ?_ hm
      rw [Nat.ofDigitChars_eq_ofDigitChars_zero, step]
      exact Nat.le_trans (Nat.le_mul_of_pos_left _ (Nat.pow_pos (by decide))) (Nat.le_add_right _ _)
    rw [step] at hm ⊢
    simp only [List.cons_append, absorb, digit?_of_isDigit (hd c List.mem_cons_self), if_pos bound,
      absorb_digits hr (fun x hx => hd x (List.mem_cons_of_mem c hx)) hm, List.length_cons]

theorem toDigits_pos (n : Nat) (h : 0 < n) : ∃ c digits, Nat.toDigits 10 n = c :: digits ∧ c ≠ '0' := by
  induction n using Nat.strongRecOn with
  | _ n ih =>
    rw [Nat.toDigits_eq_if (by decide)]
    split
    · next small =>
      refine ⟨n.digitChar, [], rfl, ?_⟩
      have nonzero : ∀ d < 10, 0 < d → d.digitChar ≠ '0' := by decide
      exact nonzero n small h
    · obtain ⟨c, digits, hd, hc⟩ := ih (n / 10) (by omega) (by omega)
      exact ⟨c, digits ++ [(n % 10).digitChar], by rw [hd, List.cons_append], hc⟩

theorem readTail_whole (n : Nat) {rest : List Char} (hr : EndsNumber rest) :
    readTail false n rest = .ok (.whole n, rest) := by
  obtain ⟨c, r, rfl, _, _, point, small, big⟩ := digit?_endsNumber hr
  rw [readTail]
  · rfl
  · intro t ht
    exact point (List.cons.inj ht).1
  · intro t ht
    exact small (List.cons.inj ht).1
  · intro t ht
    exact big (List.cons.inj ht).1

theorem readNumber_writeNat {n : Nat} (hn : n ≤ 18446744073709551615) {rest : List Char} (hr : EndsNumber rest) :
    readNumber false (writeNat n ++ rest) = .ok (.whole n, rest) := by
  have stop : startsDigit rest = false := by
    obtain ⟨c, r, rfl, _, hc, _⟩ := digit?_endsNumber hr
    exact hc
  by_cases zero : n = 0
  · subst zero
    show readNumber false ('0' :: rest) = _
    simp only [readNumber, stop, Bool.false_eq_true, if_false, readTail_whole 0 hr]
  · obtain ⟨c, digits, hd, hc⟩ := toDigits_pos n (Nat.pos_of_ne_zero zero)
    have all : ∀ x ∈ c :: digits, x.isDigit = true := by
      intro x hx
      rw [← hd] at hx
      exact Nat.isDigit_of_mem_toDigits (by decide) (by decide) hx
    have value : Nat.ofDigitChars 10 digits (c.toNat - 48) = n := by
      have whole : Nat.ofDigitChars 10 (Nat.toDigits 10 n) 0 = n := Nat.ofDigitChars_ten_toDigits
      rwa [hd, Nat.ofDigitChars_cons, Nat.mul_zero, Nat.zero_add] at whole
    have taken := absorb_digits hr (fun x hx => all x (List.mem_cons_of_mem c hx)) (value.symm ▸ hn)
    rw [value] at taken
    rw [writeNat, hd, List.cons_append, readNumber]
    · simp only [digit?_of_isDigit (all c List.mem_cons_self), taken, stop, Bool.false_eq_true, if_false,
        readTail_whole n hr]
    · intro h
      exact hc h

theorem word?_whole {n : Nat} (h : n < 65536) (rest : List Char) : Number.word? (.whole n) rest = .ok n := by
  have word : (0 : Int) ≤ n ∧ (n : Int) < 65536 := by omega
  rw [Number.word?, if_pos word, Int.toNat_natCast]

theorem readWord16_writeNat {n : Nat} (hn : n < 65536) {rest : List Char} (hr : EndsNumber rest) :
    readWord16 (writeNat n ++ rest) = .ok (n, rest) := by
  have number := readNumber_writeNat (Nat.le_trans (Nat.le_of_lt hn) (by decide)) hr
  obtain ⟨c, digits, hd⟩ := List.exists_cons_of_ne_nil (Nat.toDigits_ne_nil (n := n) (b := 10))
  have digit : c.isDigit = true := by
    refine Nat.isDigit_of_mem_toDigits (b := 10) (n := n) (by decide) (by decide) ?_
    rw [hd]
    exact List.mem_cons_self
  have minus : c ≠ '-' := by
    rintro rfl
    cases digit
  rw [writeNat, hd, List.cons_append] at number ⊢
  simp only [readWord16, skipSpace_cons (isSpace_of_isDigit digit), if_neg minus, if_pos (isDigit_ascii digit)]
  exact Result.bind_eq_ok.2 ⟨_, number, Result.bind_eq_ok.2 ⟨n, word?_whole hn rest, rfl⟩⟩

theorem printable_writeNat {n : Nat} {x : Char} (h : x ∈ writeNat n) : 0x20 ≤ x.toNat := by
  have bounds := toNat_of_isDigit (Nat.isDigit_of_mem_toDigits (by decide) (by decide) h)
  exact Nat.le_trans (by decide) bounds.1

end SearchRelay.Json
