import Mathlib.Data.Bool.AllAny
import Mathlib.Tactic.IntervalCases
import SearchRelay.Proofs.Json.Grammar
import SearchRelay.Proofs.Result

/-!
# What is passed over

The skipper takes a value of the grammar off the front of a text and nothing
else. Only a number can go on into what follows it, so only there does it matter
that a value is followed by a blank, a comma or a bracket.
-/

namespace SearchRelay.Json

/-! ## Blanks and digits -/

theorem isSpace_iff {c : Char} : isSpace c = true ↔ c ∈ [' ', '\n', '\t', '\r'] := by
  simp [isSpace, or_assoc]

def Solid (s : List Char) : Prop := ∃ c t, s = c :: t ∧ isSpace c = false

theorem skipSpace_append {blank s : List Char} (hb : Blank blank) (hs : Solid s) : skipSpace (blank ++ s) = s := by
  obtain ⟨c, t, rfl, hc⟩ := hs
  rw [skipSpace, List.dropWhile_append_of_pos fun x hx => isSpace_iff.2 (hb hx), List.dropWhile_cons, hc]
  rfl

theorem skipSpace_blank {blank : List Char} (hb : Blank blank) : skipSpace blank = [] := by
  rw [← List.append_nil blank, skipSpace, List.dropWhile_append_of_pos fun x hx => isSpace_iff.2 (hb hx)]
  rfl

theorem exists_blank (s : List Char) : ∃ blank, Blank blank ∧ s = blank ++ skipSpace s := by
  refine ⟨s.takeWhile isSpace, fun c hc => isSpace_iff.1 ?_, (List.takeWhile_append_dropWhile ..).symm⟩
  exact List.all_eq_true.1 (List.all_takeWhile ..) c hc

theorem exists_blank_of_skipSpace {s t : List Char} (h : skipSpace s = t) :
    ∃ blank, Blank blank ∧ s = blank ++ t := by
  obtain ⟨blank, hb, hs⟩ := exists_blank s
  exact ⟨blank, hb, by rwa [h] at hs⟩

theorem isSpace_of_skipSpace {s t : List Char} {c : Char} (h : skipSpace s = c :: t) : isSpace c = false := by
  have first := List.head?_dropWhile_not isSpace s
  rw [← skipSpace, h] at first
  exact first

theorem isDigit_iff {c : Char} : Ascii.isDigit c = true ↔ '0' ≤ c ∧ c ≤ '9' := by
  simp [Ascii.isDigit]

theorem digits_of_startsDigit {s : List Char} (h : startsDigit s = true) :
    ∃ digits, Digits digits ∧ s = digits ++ skipDigits s ∧ startsDigit (skipDigits s) = false := by
  refine ⟨s.takeWhile Ascii.isDigit, ⟨?_, fun c hc => isDigit_iff.1 ?_⟩,
    (List.takeWhile_append_dropWhile ..).symm, ?_⟩
  · cases s with
    | nil => cases h
    | cons c rest =>
      have hc : Ascii.isDigit c = true := h
      simp [hc]
  · exact List.all_eq_true.1 (List.all_takeWhile ..) c hc
  · unfold skipDigits startsDigit
    split
    · next c rest hs =>
      have := List.head?_dropWhile_not Ascii.isDigit s
      rw [hs] at this
      simpa using this
    · rfl

theorem startsDigit_of_digits {digits : List Char} (h : Digits digits) (rest : List Char) :
    startsDigit (digits ++ rest) = true := by
  obtain ⟨nonempty, all⟩ := h
  cases digits with
  | nil => exact absurd rfl nonempty
  | cons c t => exact isDigit_iff.2 (all c List.mem_cons_self)

theorem skipDigits_of_digits {digits rest : List Char} (h : Digits digits) (hr : startsDigit rest = false) :
    skipDigits (digits ++ rest) = rest := by
  rw [skipDigits, List.dropWhile_append_of_pos fun c hc => isDigit_iff.2 (h.2 c hc)]
  cases rest with
  | nil => rfl
  | cons c t =>
    have hc : Ascii.isDigit c = false := hr
    rw [List.dropWhile_cons, hc]
    rfl

/-! ## Strings -/

theorem hexValue?_eq_some_iff {c : Char} {v : Nat} : Ascii.hexValue? c = some v ↔ HexDigit c v := by
  constructor
  · intro h
    have small : c.toNat < 128 := by
      simp only [Ascii.hexValue?, Ascii.isDigit, Bool.and_eq_true, decide_eq_true_eq, Char.le_def,
        UInt32.le_iff_toNat_le] at h
      have value : c.val.toNat = c.toNat := rfl
      simp only [value] at h
      split at h
      · next hc => simp at hc; omega
      split at h
      · next hc => simp at hc; omega
      split at h
      · next hc => simp at hc; omega
      · cases h
    have all : ∀ n < 128, ∀ v ∈ Ascii.hexValue? (Char.ofNat n),
        "0123456789abcdef".toList[v]? = some (Char.ofNat n) ∨
        "0123456789ABCDEF".toList[v]? = some (Char.ofNat n) := by decide
    have := all c.toNat small v
    rw [Char.ofNat_toNat] at this
    exact this h
  · intro h
    have digits : ∀ w < 16, ∀ d, HexDigit d w → Ascii.hexValue? d = some w := by
      intro w hw d hd
      interval_cases w <;> rcases hd with hd | hd <;> cases hd <;> rfl
    refine digits v ?_ c h
    rcases h with h | h
    · exact (List.getElem?_eq_some_iff.1 h).1
    · exact (List.getElem?_eq_some_iff.1 h).1

theorem readUnit_eq_ok_iff {s r : List Char} {n : Nat} :
    readUnit s = .ok (n, r) ↔ ∃ unit, CodeUnit unit n ∧ s = unit ++ r := by
  constructor
  · intro h
    unfold readUnit at h
    split at h
    · next a b c d rest =>
      split at h
      · next w x y z ha hb hc hd =>
        cases h
        refine ⟨[a, b, c, d], ?_, rfl⟩
        have unit := CodeUnit.digits (hexValue?_eq_some_iff.1 ha) (hexValue?_eq_some_iff.1 hb)
          (hexValue?_eq_some_iff.1 hc) (hexValue?_eq_some_iff.1 hd)
        rwa [show 4096 * w + 256 * x + 16 * y + z = ((w * 16 + x) * 16 + y) * 16 + z by omega] at unit
      · cases h
    · split at h <;> cases h
  · rintro ⟨_, ⟨ha, hb, hc, hd⟩, rfl⟩
    next w x y z =>
    simp only [List.cons_append, List.nil_append, readUnit, hexValue?_eq_some_iff.2 ha, hexValue?_eq_some_iff.2 hb,
      hexValue?_eq_some_iff.2 hc, hexValue?_eq_some_iff.2 hd]
    rw [show ((w * 16 + x) * 16 + y) * 16 + z = 4096 * w + 256 * x + 16 * y + z by omega]

theorem shortEscape?_eq_some_iff {e x : Char} : shortEscape? e = some x ↔ (e, x) ∈ shortEscapes := by
  constructor
  · intro h
    unfold shortEscape? at h
    split at h <;> cases h <;> decide
  · intro h
    have all : ∀ p ∈ shortEscapes, shortEscape? p.1 = some p.2 := by decide
    exact all _ h

theorem skipString_unit {u r rest : List Char} {n : Nat} (h : CodeUnit u n) :
    skipString ('\\' :: 'u' :: (u ++ rest)) = .ok r ↔ skipString rest = .ok r := by
  have hu : readUnit (u ++ rest) = .ok (n, rest) := readUnit_eq_ok_iff.2 ⟨u, h, rfl⟩
  rw [skipString]
  split
  · next hf => rw [hu] at hf; cases hf
  · next hf => rw [hu] at hf; cases hf; rfl

theorem skipString_short {e x : Char} {r rest : List Char} (h : (e, x) ∈ shortEscapes) :
    skipString ('\\' :: e :: rest) = .ok r ↔ skipString rest = .ok r := by
  have some : shortEscape? e = some x := shortEscape?_eq_some_iff.2 h
  rw [skipString, some, Option.isSome_some, if_pos rfl]
  rintro rfl
  cases some

theorem skipString_plain {c : Char} {r rest : List Char} (low : 0x20 ≤ c.toNat) (quote : c ≠ '"')
    (slash : c ≠ '\\') :
    skipString (c :: rest) = .ok r ↔ skipString rest = .ok r := by
  rw [skipString, if_neg (by omega)]
  · exact quote
  · exact fun h _ => slash h
  · exact fun _ h _ => slash h
  · exact fun _ _ h _ => slash h

theorem skipString_of_loose {body r : List Char} (h : LooseText body) : skipString (body ++ '"' :: r) = .ok r := by
  induction h with
  | nil => rw [List.nil_append, skipString]
  | plain low quote slash _ ih =>
    rw [List.cons_append]
    exact (skipString_plain low quote slash).2 ih
  | short hx _ ih => exact (skipString_short hx).2 ih
  | unit hu _ ih =>
    rw [List.cons_append, List.cons_append, List.append_assoc]
    exact (skipString_unit hu).2 ih

theorem skipString_eq_ok_iff {s r : List Char} :
    skipString s = .ok r ↔ ∃ body, LooseText body ∧ s = body ++ '"' :: r := by
  constructor
  · intro h
    fun_induction skipString s with
    | case1 => cases h
    | case2 rest => cases h; exact ⟨[], .nil, rfl⟩
    | case3 => cases h
    | case4 => cases h
    | case5 rest n t hu _ ih =>
      obtain ⟨body, hb, rfl⟩ := ih h
      obtain ⟨unit, hunit, rfl⟩ := readUnit_eq_ok_iff.1 hu
      exact ⟨_, .unit hunit hb, by simp⟩
    | case6 c rest _ hc ih =>
      obtain ⟨body, hb, rfl⟩ := ih h
      obtain ⟨x, hx⟩ := Option.isSome_iff_exists.1 hc
      exact ⟨_, .short (shortEscape?_eq_some_iff.1 hx) hb, rfl⟩
    | case7 => cases h
    | case8 => cases h
    | case9 c rest quote noEnd _ noEscape low ih =>
      have slash : c ≠ '\\' := by
        cases rest with
        | nil => exact fun h => noEnd h rfl
        | cons d t => exact fun h => noEscape d t h rfl
      obtain ⟨body, hb, rfl⟩ := ih h
      exact ⟨c :: body, .plain (by omega) quote slash hb, rfl⟩
  · rintro ⟨body, hb, rfl⟩
    exact skipString_of_loose hb

/-! ## Numbers -/

/-- Whether a text goes on with something that cannot be part of a value before it. -/
def Ends (rest : List Char) : Prop := ∀ c ∈ rest.head?, c ∈ [' ', '\n', '\t', '\r', ',', ']', '}']

theorem Ends.not_number {rest : List Char} (h : Ends rest) :
    startsDigit rest = false ∧ rest.head? ≠ some '.' ∧ rest.head? ≠ some 'e' ∧ rest.head? ≠ some 'E' := by
  cases rest with
  | nil => exact ⟨rfl, by simp, by simp, by simp⟩
  | cons c t =>
    have all : ∀ d ∈ [' ', '\n', '\t', '\r', ',', ']', '}'],
        Ascii.isDigit d = false ∧ d ≠ '.' ∧ d ≠ 'e' ∧ d ≠ 'E' :=
      List.all_iff_forall_prop.1 (by decide)
    simpa [startsDigit] using all c (h c rfl)

theorem skipExponent_eq_ok {s r : List Char} (h : skipExponent s = .ok r) :
    ∃ sign digits, sign ∈ [[], ['+'], ['-']] ∧ Digits digits ∧ s = sign ++ (digits ++ r) := by
  simp only [skipExponent] at h
  split at h
  · next hd =>
    cases h
    obtain ⟨digits, hdigits, hs, _⟩ := digits_of_startsDigit hd
    refine ⟨s.take (s.length - (takeSign s).2.length), digits, ?_, hdigits, ?_⟩
    · unfold takeSign
      split <;> simp
    · rw [← hs]
      unfold takeSign
      split <;> simp
  · cases h

theorem skipExponent_of_digits {sign digits rest : List Char} (hs : sign ∈ [[], ['+'], ['-']]) (hd : Digits digits)
    (hr : startsDigit rest = false) : skipExponent (sign ++ (digits ++ rest)) = .ok rest := by
  have taken : (takeSign (sign ++ (digits ++ rest))).2 = digits ++ rest := by
    simp only [List.mem_cons, List.not_mem_nil, or_false] at hs
    rcases hs with rfl | rfl | rfl
    · have start := startsDigit_of_digits hd rest
      rw [List.nil_append, takeSign]
      · intro t ht
        rw [ht] at start
        cases start
      · intro t ht
        rw [ht] at start
        cases start
    · rfl
    · rfl
  simp only [skipExponent, taken, startsDigit_of_digits hd, skipDigits_of_digits hd hr, if_true]

theorem skipExponent?_eq_ok {s r : List Char} (h : skipExponent? s = .ok r) :
    ∃ exponent, ExponentPart exponent ∧ s = exponent ++ r := by
  unfold skipExponent? at h
  split at h
  · obtain ⟨sign, digits, hs, hd, rfl⟩ := skipExponent_eq_ok h
    exact ⟨'e' :: (sign ++ digits), .inr ⟨'e', sign, digits, by simp, hs, hd, rfl⟩, by simp⟩
  · obtain ⟨sign, digits, hs, hd, rfl⟩ := skipExponent_eq_ok h
    exact ⟨'E' :: (sign ++ digits), .inr ⟨'E', sign, digits, by simp, hs, hd, rfl⟩, by simp⟩
  · cases h
    exact ⟨[], .inl rfl, rfl⟩

theorem skipExponent?_of_exponent {exponent rest : List Char} (h : ExponentPart exponent) (hr : Ends rest) :
    skipExponent? (exponent ++ rest) = .ok rest := by
  obtain ⟨hd, _, small, big⟩ := hr.not_number
  rcases h with rfl | ⟨mark, sign, digits, hm, hs, hdigits, rfl⟩
  · rw [List.nil_append, skipExponent?]
    · rintro t rfl
      exact small rfl
    · rintro t rfl
      exact big rfl
  · simp only [List.cons_append, List.append_assoc]
    simp only [List.mem_cons, List.not_mem_nil, or_false] at hm
    rcases hm with rfl | rfl <;> exact skipExponent_of_digits hs hdigits hd

def skipFraction? (s : List Char) : Except Fault (List Char) :=
  match s with
  | '.' :: rest => if startsDigit rest then skipExponent? (skipDigits rest) else .error (.on .badNumber rest)
  | rest => skipExponent? rest

theorem skipFraction?_eq_ok {s r : List Char} (h : skipFraction? s = .ok r) :
    ∃ fraction exponent, FractionPart fraction ∧ ExponentPart exponent ∧ s = fraction ++ (exponent ++ r) := by
  unfold skipFraction? at h
  split at h
  · split at h
    · next rest hd =>
      obtain ⟨digits, hdigits, hs, _⟩ := digits_of_startsDigit hd
      obtain ⟨exponent, he, ht⟩ := skipExponent?_eq_ok h
      refine ⟨'.' :: digits, exponent, .inr ⟨digits, hdigits, rfl⟩, he, ?_⟩
      rw [hs, ht]
      rfl
    · cases h
  · obtain ⟨exponent, he, rfl⟩ := skipExponent?_eq_ok h
    exact ⟨[], exponent, .inl rfl, he, rfl⟩

theorem ExponentPart.not_fraction {exponent rest : List Char} (h : ExponentPart exponent) (hr : Ends rest) :
    startsDigit (exponent ++ rest) = false ∧ (exponent ++ rest).head? ≠ some '.' := by
  rcases h with rfl | ⟨mark, sign, digits, hm, _, _, rfl⟩
  · exact ⟨hr.not_number.1, hr.not_number.2.1⟩
  · simp only [List.mem_cons, List.not_mem_nil, or_false] at hm
    rcases hm with rfl | rfl <;> exact ⟨rfl, by simp⟩

theorem skipFraction?_of_parts {fraction exponent rest : List Char} (hf : FractionPart fraction)
    (he : ExponentPart exponent) (hr : Ends rest) : skipFraction? (fraction ++ (exponent ++ rest)) = .ok rest := by
  obtain ⟨noDigit, noPoint⟩ := he.not_fraction hr
  have exponent := skipExponent?_of_exponent he hr
  rcases hf with rfl | ⟨digits, hd, rfl⟩
  · rw [List.nil_append, skipFraction?]
    · exact exponent
    · intro t ht
      rw [ht] at noPoint
      exact noPoint rfl
  · rw [List.cons_append, skipFraction?, if_pos (startsDigit_of_digits hd _), skipDigits_of_digits hd noDigit]
    exact exponent

theorem skipNumber_eq_ok {s r : List Char} (h : skipNumber s = .ok r) :
    ∃ number, Magnitude number ∧ s = number ++ r := by
  have whole : ∃ whole t, WholePart whole ∧ s = whole ++ t ∧ skipFraction? t = .ok r := by
    unfold skipNumber at h
    split at h
    · split at h
      · cases h
      · exact ⟨['0'], _, ⟨⟨by simp, by simp⟩, fun _ => rfl⟩, rfl, h⟩
    · next nonzero =>
      split at h
      · next hd =>
        obtain ⟨digits, hdigits, hs, _⟩ := digits_of_startsDigit hd
        refine ⟨digits, _, ⟨hdigits, fun hz => ?_⟩, hs, h⟩
        obtain ⟨rest, rfl⟩ := List.head?_eq_some_iff.1 hz
        exact absurd hs (nonzero _)
      · cases h
  obtain ⟨whole, t, hw, rfl, ht⟩ := whole
  obtain ⟨fraction, exponent, hf, he, rfl⟩ := skipFraction?_eq_ok ht
  exact ⟨_, ⟨whole, fraction, exponent, hw, hf, he, rfl⟩, by simp⟩

theorem skipNumber_of_magnitude {number rest : List Char} (h : Magnitude number) (hr : Ends rest) :
    skipNumber (number ++ rest) = .ok rest := by
  obtain ⟨whole, fraction, exponent, ⟨hw, zero⟩, hf, he, rfl⟩ := h
  have tail : startsDigit (fraction ++ (exponent ++ rest)) = false := by
    rcases hf with rfl | ⟨digits, _, rfl⟩
    · exact (he.not_fraction hr).1
    · rfl
  have parts := skipFraction?_of_parts hf he hr
  rw [List.append_assoc, List.append_assoc]
  by_cases hz : whole.head? = some '0'
  · rw [zero hz, List.singleton_append, skipNumber, if_neg (by rw [tail]; exact Bool.false_ne_true)]
    exact parts
  · rw [skipNumber, if_pos (startsDigit_of_digits hw _), skipDigits_of_digits hw tail]
    · exact parts
    · intro t ht
      obtain ⟨c, w, rfl⟩ := List.exists_cons_of_ne_nil hw.1
      rw [List.cons_append] at ht
      exact hz (by rw [(List.cons.inj ht).1]; rfl)

/-! ## Scalars -/

theorem readWord_eq_ok_iff : ∀ {word s r : List Char}, readWord word s = .ok r ↔ s = word ++ r
  | [], s, r => by
    rw [readWord, Except.ok.injEq, List.nil_append]
  | w :: word, [], r => by
    simp [readWord]
  | w :: word, c :: s, r => by
    rw [readWord]
    split
    · next h =>
      rw [readWord_eq_ok_iff, h, List.cons_append, List.cons.injEq]
      exact (and_iff_right rfl).symm
    · next h => simp [h]

theorem solid_of_digits {s : List Char} (h : Digits s) : ∃ c t, s = c :: t ∧ Ascii.isDigit c = true := by
  obtain ⟨c, t, rfl⟩ := List.exists_cons_of_ne_nil h.1
  exact ⟨c, t, rfl, isDigit_iff.2 (h.2 c List.mem_cons_self)⟩

theorem Magnitude.starts {s : List Char} (h : Magnitude s) : ∃ c t, s = c :: t ∧ Ascii.isDigit c = true := by
  obtain ⟨whole, fraction, exponent, ⟨hw, _⟩, _, _, rfl⟩ := h
  obtain ⟨c, t, rfl, hc⟩ := solid_of_digits hw
  exact ⟨c, t ++ (fraction ++ exponent), rfl, hc⟩

theorem skipScalar_eq_ok {s r : List Char} (h : skipScalar s = .ok r) : ∃ value, Scalar value ∧ s = value ++ r := by
  unfold skipScalar at h
  split at h
  · cases h
  · rw [readWord_eq_ok_iff.1 h]
    exact ⟨_, .null, rfl⟩
  · rw [readWord_eq_ok_iff.1 h]
    exact ⟨_, .yes, rfl⟩
  · rw [readWord_eq_ok_iff.1 h]
    exact ⟨_, .no, rfl⟩
  · obtain ⟨body, hb, rfl⟩ := skipString_eq_ok_iff.1 h
    exact ⟨_, .text hb, by simp⟩
  · obtain ⟨number, hn, rfl⟩ := skipNumber_eq_ok h
    exact ⟨_, .negative hn, rfl⟩
  · split at h
    · obtain ⟨number, hn, hs⟩ := skipNumber_eq_ok h
      exact ⟨_, .number hn, hs⟩
    · cases h

theorem skipScalar_digit {c : Char} (h : Ascii.isDigit c = true) (rest : List Char) :
    skipScalar (c :: rest) = skipNumber (c :: rest) := by
  have other : ∀ d ∈ ['n', 't', 'f', '"', '-'], Ascii.isDigit d = false :=
    List.all_iff_forall_prop.1 (by decide)
  have ne : ∀ d ∈ ['n', 't', 'f', '"', '-'], c ≠ d := by
    rintro d hd rfl
    rw [other c hd] at h
    cases h
  rw [skipScalar, if_pos h]
  all_goals exact ne _ (by simp)

theorem skipScalar_of_scalar {value rest : List Char} (h : Scalar value) (hr : Ends rest) :
    skipScalar (value ++ rest) = .ok rest := by
  cases h with
  | null => exact readWord_eq_ok_iff.2 rfl
  | yes => exact readWord_eq_ok_iff.2 rfl
  | no => exact readWord_eq_ok_iff.2 rfl
  | number hn =>
    obtain ⟨c, t, ht, hc⟩ := hn.starts
    have number := skipNumber_of_magnitude hn hr
    rw [ht, List.cons_append] at number ⊢
    rw [skipScalar_digit hc, number]
  | negative hn => exact skipNumber_of_magnitude hn hr
  | text hb =>
    rw [List.cons_append, List.append_assoc]
    exact skipString_of_loose hb

/-! ## Keys -/

theorem readColon_eq_ok_iff {s r : List Char} : readColon s = .ok r ↔
    ∃ blank, Blank blank ∧ s = blank ++ ':' :: r := by
  constructor
  · intro h
    unfold readColon at h
    split at h
    · cases h
    · next rest hs =>
      cases h
      exact exists_blank_of_skipSpace hs
    · cases h
  · rintro ⟨blank, hb, rfl⟩
    rw [readColon, skipSpace_append hb ⟨':', r, rfl, rfl⟩]
    rfl

theorem skipKey_eq_ok {b : Bracket} {s after t : List Char} (h : b.skipKey s = .ok (after ++ t)) (ha : Blank after) :
    ∃ blank label, Blank blank ∧ Label b label ∧ s = blank ++ (label ++ t) := by
  cases b with
  | list =>
    cases h
    exact ⟨after, [], ha, .list, rfl⟩
  | object =>
    unfold Bracket.skipKey at h
    dsimp only at h
    split at h
    · cases h
    · next rest hs =>
      obtain ⟨u, hu, hc⟩ := Result.bind_eq_ok.1 h
      obtain ⟨before, hb, rfl⟩ := readColon_eq_ok_iff.1 hc
      obtain ⟨key, hk, rfl⟩ := skipString_eq_ok_iff.1 hu
      obtain ⟨blank, hblank, rfl⟩ := exists_blank_of_skipSpace hs
      exact ⟨blank, _, hblank, .object hk hb ha, by simp⟩
    · cases h

theorem skipKey_of_label {b : Bracket} {blank label : List Char} (h : Label b label) (hb : Blank blank)
    (t : List Char) :
    ∃ after, Blank after ∧ b.skipKey (blank ++ (label ++ t)) = .ok (after ++ t) := by
  cases h with
  | list => exact ⟨blank, hb, rfl⟩
  | @object key before after hk hc ha =>
    have colon : readColon (before ++ ':' :: (after ++ t)) = .ok (after ++ t) :=
      readColon_eq_ok_iff.2 ⟨before, hc, rfl⟩
    refine ⟨after, ha, ?_⟩
    simp only [List.cons_append, List.append_assoc, Bracket.skipKey]
    rw [skipSpace_append hb ⟨'"', _, rfl, rfl⟩]
    exact Result.bind_eq_ok.2 ⟨_, skipString_of_loose hk, colon⟩

/-! ## Nested values, step by step -/

section
variable {b : Bracket} {stack : List Bracket} {s t r : List Char}

theorem skipNested_opening (h : skipSpace s = b.opening :: t) :
    skipNested .value stack s = skipNested .opened (b :: stack) t := by
  conv_lhs => rw [skipNested]
  cases b <;> (split <;> simp_all [Bracket.opening])

theorem skipNested_scalar {c : Char} (h : skipSpace s = c :: t) (list : c ≠ '[') (object : c ≠ '{')
    (hr : skipScalar (c :: t) = .ok r) : skipNested .value stack s = skipNested .closed stack r := by
  conv_lhs => rw [skipNested]
  split
  · next ht => rw [h] at ht; exact absurd (List.cons.inj ht).1 list
  · next ht => rw [h] at ht; exact absurd (List.cons.inj ht).1 object
  · split
    · next hf => rw [h, hr] at hf; cases hf
    · next hf => rw [h, hr] at hf; cases hf; rfl

theorem skipNested_opened_close (h : skipSpace s = b.close :: t) :
    skipNested .opened (b :: stack) s = skipNested .closed stack t := by
  conv_lhs => rw [skipNested]
  split
  · next hs => rw [h] at hs; cases hs
  · next hs =>
    rw [h] at hs
    cases hs
    rw [if_pos rfl]

theorem skipNested_opened_part {c : Char} (h : skipSpace s = c :: t) (open_ : c ≠ b.close)
    (hk : b.skipKey (c :: t) = .ok r) : skipNested .opened (b :: stack) s = skipNested .value (b :: stack) r := by
  conv_lhs => rw [skipNested]
  split
  · next hs => rw [h] at hs; cases hs
  · next hs =>
    rw [h] at hs
    cases hs
    rw [if_neg open_]
    split
    · next hf => rw [hk] at hf; cases hf
    · next hf => rw [hk] at hf; cases hf; rfl

theorem skipNested_closed_comma (h : skipSpace s = ',' :: t) (hk : b.skipKey t = .ok r) :
    skipNested .closed (b :: stack) s = skipNested .value (b :: stack) r := by
  conv_lhs => rw [skipNested]
  split
  · next hs => rw [h] at hs; cases hs
  · next hs =>
    rw [h] at hs
    cases hs
    rw [if_pos rfl]
    split
    · next hf => rw [hk] at hf; cases hf
    · next hf => rw [hk] at hf; cases hf; rfl

theorem skipNested_closed_close (h : skipSpace s = b.close :: t) :
    skipNested .closed (b :: stack) s = skipNested .closed stack t := by
  conv_lhs => rw [skipNested]
  split
  · next hs => rw [h] at hs; cases hs
  · next hs =>
    rw [h] at hs
    cases hs
    rw [if_neg (by cases b <;> decide), if_pos rfl]

end

/-! ## Nested values -/

theorem Scalar.starts {s : List Char} (h : Scalar s) :
    ∃ c t, s = c :: t ∧ isSpace c = false ∧ c ≠ '[' ∧ c ≠ '{' ∧ c ≠ ']' := by
  have digit : ∀ c, Ascii.isDigit c = true → isSpace c = false ∧ c ≠ '[' ∧ c ≠ '{' ∧ c ≠ ']' := by
    intro c hc
    refine ⟨?_, ?_, ?_, ?_⟩
    · rw [← Bool.not_eq_true, isSpace_iff]
      intro hm
      have all : ∀ d ∈ [' ', '\n', '\t', '\r'], Ascii.isDigit d = false :=
        List.all_iff_forall_prop.1 (by decide)
      rw [all c hm] at hc
      cases hc
    all_goals
      rintro rfl
      cases hc
  cases h with
  | number hn =>
    obtain ⟨c, t, rfl, hc⟩ := hn.starts
    exact ⟨c, t, rfl, digit c hc⟩
  | _ => exact ⟨_, _, rfl, by decide⟩

theorem Value.starts {s : List Char} (h : Value s) : ∃ c t, s = c :: t ∧ isSpace c = false ∧ c ≠ ']' := by
  cases h with
  | scalar h =>
    obtain ⟨c, t, rfl, hs, _, _, hc⟩ := h.starts
    exact ⟨c, t, rfl, hs, hc⟩
  | @nested b t _ => exact ⟨b.opening, t, rfl, by cases b <;> decide⟩

theorem Label.starts {b : Bracket} {label value : List Char} (h : Label b label) (hv : Value value) (rest : List Char) :
    ∃ c t, label ++ (value ++ rest) = c :: t ∧ isSpace c = false ∧ c ≠ b.close := by
  cases h with
  | list =>
    obtain ⟨c, t, rfl, hs, hc⟩ := hv.starts
    exact ⟨c, t ++ rest, rfl, hs, hc⟩
  | object => exact ⟨_, _, rfl, by decide⟩

theorem ends_of_blank {blank t : List Char} {c : Char} (hb : Blank blank) (hc : c ∈ [',', ']', '}']) :
    Ends (blank ++ c :: t) := by
  intro d hd
  cases blank with
  | nil =>
    cases hd
    simp only [List.mem_cons, List.not_mem_nil, or_false] at hc ⊢
    tauto
  | cons e blank =>
    cases hd
    have := hb List.mem_cons_self
    simp only [List.mem_cons, List.not_mem_nil, or_false] at this ⊢
    tauto

theorem Rest.ends {b : Bracket} {s : List Char} (h : Rest b s) (r : List Char) : Ends (s ++ r) := by
  cases h with
  | close hb =>
    rw [List.append_assoc]
    exact ends_of_blank hb (by cases b <;> decide)
  | comma hb =>
    rw [List.append_assoc]
    exact ends_of_blank hb (by decide)

mutual

theorem skipNested_of_value {value blank rest : List Char} {stack : List Bracket} (h : Value value) (hb : Blank blank)
    (hr : Ends rest) : skipNested .value stack (blank ++ (value ++ rest)) = skipNested .closed stack rest := by
  cases h with
  | scalar h =>
    obtain ⟨c, t, rfl, hs, list, object, _⟩ := h.starts
    refine skipNested_scalar (skipSpace_append hb ⟨c, t ++ rest, rfl, hs⟩) list object ?_
    exact skipScalar_of_scalar h hr
  | @nested b s h =>
    have opening : skipSpace (blank ++ (b.opening :: s ++ rest)) = b.opening :: (s ++ rest) :=
      skipSpace_append hb ⟨b.opening, s ++ rest, rfl, by cases b <;> decide⟩
    rw [skipNested_opening opening]
    exact skipNested_of_inside h
termination_by (value.length, 0)
decreasing_by simp only [Prod.lex_def, List.length_cons]; omega

theorem skipNested_of_inside {b : Bracket} {s rest : List Char} {stack : List Bracket} (h : Inside b s) :
    skipNested .opened (b :: stack) (s ++ rest) = skipNested .closed stack rest := by
  cases h with
  | empty hb =>
    rw [List.append_assoc]
    exact skipNested_opened_close (skipSpace_append hb ⟨b.close, rest, rfl, by cases b <;> decide⟩)
  | @parts _ blank label value t hb hl hv hr =>
    obtain ⟨c, u, hu, hs, hc⟩ := hl.starts hv (t ++ rest)
    obtain ⟨after, ha, key⟩ := skipKey_of_label hl (List.nil_subset _) (value ++ (t ++ rest))
    rw [List.nil_append, hu] at key
    simp only [List.append_assoc]
    rw [hu, skipNested_opened_part (skipSpace_append hb ⟨c, u, rfl, hs⟩) hc key,
      skipNested_of_value hv ha (hr.ends rest)]
    exact skipNested_of_rest hr
termination_by (s.length, 2)
decreasing_by all_goals simp only [Prod.lex_def, List.length_append]; omega

theorem skipNested_of_rest {b : Bracket} {s rest : List Char} {stack : List Bracket} (h : Rest b s) :
    skipNested .closed (b :: stack) (s ++ rest) = skipNested .closed stack rest := by
  cases h with
  | close hb =>
    rw [List.append_assoc]
    exact skipNested_closed_close (skipSpace_append hb ⟨b.close, rest, rfl, by cases b <;> decide⟩)
  | @comma _ before after label value t hb ha hl hv hr =>
    obtain ⟨after, ha, key⟩ := skipKey_of_label hl ha (value ++ (t ++ rest))
    simp only [List.append_assoc, List.cons_append]
    rw [skipNested_closed_comma (skipSpace_append hb ⟨',', _, rfl, rfl⟩) key,
      skipNested_of_value hv ha (hr.ends rest)]
    exact skipNested_of_rest hr
termination_by (s.length, 1)
decreasing_by all_goals simp only [Prod.lex_def, List.length_append, List.length_cons]; omega

end

/-- What is left to read while brackets stand open: each of them is closed in turn. -/
def Closes : List Bracket → List Char → Prop
  | [], s => s = []
  | b :: outer, s => ∃ t u, Rest b t ∧ Closes outer u ∧ s = t ++ u

/-- What each stage has taken when the skipper ends. -/
def Passes : Stage → List Bracket → List Char → Prop
  | .value, stack, s => ∃ blank value t, Blank blank ∧ Value value ∧ Closes stack t ∧ s = blank ++ (value ++ t)
  | .opened, [], s => s = []
  | .opened, b :: outer, s => ∃ t u, Inside b t ∧ Closes outer u ∧ s = t ++ u
  | .closed, stack, s => Closes stack s

theorem passes_of_skipNested {stage : Stage} {stack : List Bracket} {s r : List Char}
    (h : skipNested stage stack s = .ok r) : ∃ t, Passes stage stack t ∧ s = t ++ r := by
  fun_induction skipNested stage stack s with
  | case1 s stack rest hs _ _ ih =>
    obtain ⟨_, ⟨t, u, ht, hu, rfl⟩, rfl⟩ := ih h
    obtain ⟨blank, hb, rfl⟩ := exists_blank_of_skipSpace hs
    exact ⟨_, ⟨blank, _, u, hb, .nested (b := .list) ht, hu, rfl⟩, by simp [Bracket.opening]⟩
  | case2 s stack rest hs _ _ ih =>
    obtain ⟨_, ⟨t, u, ht, hu, rfl⟩, rfl⟩ := ih h
    obtain ⟨blank, hb, rfl⟩ := exists_blank_of_skipSpace hs
    exact ⟨_, ⟨blank, _, u, hb, .nested (b := .object) ht, hu, rfl⟩, by simp [Bracket.opening]⟩
  | case3 => cases h
  | case4 s stack r' _ _ _ hr _ _ ih =>
    obtain ⟨t, ht, rfl⟩ := ih h
    obtain ⟨value, hv, hs⟩ := skipScalar_eq_ok hr
    obtain ⟨blank, hb, rfl⟩ := exists_blank_of_skipSpace hs
    exact ⟨_, ⟨blank, value, t, hb, .scalar hv, ht, rfl⟩, by simp⟩
  | case5 s => cases h; exact ⟨[], rfl, rfl⟩
  | case6 => cases h
  | case7 s b outer rest _ hs _ ih =>
    obtain ⟨u, hu, rfl⟩ := ih h
    obtain ⟨blank, hb, rfl⟩ := exists_blank_of_skipSpace hs
    exact ⟨_, ⟨_, u, .empty hb, hu, rfl⟩, by simp⟩
  | case8 => cases h
  | case9 s b outer c rest hs _ _ _ r' hk _ ih =>
    obtain ⟨_, ⟨after, value, _, ha, hv, ⟨t, u, ht, hu, rfl⟩, rfl⟩, rfl⟩ := ih h
    rw [List.append_assoc] at hk
    obtain ⟨inner, label, hi, hl, hc⟩ := skipKey_eq_ok hk ha
    rw [hc] at hs
    obtain ⟨blank, hb, rfl⟩ := exists_blank_of_skipSpace hs
    exact ⟨_, ⟨_, u, .parts (List.append_subset.2 ⟨hb, hi⟩) hl hv ht, hu, rfl⟩, by simp⟩
  | case10 s => cases h; exact ⟨[], rfl, rfl⟩
  | case11 => cases h
  | case12 => cases h
  | case13 s b outer rest _ r' hk _ hs _ ih =>
    obtain ⟨_, ⟨after, value, _, ha, hv, ⟨t, u, ht, hu, rfl⟩, rfl⟩, rfl⟩ := ih h
    rw [List.append_assoc] at hk
    obtain ⟨inner, label, hi, hl, rfl⟩ := skipKey_eq_ok hk ha
    obtain ⟨blank, hb, rfl⟩ := exists_blank_of_skipSpace hs
    exact ⟨_, ⟨_, u, .comma hb hi hl hv ht, hu, rfl⟩, by simp⟩
  | case14 s b outer rest _ hs _ _ ih =>
    obtain ⟨u, hu, rfl⟩ := ih h
    obtain ⟨blank, hb, rfl⟩ := exists_blank_of_skipSpace hs
    exact ⟨_, ⟨_, u, .close hb, hu, rfl⟩, by simp⟩
  | case15 => cases h

theorem skipValue_eq_ok {s r : List Char} (h : skipValue s = .ok r) :
    ∃ blank value, Blank blank ∧ Value value ∧ s = blank ++ (value ++ r) := by
  obtain ⟨_, ⟨blank, value, _, hb, hv, rfl, rfl⟩, rfl⟩ := passes_of_skipNested h
  exact ⟨blank, value, hb, hv, by simp⟩

theorem skipValue_of_value {blank value rest : List Char} (hb : Blank blank) (hv : Value value) (hr : Ends rest) :
    skipValue (blank ++ (value ++ rest)) = .ok rest := by
  rw [skipValue, skipNested_of_value hv hb hr, skipNested]

end SearchRelay.Json
