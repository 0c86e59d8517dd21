import Mathlib.Tactic.IntervalCases
import SearchRelay.Url.Ipv4
import SearchRelay.Url.Ipv6

/-!
# Reading addresses back

An address that is written is read again. Of IPv4 that is four decimal numbers
below 256, of IPv6 the words in hexadecimal, where the double colon stands for
as many zeros as were left out.
-/

namespace SearchRelay

/-! ## Numbers -/

theorem Ascii.hexValue?_digitChar {d : Nat} (h : d < 16) : Ascii.hexValue? d.digitChar = some d := by
  interval_cases d <;> rfl

theorem foldlM_toDigits (digit? : Char → Option Nat) {base : Nat} (low : 1 < base)
    (digit : ∀ d < base, digit? d.digitChar = some d) (n : Nat) :
    (Nat.toDigits base n).foldlM (fun n c => (digit? c).map (base * n + ·)) 0 = some n := by
  induction n using Nat.strongRecOn with
  | ind n ih =>
    rw [Nat.toDigits_eq_if low]
    split
    · next lt =>
      rw [List.foldlM_cons, digit n lt]
      simp
    · next ge =>
      have smaller : n / base < n := Nat.div_lt_self (by omega) low
      rw [List.foldlM_append, ih _ smaller]
      have last := digit (n % base) (Nat.mod_lt _ (by omega))
      simp [last, Nat.div_add_mod]

theorem toDigits_ne_nil {base : Nat} (low : 1 < base) (n : Nat) : Nat.toDigits base n ≠ [] := by
  rw [Nat.toDigits_eq_if low]
  split <;> simp

theorem mem_toDigits {base n : Nat} (low : 1 < base) {c : Char} (h : c ∈ Nat.toDigits base n) :
    ∃ d < base, c = d.digitChar := by
  induction n using Nat.strongRecOn with
  | ind n ih =>
    rw [Nat.toDigits_eq_if low] at h
    split at h
    · next lt => exact ⟨n, lt, List.mem_singleton.1 h⟩
    · next ge =>
      rcases List.mem_append.1 h with h | h
      · exact ih _ (Nat.div_lt_self (by omega) low) h
      · exact ⟨n % base, Nat.mod_lt _ (by omega), List.mem_singleton.1 h⟩

theorem length_toDigits_le {base : Nat} (low : 1 < base) : ∀ {k n : Nat}, n < base ^ (k + 1) →
    (Nat.toDigits base n).length ≤ k + 1
  | 0, n, h => by
    rw [Nat.toDigits_eq_if low, if_pos (by simpa using h)]
    simp
  | k + 1, n, h => by
    rw [Nat.toDigits_eq_if low]
    split
    · simp
    · rw [List.length_append, List.length_singleton]
      have := length_toDigits_le low (k := k) (n := n / base)
        (Nat.div_lt_of_lt_mul (by rwa [Nat.mul_comm, ← Nat.pow_succ]))
      omega

namespace Ipv4

theorem number?_decimal {n : Nat} (h : n < 256) : number? (decimal n) = some n := by
  have all : ∀ n < 256, number? (decimal n) = some n := by decide +kernel
  exact all n h

theorem isDigit_of_mem_decimal {n : Nat} {c : Char} (h : c ∈ decimal n) : Ascii.isDigit c = true := by
  obtain ⟨d, hd, rfl⟩ := mem_toDigits (by decide) h
  interval_cases d <;> rfl

def bytes (address : UInt32) : List Nat :=
  [address.toNat / 16777216, address.toNat / 65536 % 256, address.toNat / 256 % 256, address.toNat % 256]

theorem lt_of_mem_bytes {address : UInt32} {n : Nat} (h : n ∈ bytes address) : n < 256 := by
  have := address.toNat_lt
  simp only [bytes, List.mem_cons, List.not_mem_nil, or_false] at h
  omega

theorem write_eq (address : UInt32) : write address = ['.'].intercalate ((bytes address).map decimal) := by
  simp [write, bytes, List.intercalate_cons_cons]

theorem parts_write (address : UInt32) : parts (write address) = (bytes address).map decimal := by
  have cut : ∀ piece ∈ (bytes address).map decimal, '.' ∉ piece := by
    intro piece hp h
    obtain ⟨n, _, rfl⟩ := List.mem_map.1 hp
    exact absurd (isDigit_of_mem_decimal h) (by decide)
  have full : decimal (address.toNat % 256) ≠ [] := toDigits_ne_nil (by decide) _
  rw [parts, write_eq, List.splitOn_intercalate '.' cut (by simp [bytes]), if_neg]
  simpa [bytes] using full

theorem endsInNumber_write (address : UInt32) : endsInNumber (write address) = true := by
  have full : decimal (address.toNat % 256) ≠ [] := toDigits_ne_nil (by decide) _
  have digits : (decimal (address.toNat % 256)).all Ascii.isDigit = true :=
    List.all_eq_true.2 fun c hc => isDigit_of_mem_decimal hc
  rw [endsInNumber, parts_write]
  simp [bytes, full, digits]

theorem parse?_write (address : UInt32) : parse? (write address) = some address := by
  have numbers : ∀ {ns : List Nat}, (∀ n ∈ ns, n < 256) → (ns.map decimal).mapM number? = some ns := by
    intro ns h
    induction ns with
    | nil => rfl
    | cons n ns ih =>
      rw [List.map_cons, List.mapM_cons, number?_decimal (h n List.mem_cons_self),
        ih fun m hm => h m (List.mem_cons_of_mem _ hm)]
      rfl
  have value : combine 4 (bytes address) = some address.toNat := by
    have := address.toNat_lt
    have part {k n m : Nat} {rest : List Nat} (h : n < 256) :
        combine (k + 1) (n :: m :: rest) = (combine k (m :: rest)).map (n * 256 ^ k + ·) := if_pos h
    have last {n : Nat} (h : n < 256 ^ (0 + 1)) : combine 1 [n] = some n := if_pos h
    rw [bytes, part (by omega), part (by omega), part (by omega), last (by omega)]
    simp only [Option.map_some, Option.some.injEq]
    omega
  rw [parse?, parts_write, numbers fun n => lt_of_mem_bytes]
  simp only [Option.bind_eq_bind, Option.bind_some, value]
  rw [UInt32.ofNat_toNat]
  rfl

end Ipv4

namespace Ipv6

/-! ## Words -/

theorem word?_hexDigits (w : UInt16) : word? (Ascii.hexDigits w.toNat) = some w := by
  have small : w.toNat < 16 ^ (3 + 1) := w.toNat_lt
  have full := toDigits_ne_nil (show 1 < 16 by decide) w.toNat
  have short := length_toDigits_le (by decide) small
  have value := foldlM_toDigits Ascii.hexValue? (by decide) (fun d => Ascii.hexValue?_digitChar) w.toNat
  rw [word?, Ascii.hexDigits, value, if_neg (by simp [full]; omega)]
  simp

theorem colon_not_mem_hexDigits (n : Nat) : ':' ∉ Ascii.hexDigits n := by
  intro h
  obtain ⟨d, hd, eq⟩ := mem_toDigits (by decide) h
  interval_cases d <;> exact absurd eq (by decide)

theorem words?_map (last : Bool) : ∀ words : List UInt16,
    words? last (words.map fun w => Ascii.hexDigits w.toNat) = some words
  | [] => rfl
  | [w] => by
    simp only [List.map_cons, List.map_nil, words?, word?_hexDigits]
    rfl
  | w :: v :: words => by
    have ih := words?_map last (v :: words)
    rw [List.map_cons] at ih
    rw [List.map_cons, List.map_cons, words?]
    · rw [word?_hexDigits, ih]
      rfl
    · simp

theorem writeWords_eq_nil_iff {words : List UInt16} : writeWords words = [] ↔ words = [] := by
  have full := fun w : UInt16 => toDigits_ne_nil (show 1 < 16 by decide) w.toNat
  match words with
  | [] => simp [writeWords]
  | [w] => simp [writeWords, Ascii.hexDigits, full w]
  | w :: v :: words => simp [writeWords, List.intercalate_cons_cons, Ascii.hexDigits, full w]

theorem side?_writeWords (last : Bool) (words : List UInt16) : side? last (writeWords words) = some words := by
  have cut : ∀ piece ∈ words.map (fun w => Ascii.hexDigits w.toNat), ':' ∉ piece := by
    intro piece hp
    obtain ⟨w, _, rfl⟩ := List.mem_map.1 hp
    exact colon_not_mem_hexDigits _
  cases hw : words with
  | nil => rfl
  | cons w rest =>
    rw [← hw, side?, if_neg]
    · rw [writeWords, List.splitOn_intercalate ':' cut (by simp [hw]), words?_map]
    · rw [List.isEmpty_iff, writeWords_eq_nil_iff, hw]
      exact List.cons_ne_nil w rest

/-! ## The gap -/

theorem cutGap_of_not_colon {c : Char} (h : c ≠ ':') (rest : List Char) :
    cutGap (c :: rest) = (c :: (cutGap rest).1, (cutGap rest).2) := by
  rw [cutGap]
  rintro t rfl
  exact absurd rfl h

theorem cutGap_append : ∀ {piece : List Char}, ':' ∉ piece → ∀ rest : List Char,
    cutGap (piece ++ rest) = (piece ++ (cutGap rest).1, (cutGap rest).2)
  | [], _, _ => rfl
  | c :: piece, h, rest => by
    rw [List.mem_cons, not_or] at h
    rw [List.cons_append, cutGap_of_not_colon (Ne.symm h.1), cutGap_append h.2]
    rfl

theorem cutGap_colon {c : Char} (h : c ≠ ':') (rest : List Char) :
    cutGap (':' :: c :: rest) = (':' :: (cutGap (c :: rest)).1, (cutGap (c :: rest)).2) := by
  rw [cutGap]
  rintro t - eq
  exact h (List.cons.inj eq).1

/-- Between the words there is no double colon, so that the first one is the gap. -/
theorem cutGap_writeWords {rest : List Char} (hr : rest = [] ∨ ∃ t, rest = ':' :: ':' :: t) :
    ∀ words : List UInt16,
    cutGap (writeWords words ++ rest) = (writeWords words, (cutGap rest).2)
  | [] => by rcases hr with rfl | ⟨t, rfl⟩ <;> rfl
  | [w] => by
    rw [show writeWords [w] = Ascii.hexDigits w.toNat by simp [writeWords], cutGap_append (colon_not_mem_hexDigits _)]
    rcases hr with rfl | ⟨t, rfl⟩ <;> simp [cutGap]
  | w :: v :: words => by
    have ih := cutGap_writeWords hr (v :: words)
    have text : writeWords (w :: v :: words) = Ascii.hexDigits w.toNat ++ ':' :: writeWords (v :: words) := by
      simp [writeWords, List.intercalate_cons_cons]
    obtain ⟨c, t, start, hc⟩ : ∃ c t, writeWords (v :: words) = c :: t ∧ c ≠ ':' := by
      obtain ⟨c, t, hv⟩ := List.exists_cons_of_ne_nil (toDigits_ne_nil (show 1 < 16 by decide) v.toNat)
      have hc : c ≠ ':' := by
        rintro rfl
        refine colon_not_mem_hexDigits v.toNat ?_
        rw [Ascii.hexDigits, hv]
        exact List.mem_cons_self
      cases words with
      | nil => exact ⟨c, t, by simp [writeWords, Ascii.hexDigits, hv], hc⟩
      | cons u words => exact ⟨c, _,
          by rw [writeWords]; simp [List.intercalate_cons_cons, Ascii.hexDigits, hv]; rfl, hc⟩
    rw [start, List.cons_append] at ih
    rw [text, start, List.append_assoc, cutGap_append (colon_not_mem_hexDigits _), List.cons_append, List.cons_append,
      cutGap_colon hc, ih]

theorem eq_replicate_zeros (words : List UInt16) :
    words = List.replicate (zeros words) 0 ++ words.drop (zeros words) := by
  induction words with
  | nil => rfl
  | cons w words ih =>
    by_cases hw : w = 0
    · subst hw
      have : zeros (0 :: words) = zeros words + 1 := by simp [zeros]
      rw [this, List.replicate_succ, List.cons_append, List.drop_succ_cons, ← ih]
    · have : zeros (w :: words) = 0 := by simp [zeros, hw]
      rw [this]
      rfl

theorem eq_replicate_longestRun (words : List UInt16) : words =
    words.take (longestRun words).1 ++
      (List.replicate (longestRun words).2 0 ++ words.drop ((longestRun words).1 + (longestRun words).2)) := by
  induction words with
  | nil => rfl
  | cons w words ih =>
    rw [longestRun]
    split
    · simpa using eq_replicate_zeros (w :: words)
    · rw [List.take_succ_cons, List.cons_append, Nat.add_right_comm, List.drop_succ_cons, ← ih]

theorem allWords?_write (address : Address) : allWords? (write address) = some address.toList := by
  rw [write]
  dsimp only
  split
  · next short =>
    have cut := cutGap_writeWords (.inl rfl) address.toList
    rw [List.append_nil] at cut
    rw [allWords?, cut]
    exact side?_writeWords true _
  · next long =>
    have whole := eq_replicate_longestRun address.toList
    have length : address.toList.length = 8 := address.length_toList
    generalize longestRun address.toList = run at whole long ⊢
    obtain ⟨place, size⟩ := run
    dsimp only at whole long ⊢
    have count := congrArg List.length whole
    simp only [List.length_append, List.length_replicate, length] at count
    have cut := cutGap_writeWords (.inr ⟨writeWords (address.toList.drop (place + size)), rfl⟩)
      (address.toList.take place)
    rw [allWords?, cut]
    simp only [cutGap, side?_writeWords, Option.bind_eq_bind, Option.bind_some]
    rw [if_neg (by omega), show 8 - ((address.toList.take place).length + (address.toList.drop (place + size)).length) =
      size by omega, List.append_assoc, ← whole]
    rfl

theorem parse?_write (address : Address) : parse? (write address) = some address := by
  have words : address.toList.toArray = address.toArray := rfl
  rw [parse?, allWords?_write]
  simp [words]

end Ipv6

end SearchRelay
