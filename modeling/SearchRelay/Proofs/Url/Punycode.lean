import Mathlib.Data.List.InsertIdx
import Mathlib.Tactic.IntervalCases
import Mathlib.Tactic.Ring
import SearchRelay.Proofs.Text.Utf8
import SearchRelay.Url.Punycode

/-!
# Reading Punycode back

A label is read as it was written. After each number the reader has the label
without the characters that are still to come, and the distance that the writer
counts is what the reader has to go from its last character to the next one.
-/

namespace SearchRelay.Punycode

/-! ## Digits -/

theorem digit?_digitChar {d : Nat} (h : d < 36) : digit? (digitChar d) = some d := by
  interval_cases d <;> rfl

theorem threshold_le (bias k : Nat) : threshold bias k ≤ 26 := Nat.min_le_left _ _

theorem mem_writeNumber {bias k q : Nat} {c : Char} (h : c ∈ writeNumber bias k q) : ∃ d < 36, c = digitChar d := by
  fun_induction writeNumber bias k q with
  | case1 k q t lt =>
    have := threshold_le bias k
    exact ⟨q, by omega, List.mem_singleton.1 h⟩
  | case2 k q t ge ih =>
    have := threshold_le bias k
    have := Nat.mod_lt (q - t) (show 0 < 36 - t by omega)
    rcases List.mem_cons.1 h with rfl | h
    · exact ⟨_, by omega, rfl⟩
    · exact ih h

theorem writeNumber_ne_nil (bias k q : Nat) : writeNumber bias k q ≠ [] := by
  rw [writeNumber]
  split <;> exact List.cons_ne_nil _ _

theorem readNumber_writeNumber (bias k q weight sum : Nat) (rest : List Char) :
    readNumber bias k weight sum (writeNumber bias k q ++ rest) = some (sum + q * weight, rest) := by
  fun_induction writeNumber bias k q generalizing weight sum with
  | case1 k q t lt =>
    have := threshold_le bias k
    rw [List.singleton_append, readNumber, digit?_digitChar (by omega)]
    exact if_pos lt
  | case2 k q t ge ih =>
    have := threshold_le bias k
    have := Nat.mod_lt (q - t) (show 0 < 36 - t by omega)
    have whole : q = t + (q - t) % (36 - t) + (36 - t) * ((q - t) / (36 - t)) := by
      have := Nat.mod_add_div (q - t) (36 - t)
      omega
    rw [List.cons_append, readNumber, digit?_digitChar (by omega)]
    dsimp only
    rw [if_neg (by omega), ih]
    have sum : sum + (t + (q - t) % (36 - t)) * weight + (q - t) / (36 - t) * (weight * (36 - t)) =
        sum + (t + (q - t) % (36 - t) + (36 - t) * ((q - t) / (36 - t))) * weight := by ring
    rw [sum, ← whole]

/-! ## One character -/

/-- Where a reader stands that has read what a writer has written: the last point, the place behind it and the
label so far. -/
structure Meets (start : List Char) (p : Progress) (point i : Nat) (label : List Char) : Prop where
  read : ∀ rest, insertAll 72 128 0 start (p.digits ++ rest) = insertAll p.bias point i label rest
  count : p.count = label.length
  first : p.first = (i == 0)

theorem insertIdx_length (after : List Char) (c : Char) : ∀ before : List Char,
    (before ++ after).insertIdx before.length c = before ++ c :: after
  | [] => rfl
  | b :: before => congrArg (b :: ·) (insertIdx_length after c before)

theorem insertAll_writeNumber (bias : Nat) {point point' i place q : Nat} {label : List Char}
    (way : point * (label.length + 1) + i + q = point' * (label.length + 1) + place) (hp : point ≤ point')
    (inside : place ≤ label.length) (valid : point'.isValidChar) (rest : List Char) :
    insertAll bias point i label (writeNumber bias 36 q ++ rest) =
      insertAll (adapt q (label.length + 1) (i == 0)) point' (place + 1)
        (label.insertIdx place (Char.ofNat point')) rest := by
  have distance : i + q = place + (label.length + 1) * (point' - point) := by
    obtain ⟨k, rfl⟩ := Nat.exists_eq_add_of_le hp
    rw [Nat.add_sub_cancel_left]
    have : (point + k) * (label.length + 1) = point * (label.length + 1) + (label.length + 1) * k := by ring
    omega
  have quotient : (i + q) / (label.length + 1) = point' - point := by
    rw [distance, Nat.add_mul_div_left _ _ (Nat.succ_pos _), Nat.div_eq_of_lt (by omega), Nat.zero_add]
  have remainder : (i + q) % (label.length + 1) = place := by
    rw [distance, Nat.add_mul_mod_self_left, Nat.mod_eq_of_lt (by omega)]
  have number : readNumber bias 36 1 i (writeNumber bias 36 q ++ rest) = some (i + q, rest) := by
    rw [readNumber_writeNumber, Nat.mul_one]
  rw [insertAll, if_neg (by simp [writeNumber_ne_nil])]
  split
  · next h => rw [number] at h; cases h
  · next h =>
    rw [number] at h
    cases h
    dsimp only
    rw [quotient, remainder, Nat.add_sub_cancel' hp, if_pos valid, Nat.add_sub_cancel_left]

def before (point : Nat) (label : List Char) : List Char := label.filter (·.toNat < point)

def upTo (point : Nat) (label : List Char) : List Char := label.filter (·.toNat ≤ point)

/-- What holds while a point is placed: of what has been passed the characters up to it are in the label, of
what comes those before it, and the way to the present place is what is left of the distance. -/
structure Placing (start : List Char) (point : Nat) (passed coming : List Char) (p : Progress)
    (last i : Nat) : Prop where
  meets : Meets start p last i (upTo point passed ++ before point coming)
  order : last ≤ point
  way : last * (p.count + 1) + i + p.delta = point * (p.count + 1) + (upTo point passed).length

theorem placing_pass {start passed coming : List Char} {point last i : Nat} {p : Progress} {c : Char}
    (h : Placing start point passed (c :: coming) p last i) :
    ∃ last i, Placing start point (passed ++ [c]) coming (pass point p c) last i := by
  obtain ⟨⟨read, count, first⟩, order, way⟩ := h
  unfold pass
  split
  · next lt =>
    have hb : before point (c :: coming) = c :: before point coming := List.filter_cons_of_pos (by simpa using lt)
    have hu : upTo point (passed ++ [c]) = upTo point passed ++ [c] := by simp [upTo, Nat.le_of_lt lt]
    have same : upTo point (passed ++ [c]) ++ before point coming =
        upTo point passed ++ before point (c :: coming) := by
      rw [hb, hu, List.append_assoc, List.singleton_append]
    refine ⟨last, i, ⟨?_, ?_, first⟩, order, ?_⟩
    · rwa [same]
    · rwa [same]
    · dsimp only
      rw [hu, List.length_append, List.length_singleton]
      omega
  split
  · next ge eq =>
    have hb : before point (c :: coming) = before point coming := List.filter_cons_of_neg (by simpa using ge)
    have hu : upTo point (passed ++ [c]) = upTo point passed ++ [c] := by simp [upTo, Nat.le_of_eq eq]
    rw [hb] at read count
    have valid : point.isValidChar := eq ▸ c.valid
    have inside : (upTo point passed).length ≤ (upTo point passed ++ before point coming).length := by
      rw [List.length_append]
      omega
    have number := insertAll_writeNumber p.bias (count ▸ way) order inside valid
    have inserted : (upTo point passed ++ before point coming).insertIdx (upTo point passed).length (Char.ofNat point) =
        upTo point (passed ++ [c]) ++ before point coming := by
      rw [insertIdx_length, hu, ← eq, Char.ofNat_toNat, List.append_assoc, List.singleton_append]
    refine ⟨point, (upTo point passed).length + 1, ⟨fun rest => ?_, ?_, rfl⟩, Nat.le_refl _, ?_⟩
    · dsimp only
      rw [List.append_assoc, read, number, inserted, ← count, first]
    · dsimp only
      rw [count, hu]
      simp
      omega
    · dsimp only
      rw [hu]
      simp
  · next ge ne =>
    have hb : before point (c :: coming) = before point coming := List.filter_cons_of_neg (by simpa using ge)
    have hu : upTo point (passed ++ [c]) = upTo point passed := by
      have : ¬c.toNat ≤ point := by omega
      simp [upTo, this]
    rw [hb] at read count
    refine ⟨last, i, ⟨?_, ?_, first⟩, order, ?_⟩
    · rwa [hu]
    · rwa [hu]
    · rwa [hu]

theorem placing_passes {start : List Char} {point : Nat} : ∀ {coming passed : List Char} {p : Progress}
    {last i : Nat},
    Placing start point passed coming p last i →
      ∃ last i, Placing start point (passed ++ coming) [] (coming.foldl (pass point) p) last i
  | [], passed, p, last, i, h => by
    rw [List.append_nil]
    exact ⟨last, i, h⟩
  | c :: coming, passed, p, last, i, h => by
    obtain ⟨_, _, h⟩ := placing_pass h
    obtain ⟨last, i, h⟩ := placing_passes h
    refine ⟨last, i, ?_⟩
    rwa [List.append_assoc, List.singleton_append] at h

/-! ## All points -/

theorem before_eq_of_gap {label : List Char} {n m : Nat} (hn : n ≤ m)
    (gap : ∀ c ∈ label, c.toNat < m → c.toNat < n) :
    before m label = before n label := by
  refine List.filter_congr fun c hc => ?_
  rw [decide_eq_decide]
  exact ⟨gap c hc, fun h => Nat.lt_of_lt_of_le h hn⟩

theorem insertAll_place {start label : List Char} : ∀ {points : List Nat} {next last i : Nat} {p : Progress},
    points.Pairwise (· < ·) → (∀ point ∈ points, next ≤ point) →
      (∀ c ∈ label, c.toNat < next ∨ c.toNat ∈ points) →
    Meets start p last i (before next label) → last ≤ next →
      last * (p.count + 1) + i + p.delta = next * (p.count + 1) →
      insertAll 72 128 0 start (place label next points p) = some label
  | [], next, last, i, p, _, _, all, meets, _, _ => by
    have whole : before next label = label := List.filter_eq_self.2 fun c hc => by simpa using all c hc
    have read := meets.read []
    rw [List.append_nil] at read
    rw [place, read, whole, insertAll]
    rfl
  | point :: points, next, last, i, p, sorted, low, all, meets, order, way => by
    have hn := low point List.mem_cons_self
    obtain ⟨above, sorted⟩ := List.pairwise_cons.1 sorted
    have gap : before point label = before next label := by
      refine before_eq_of_gap hn fun c hc lt => (all c hc).resolve_right fun hm => ?_
      rcases List.mem_cons.1 hm with eq | hm
      · omega
      · have := above _ hm
        omega
    have same : upTo point [] ++ before point label = before next label := gap
    have begins : Placing start point [] label { p with delta := p.delta + (point - next) * (p.count + 1) } last i := by
      refine ⟨⟨fun rest => ?_, ?_, meets.first⟩, Nat.le_trans order hn, ?_⟩
      · rw [same]
        exact meets.read rest
      · rw [same]
        exact meets.count
      · obtain ⟨k, rfl⟩ := Nat.exists_eq_add_of_le hn
        dsimp only [upTo, List.filter_nil, List.length_nil]
        have : (next + k) * (p.count + 1) = next * (p.count + 1) + k * (p.count + 1) := by ring
        rw [Nat.add_sub_cancel_left]
        omega
    obtain ⟨last, i, ⟨⟨read, count, first⟩, order, way⟩⟩ := placing_passes begins
    have placed : upTo point ([] ++ label) ++ before point [] = before (point + 1) label := by
      simp only [upTo, before, List.nil_append, List.filter_nil, List.append_nil, Nat.lt_succ_iff]
    have length : (upTo point ([] ++ label)).length = (before (point + 1) label).length := by
      rw [← placed]; simp [before]
    rw [placed] at read count
    rw [place]
    refine insertAll_place sorted above (fun c hc => ?_) ⟨read, count, first⟩ (Nat.le_succ_of_le order) ?_
    · rcases all c hc with lt | hm
      · exact .inl (by omega)
      · rcases List.mem_cons.1 hm with eq | hm
        · exact .inl (by omega)
        · exact .inr hm
    · dsimp only
      rw [length, ← count] at way
      rw [Nat.succ_mul]
      omega

theorem pairwise_eraseDups {l : List Nat} (h : l.Pairwise (· ≤ ·)) : l.eraseDups.Pairwise (· < ·) := by
  induction hl : l.length using Nat.strongRecOn generalizing l with
  | ind n ih =>
    cases l with
    | nil => exact .nil
    | cons a l =>
      obtain ⟨low, h⟩ := List.pairwise_cons.1 h
      have shorter := List.length_filter_le (fun b => !b == a) l
      rw [List.length_cons] at hl
      rw [List.eraseDups_cons]
      refine List.pairwise_cons.2 ⟨fun b hb => ?_, ih _ (by omega) (h.filter _) rfl⟩
      rw [List.mem_eraseDups, List.mem_filter] at hb
      have := low b hb.1
      have : b ≠ a := by simpa using hb.2
      omega

/-! ## Whole labels -/

theorem points_spec (label : List Char) :
    let points := ((label.filter (!isBasic ·)).map Char.toNat).mergeSort.eraseDups
    points.Pairwise (· < ·) ∧ ∀ point, point ∈ points ↔
      128 ≤ point ∧ ∃ c ∈ label, c.toNat = point := by
  refine ⟨pairwise_eraseDups ?_, fun point => ?_⟩
  · have sorted : (((label.filter (!isBasic ·)).map Char.toNat).mergeSort).Pairwise fun a b =>
      decide (a ≤ b) = true :=
      List.pairwise_mergeSort (fun a b c => by simpa using Nat.le_trans) (fun a b => by simpa using Nat.le_total a b) _
    exact sorted.imp fun h => by simpa using h
  · simp only [List.mem_eraseDups, List.mem_mergeSort, List.mem_map, List.mem_filter, isBasic]
    constructor
    · rintro ⟨c, ⟨hc, high⟩, rfl⟩
      exact ⟨by simpa using high, c, hc, rfl⟩
    · rintro ⟨high, c, hc, rfl⟩
      exact ⟨c, ⟨hc, by simpa using high⟩, rfl⟩

theorem mem_passes {point : Nat} {label : List Char} {p : Progress} {c : Char}
    (h : c ∈ (label.foldl (pass point) p).digits) : c ∈ p.digits ∨ ∃ d < 36, c = digitChar d := by
  induction label generalizing p with
  | nil => exact .inl h
  | cons x label ih =>
    rcases ih h with h | h
    · unfold pass at h
      split at h
      · exact .inl h
      split at h
      · exact (List.mem_append.1 h).imp_right mem_writeNumber
      · exact .inl h
    · exact .inr h

theorem mem_place {label : List Char} {points : List Nat} {next : Nat} {p : Progress} {c : Char}
    (h : c ∈ place label next points p) : c ∈ p.digits ∨ ∃ d < 36, c = digitChar d := by
  induction points generalizing next p with
  | nil => exact .inl h
  | cons point points ih =>
    rcases ih h with h | h
    · rcases mem_passes h with h | h
      · exact .inl h
      · exact .inr h
    · exact .inr h

theorem mem_encode {label : List Char} {c : Char} (h : c ∈ encode label) :
    (c ∈ label ∧ isBasic c = true) ∨ c = '-' ∨ ∃ d < 36, c = digitChar d := by
  simp only [encode, List.mem_append] at h
  rcases h with (h | h) | h
  · exact .inl (List.mem_filter.1 h)
  · split at h
    · cases h
    · exact .inr (.inl (List.mem_singleton.1 h))
  · exact .inr (.inr ((mem_place h).resolve_left List.not_mem_nil))

theorem hyphen_not_mem_place (label : List Char) (next : Nat) (points : List Nat) {p : Progress} (h : p.digits = []) :
    '-' ∉ place label next points p := by
  intro hc
  obtain ⟨d, hd, eq⟩ := (mem_place hc).resolve_left (by simp [h])
  interval_cases d <;> exact absurd eq (by decide)

theorem takeWhile_reverse {digits rest : List Char} (h : '-' ∉ digits)
    (hr : rest = [] ∨ ∃ basic, rest = basic ++ ['-']) :
    ((rest ++ digits).reverse.takeWhile (· != '-')).reverse = digits := by
  have all : ∀ c ∈ digits.reverse, (c != '-') = true := by
    intro c hc
    rw [bne_iff_ne]
    rintro rfl
    exact h (List.mem_reverse.1 hc)
  rw [List.reverse_append, List.takeWhile_append_of_pos all]
  rcases hr with rfl | ⟨basic, rfl⟩ <;> simp

theorem decode?_encode (label : List Char) : decode? (encode label) = some label := by
  obtain ⟨sorted, mem⟩ := points_spec label
  have meets : Meets (label.filter isBasic) ⟨0, 72, (label.filter isBasic).length, true, []⟩
      128 0 (before 128 label) :=
    ⟨fun _ => rfl, rfl, rfl⟩
  have noHyphen := hyphen_not_mem_place label 128 ((label.filter (!isBasic ·)).map Char.toNat).mergeSort.eraseDups
    (p := ⟨0, 72, (label.filter isBasic).length, true, []⟩) rfl
  have placed := insertAll_place sorted (fun point h => ((mem point).1 h).1)
    (fun c hc => (Nat.lt_or_ge c.toNat 128).imp_right fun ge => (mem _).2 ⟨ge, c, hc, rfl⟩)
    meets (Nat.le_refl _) rfl
  unfold encode
  dsimp only
  generalize place label 128 _ _ = digits at noHyphen placed ⊢
  generalize label.filter isBasic = basic at placed ⊢
  cases basic with
  | nil =>
    have tail := takeWhile_reverse noHyphen (.inl rfl)
    rw [List.nil_append] at tail
    simp only [List.isEmpty_nil, if_true, List.nil_append, decode?, cutLastHyphen, tail]
    simpa using placed
  | cons b basic =>
    have tail := takeWhile_reverse noHyphen (.inr ⟨b :: basic, rfl⟩)
    have cut : cutLastHyphen (b :: basic ++ ['-'] ++ digits) = (b :: basic, digits) := by
      rw [cutLastHyphen, tail, Prod.mk.injEq]
      refine ⟨?_, rfl⟩
      have : (b :: basic ++ ['-'] ++ digits).length - digits.length - 1 = (b :: basic).length := by
        simp only [List.length_append, List.length_singleton]
        omega
      rw [this, List.append_assoc, List.take_left]
    simp only [List.isEmpty_cons, if_false, Bool.false_eq_true, decode?, cut]
    exact placed

/-! ## How long a label becomes -/

theorem three_le_writeNumber (bias : Nat) {q : Nat} (h : 911 ≤ q) : 3 ≤ (writeNumber bias 36 q).length := by
  have positive := threshold_pos bias 36
  have small := threshold_le bias 36
  have small' := threshold_le bias (36 + 36)
  have second : 26 ≤ (q - threshold bias 36) / (36 - threshold bias 36) := by
    rw [Nat.le_div_iff_mul_le (by omega)]
    omega
  have third := List.length_pos_iff.2 (writeNumber_ne_nil bias (36 + 36 + 36)
    (((q - threshold bias 36) / (36 - threshold bias 36) - threshold bias (36 + 36)) / (36 - threshold bias (36 + 36))))
  rw [writeNumber, if_neg (by omega), List.length_cons, writeNumber, if_neg (by omega), List.length_cons]
  omega

theorem passes_below {point : Nat} {label : List Char} (h : ∀ c ∈ label, c.toNat < point) (p : Progress) :
    label.foldl (pass point) p = { p with delta := p.delta + label.length } := by
  induction label generalizing p with
  | nil => rfl
  | cons c label ih =>
    rw [List.foldl_cons, pass, if_pos (h c List.mem_cons_self), ih fun d hd => h d (List.mem_cons_of_mem _ hd)]
    simp only [List.length_cons, Progress.mk.injEq, and_self, and_true]
    omega

theorem passes_above {point : Nat} {label : List Char} (h : ∀ c ∈ label, point < c.toNat) (p : Progress) :
    label.foldl (pass point) p = p := by
  induction label with
  | nil => rfl
  | cons c label ih =>
    have := h c List.mem_cons_self
    rw [List.foldl_cons, pass, if_neg (by omega), if_neg (by omega), ih fun d hd => h d (List.mem_cons_of_mem _ hd)]

/-- Of characters that are far apart every number from the thirty-third on has three digits. -/
theorem le_length_place {before after : List Char} {next : Nat} {p : Progress}
    (below : ∀ c ∈ before, c.toNat < next)
    (start : ∀ c ∈ after, next + 28 ≤ c.toNat) (apart : after.Pairwise fun c d => c.toNat + 29 ≤ d.toNat) :
    p.digits.length + 3 * (after.length - (32 - p.count)) ≤
      (place (before ++ after) next (after.map Char.toNat) p).length := by
  induction after generalizing before next p with
  | nil => simp [place]
  | cons c after ih =>
    have far := start c List.mem_cons_self
    obtain ⟨above, apart⟩ := List.pairwise_cons.1 apart
    have low : ∀ d ∈ before, d.toNat < c.toNat := fun d hd => by
      have := below d hd
      omega
    have high : ∀ d ∈ after, c.toNat < d.toNat := fun d hd => by
      have := above d hd
      omega
    have passes : ∀ delta, (before ++ c :: after).foldl (pass c.toNat) { p with delta := delta } =
        ⟨0, adapt (delta + before.length) (p.count + 1) p.first, p.count + 1, false,
          p.digits ++ writeNumber p.bias 36 (delta + before.length)⟩ := by
      intro delta
      rw [List.foldl_append, passes_below low, List.foldl_cons, pass, if_neg (Nat.lt_irrefl _), if_pos rfl,
        passes_above high]
    have digits : 32 ≤ p.count →
        3 ≤ (writeNumber p.bias 36 (p.delta + (c.toNat - next) * (p.count + 1) + before.length)).length := by
      intro many
      have := Nat.mul_le_mul (show 28 ≤ c.toNat - next by omega) (show 33 ≤ p.count + 1 by omega)
      exact three_le_writeNumber p.bias (by omega)
    rw [List.map_cons, place, passes, ← List.singleton_append, ← List.append_assoc]
    refine Nat.le_trans ?_ (ih ?_ ?_ apart)
    · simp only [List.length_append, List.length_cons, List.length_nil]
      rcases Nat.lt_or_ge p.count 32 with few | many
      · omega
      · have := digits many
        omega
    · intro d hd
      rcases List.mem_append.1 hd with hd | hd
      · exact Nat.lt_succ_of_lt (low d hd)
      · rw [List.mem_singleton.1 hd]
        exact Nat.lt_succ_self _
    · intro d hd
      have := above d hd
      omega

theorem eraseDups_eq_self {l : List Nat} (h : l.Nodup) : l.eraseDups = l := by
  induction l with
  | nil => rfl
  | cons a l ih =>
    obtain ⟨fresh, h⟩ := List.nodup_cons.1 h
    have keep : l.filter (fun b => !b == a) = l := by
      refine List.filter_eq_self.2 fun b hb => ?_
      have : b ≠ a := fun he => fresh (he ▸ hb)
      simpa using this
    rw [List.eraseDups_cons, keep, ih h]

/-- A label of characters that are far apart and beyond ASCII gets three digits for most of them. -/
theorem le_length_encode {label : List Char} (high : ∀ c ∈ label, 156 ≤ c.toNat)
    (apart : label.Pairwise fun c d => c.toNat + 29 ≤ d.toNat) :
    3 * (label.length - 32) ≤ (encode label).length := by
  have none : label.filter isBasic = [] := List.filter_eq_nil_iff.2 fun c hc => by
    have := high c hc
    simp [isBasic]
    omega
  have all : label.filter (!isBasic ·) = label := List.filter_eq_self.2 fun c hc => by
    have := high c hc
    simp [isBasic]
    omega
  have sorted : (label.map Char.toNat).Pairwise (· < ·) :=
    List.pairwise_map.2 (apart.imp fun {c d} h => by omega)
  have points : (label.map Char.toNat).mergeSort.eraseDups = label.map Char.toNat := by
    rw [List.mergeSort_of_pairwise (sorted.imp fun h => by simpa using Nat.le_of_lt h),
      eraseDups_eq_self (sorted.imp Nat.ne_of_lt)]
  have placed := le_length_place (p := ⟨0, 72, 0, true, []⟩)
    (show ∀ c ∈ ([] : List Char), c.toNat < 128 by simp) high apart
  simpa [encode, none, all, points] using placed

end SearchRelay.Punycode
