import SearchRelay.Proofs.Url.Hosts

/-!
# The limited conversion

The conversion of names in stable characters obeys the laws of conversions. A
name consists of the labels that the text had, each written from a source that
is told from the label again; the digits of a label may be too many to be read.
-/

namespace SearchRelay.Url.ToAscii

/-! ## Characters -/

theorem isBasic_of_isForbidden {c : Char} (h : Domain.isForbidden c = true) : Punycode.isBasic c = true := by
  simp only [Domain.isForbidden, Bool.or_eq_true, decide_eq_true_eq, beq_iff_eq] at h
  simp only [Punycode.isBasic, decide_eq_true_eq]
  rcases h with ((((((((((((((h | h) | rfl) | rfl) | rfl) | rfl) | rfl) | rfl) | rfl) | rfl) | rfl) | rfl) | rfl) |
    rfl) | rfl) | rfl
  · omega
  · omega
  all_goals decide

theorem not_isForbidden_of_isAllowed {c : Char} (h : isAllowed c = true) : Domain.isForbidden c = false := by
  rw [← Bool.not_eq_true]
  intro forbidden
  rw [isAllowed, if_pos (isBasic_of_isForbidden forbidden), forbidden] at h
  cases h

theorem isUpper_of_isForbidden {c : Char} (h : Domain.isForbidden c = true) : Ascii.isUpper c = false :=
  Ascii.of_isBasic (q := fun c => Domain.isForbidden c = true → Ascii.isUpper c = false) (by decide)
    (isBasic_of_isForbidden h) h

theorem lower_of_isBasic {c : Char} (h : Punycode.isBasic c = true) (hf : Domain.isForbidden c = false) :
    Punycode.isBasic (Ascii.lower c) = true ∧ Domain.isForbidden (Ascii.lower c) = false :=
  Ascii.of_isBasic (q := fun c => Domain.isForbidden c = false →
    Punycode.isBasic (Ascii.lower c) = true ∧ Domain.isForbidden (Ascii.lower c) = false) (by decide) h hf

/-- A character of a name that has been written. -/
structure IsLabelChar (c : Char) : Prop where
  basic : Punycode.isBasic c = true
  small : Ascii.isUpper c = false
  allowed : Domain.isForbidden c = false
  inside : c ≠ '.'

theorem IsLabelChar.isAllowed {c : Char} (h : IsLabelChar c) : isAllowed c = true := by
  rw [ToAscii.isAllowed, if_pos h.basic, h.allowed]
  rfl

theorem isLabelChar_digitChar {d : Nat} (h : d < 36) : IsLabelChar (Punycode.digitChar d) := by
  have all : ∀ d < 36, Punycode.isBasic (Punycode.digitChar d) = true ∧
    Ascii.isUpper (Punycode.digitChar d) = false ∧
      Domain.isForbidden (Punycode.digitChar d) = false ∧ Punycode.digitChar d ≠ '.' := by decide
  obtain ⟨basic, small, allowed, inside⟩ := all d h
  exact ⟨basic, small, allowed, inside⟩

theorem isLabelChar_of_mark {c : Char} (h : c ∈ ['x', 'n', '-']) : IsLabelChar c := by
  simp only [List.mem_cons, List.not_mem_nil, or_false] at h
  rcases h with rfl | rfl | rfl <;> constructor <;> decide

theorem isLabelChar_of_marked {c : Char} {digits : List Char} (h : c ∈ 'x' :: 'n' :: '-' :: '-' :: digits) :
    IsLabelChar c ∨ c ∈ digits := by
  rcases List.mem_append.1 (show c ∈ ['x', 'n', '-', '-'] ++ digits from h) with mark | h
  · exact .inl (isLabelChar_of_mark (by simpa using mark))
  · exact .inr h

/-! ## Labels -/

/-- What a label is made from: small letters that are allowed, ASCII or not, and no dots. -/
structure IsSource (label : List Char) : Prop where
  small : ∀ c ∈ label, Ascii.isUpper c = false
  allowed : ∀ c ∈ label, isAllowed c = true
  inside : '.' ∉ label

section
variable {label written : List Char} (h : IsSource label)
include h

theorem IsSource.isLabelChar {c : Char} (hc : c ∈ label) (basic : Punycode.isBasic c = true) : IsLabelChar c :=
  ⟨basic, h.small c hc, not_isForbidden_of_isAllowed (h.allowed c hc), fun dot => h.inside (dot ▸ hc)⟩

theorem isLabelChar_of_asciiLabel? (hw : asciiLabel? label = some written) {c : Char} (hc : c ∈ written) :
    IsLabelChar c := by
  unfold asciiLabel? at hw
  split at hw
  · next digits =>
    obtain ⟨text, ht, rfl⟩ := Option.map_eq_some_iff.1 hw
    refine h.isLabelChar hc ?_
    unfold unicodeLabel? at ht
    split at ht
    · next basic =>
      simp only [Bool.and_eq_true, List.all_eq_true] at basic
      rcases isLabelChar_of_marked hc with mark | hc
      · exact mark.basic
      · exact basic.1 c hc
    · cases ht
  split at hw
  · next basic =>
    cases hw
    exact h.isLabelChar hc (List.all_eq_true.1 basic c hc)
  split at hw
  · cases hw
    rcases isLabelChar_of_marked hc with mark | hc
    · exact mark
    · rcases Punycode.mem_encode hc with ⟨hm, basic⟩ | rfl | ⟨d, hd, rfl⟩
      · exact h.isLabelChar hm basic
      · exact isLabelChar_of_mark (by decide)
      · exact isLabelChar_digitChar hd
  · cases hw

theorem asciiLabel?_written (hw : asciiLabel? label = some written) (fits : Domain.LabelFits written) :
    asciiLabel? written = some written := by
  have chars : ∀ c ∈ written, IsLabelChar c := fun c hc => isLabelChar_of_asciiLabel? h hw hc
  unfold asciiLabel? at hw
  split at hw
  · next digits =>
    obtain ⟨text, ht, rfl⟩ := Option.map_eq_some_iff.1 hw
    rw [asciiLabel?, ht]
    rfl
  · next plain =>
    split at hw
    · next basic =>
      cases hw
      rw [asciiLabel?.eq_2 _ plain, if_pos basic]
    · next wide =>
      split at hw
      · next short =>
        cases hw
        have basic : (Punycode.encode label).all Punycode.isBasic = true :=
          List.all_eq_true.2 fun c hc => (chars c (by simp [hc])).basic
        have unmarked : Domain.isMarked label = false := by
          rw [← Bool.not_eq_true]
          intro marked
          obtain ⟨digits, rfl⟩ := List.isPrefixOf_iff_prefix.1 marked
          exact plain digits rfl
        have some : unicodeLabel? (Punycode.encode label) = some label := by
          rw [unicodeLabel?, basic, Punycode.decode?_encode, if_pos (by simpa using fits _ rfl)]
          refine Option.filter_eq_some_iff.2 ⟨rfl, ?_⟩
          have beyond : label.any (!Punycode.isBasic ·) = true := by simpa using wide
          simp [beyond, List.all_eq_true.2 h.allowed, unmarked, short]
        rw [asciiLabel?, some]
        rfl
      · cases hw

end

theorem asciiLabel?_eq_none {label : List Char} (h : ¬Domain.LabelFits label) : asciiLabel? label = none := by
  simp only [Domain.LabelFits, not_forall] at h
  obtain ⟨digits, rfl, long⟩ := h
  rw [asciiLabel?, unicodeLabel?, if_neg (by simp [long])]
  rfl

/-! ## Names -/

theorem limited_intercalate {labels : List (List Char)} (nonempty : labels ≠ [])
    (chars : ∀ label ∈ labels, ∀ c ∈ label, IsLabelChar c) : limited (Utf8.encode (['.'].intercalate labels)) =
      (labels.mapM asciiLabel?).map ['.'].intercalate := by
  have each : ∀ c ∈ ['.'].intercalate labels, isAllowed c = true ∧ Ascii.isUpper c = false := by
    intro c hc
    rcases mem_intercalate hc with rfl | ⟨label, hl, hc⟩
    · decide
    · exact ⟨(chars label hl c hc).isAllowed, (chars label hl c hc).small⟩
  have small : (['.'].intercalate labels).map Ascii.lower = ['.'].intercalate labels :=
    Ascii.map_lower_eq_self fun c hc => (each c hc).2
  have pieces : (['.'].intercalate labels).splitOn '.' = labels :=
    List.splitOn_intercalate '.' (fun label hl hc => (chars label hl _ hc).inside rfl) nonempty
  have allowed : (['.'].intercalate labels).all isAllowed = true := List.all_eq_true.2 fun c hc => (each c hc).1
  simp only [limited, Utf8.decodeLossy_encode, small, allowed, pieces]
  cases labels.mapM asciiLabel? <;> rfl

theorem mapM_eq_some_self {labels : List (List Char)} (h : ∀ label ∈ labels, asciiLabel? label = some label) :
    labels.mapM asciiLabel? = some labels := by
  induction labels with
  | nil => rfl
  | cons label labels ih =>
    rw [List.mapM_cons, h label List.mem_cons_self, ih fun l hl => h l (List.mem_cons_of_mem _ hl)]
    rfl

theorem mapM_eq_none {labels : List (List Char)} {label : List Char} (hl : label ∈ labels)
    (h : asciiLabel? label = none) : labels.mapM asciiLabel? = none := by
  induction labels with
  | nil => cases hl
  | cons first labels ih =>
    rw [List.mapM_cons]
    rcases List.mem_cons.1 hl with rfl | hl
    · rw [h]
      rfl
    · rw [ih hl]
      cases asciiLabel? first <;> rfl

/-- The labels of a name, and that each of them was made of a source. -/
theorem labels_of_limited {bytes : List UInt8} {name : List Char} (h : limited bytes = some name) :
    ∃ labels, name = ['.'].intercalate labels ∧ labels ≠ [] ∧ name.splitOn '.' = labels ∧
      ∀ label ∈ labels, ∃ source, IsSource source ∧ asciiLabel? source = some label := by
  simp only [limited] at h
  split at h
  · cases h
  next allowed =>
  obtain ⟨labels, hl, he⟩ := Option.bind_eq_some_iff.1 h
  cases he
  rw [Bool.not_eq_true, Bool.not_eq_false', List.all_eq_true] at allowed
  have sources : ∀ label ∈ labels, ∃ source, IsSource source ∧ asciiLabel? source = some label := by
    intro label hm
    obtain ⟨source, hs, hlabel⟩ := exists_of_mem_mapM hl hm
    refine ⟨source, ⟨fun c hc => ?_, fun c hc => allowed c ((mem_splitOn hs).1 hc), (mem_splitOn hs).2⟩, hlabel⟩
    obtain ⟨d, _, rfl⟩ := List.mem_map.1 ((mem_splitOn hs).1 hc)
    exact Ascii.isUpper_lower d
  have nonempty : labels ≠ [] := by
    rintro rfl
    exact List.splitOn_ne_nil _ _ (List.length_eq_zero_iff.1 (length_of_mapM hl).symm)
  refine ⟨labels, rfl, nonempty, List.splitOn_intercalate '.' (fun label hm hc => ?_) nonempty, sources⟩
  obtain ⟨source, hs, hlabel⟩ := sources label hm
  exact (isLabelChar_of_asciiLabel? hs hlabel hc).inside rfl

section
variable {bytes : List UInt8} {labels : List (List Char)} {name text : List Char} {c : Char}

theorem labelChars (sources : ∀ label ∈ labels, ∃ source, IsSource source ∧ asciiLabel? source = some label) :
    ∀ label ∈ labels, ∀ c ∈ label, IsLabelChar c := by
  intro label hl c hc
  obtain ⟨source, hs, hlabel⟩ := sources label hl
  exact isLabelChar_of_asciiLabel? hs hlabel hc

theorem limited_output (h : limited bytes = some name) :
    ∀ c ∈ name, Punycode.isBasic c = true ∧ Domain.isForbidden c = false := by
  intro c hc
  obtain ⟨labels, rfl, -, -, sources⟩ := labels_of_limited h
  rcases mem_intercalate hc with rfl | ⟨label, hl, hc⟩
  · decide
  · exact ⟨(labelChars sources label hl c hc).basic, (labelChars sources label hl c hc).allowed⟩

theorem limited_ascii (plain : ∀ c ∈ text, Punycode.isBasic c = true ∧ Domain.isForbidden c = false)
    (unmarked : ∀ label ∈ (text.map Ascii.lower).splitOn '.', Domain.isMarked label = false) :
    limited (Utf8.encode text) = some (text.map Ascii.lower) := by
  have chars : ∀ c ∈ text.map Ascii.lower, Punycode.isBasic c = true ∧ isAllowed c = true := by
    intro c hc
    obtain ⟨d, hd, rfl⟩ := List.mem_map.1 hc
    obtain ⟨basic, free⟩ := lower_of_isBasic (plain d hd).1 (plain d hd).2
    exact ⟨basic, by simp [isAllowed, basic, free]⟩
  have allowed : (text.map Ascii.lower).all isAllowed = true := List.all_eq_true.2 fun c hc => (chars c hc).2
  have same : ∀ label ∈ (text.map Ascii.lower).splitOn '.', asciiLabel? label = some label := by
    intro label hl
    have basic : label.all Punycode.isBasic = true :=
      List.all_eq_true.2 fun c hc => (chars c ((mem_splitOn hl).1 hc)).1
    rw [asciiLabel?.eq_2, if_pos basic]
    rintro digits rfl
    exact absurd (unmarked _ hl) (by simp [Domain.isMarked])
  simp only [limited, Utf8.decodeLossy_encode, allowed, mapM_eq_some_self same]
  exact congrArg some (List.intercalate_splitOn '.')

theorem limited_refused (basic : Punycode.isBasic c = true) (forbidden : Domain.isForbidden c = true)
    (hc : UInt8.ofNat c.toNat ∈ bytes) : limited bytes = none := by
  have ascii : c.toNat < 128 := of_decide_eq_true basic
  have byte : (UInt8.ofNat c.toNat).toNat = c.toNat := Utf8.toNat_ofNat_byte (by omega)
  obtain ⟨a, b, rfl⟩ := List.append_of_mem hc
  have inside : c ∈ (Utf8.decodeLossy (a ++ UInt8.ofNat c.toNat :: b)).map Ascii.lower := by
    rw [Utf8.decodeLossy_ascii (by omega), byte, Char.ofNat_toNat]
    exact List.mem_map.2 ⟨c, by simp, Ascii.lower_eq_self (isUpper_of_isForbidden forbidden)⟩
  have stopped : ((Utf8.decodeLossy (a ++ UInt8.ofNat c.toNat :: b)).map Ascii.lower).all isAllowed = false :=
    List.all_eq_false.2 ⟨c, inside, by simp [isAllowed, basic, forbidden]⟩
  simp only [limited, stopped]
  rfl

theorem limited_again (h : limited bytes = some name) (fits : Domain.Fits name) :
    limited (Utf8.encode name) = some name := by
  obtain ⟨labels, rfl, nonempty, pieces, sources⟩ := labels_of_limited h
  rw [Domain.Fits, pieces] at fits
  rw [limited_intercalate nonempty (labelChars sources), mapM_eq_some_self fun label hl => ?_]
  · rfl
  · obtain ⟨source, hs, hlabel⟩ := sources label hl
    exact asciiLabel?_written hs hlabel (fits label hl)

theorem limited_limit (h : limited bytes = some name) (long : ¬Domain.Fits name) :
    limited (Utf8.encode name) = none := by
  obtain ⟨labels, rfl, nonempty, pieces, sources⟩ := labels_of_limited h
  simp only [Domain.Fits, pieces, not_forall] at long
  obtain ⟨label, hl, long⟩ := long
  rw [limited_intercalate nonempty (labelChars sources), mapM_eq_none hl (asciiLabel?_eq_none long)]
  rfl

end

theorem limited_lawful : limited.Lawful :=
  ⟨limited_output, limited_ascii, limited_refused, limited_again, limited_limit⟩

/-! ## A name that does not fit -/

/-- Characters that are far apart, so that almost each of them takes three digits in Punycode. -/
def wideLabel : List Char := (List.range 700).map fun i => Char.ofNat (0x4E00 + 29 * i)

def wideName : List Char := 'x' :: 'n' :: '-' :: '-' :: Punycode.encode wideLabel

theorem exists_of_mem_wideLabel {c : Char} (h : c ∈ wideLabel) : 0x4E00 ≤ c.toNat ∧ c.toNat ≤ 0x9FFF := by
  obtain ⟨i, hi, rfl⟩ := List.mem_map.1 h
  rw [List.mem_range] at hi
  rw [Utf8.toNat_ofNat_char (.inl (by omega))]
  omega

theorem wideLabel_source : IsSource wideLabel := by
  refine ⟨fun c hc => ?_, fun c hc => ?_, fun hc => absurd (exists_of_mem_wideLabel hc).1 (by decide)⟩
  · have high := (exists_of_mem_wideLabel hc).1
    rw [← Bool.not_eq_true]
    intro upper
    have := Ascii.toNat_of_isUpper upper
    omega
  · have range := exists_of_mem_wideLabel hc
    have beyond : Punycode.isBasic c = false := decide_eq_false (by omega)
    have stable : isStable c = true := by
      rw [isStable, Bool.or_eq_true, List.any_eq_true]
      exact .inl ⟨(0x4E00, 0x9FFF), by simp [stableRanges], by simpa using range⟩
    rw [isAllowed, beyond, stable]
    rfl

theorem wideLabel_ne_nil : wideLabel ≠ [] := by simp [wideLabel]

theorem allowed_wideLabel : ∀ c ∈ wideLabel, Domain.isForbidden c = false := fun c hc =>
  not_isForbidden_of_isAllowed (wideLabel_source.allowed c hc)

theorem asciiLabel?_wideLabel : asciiLabel? wideLabel = some wideName := by
  have first : Char.ofNat 0x4E00 ∈ wideLabel := List.mem_map.2 ⟨0, by simp, rfl⟩
  rw [asciiLabel?.eq_2, if_neg, if_pos]
  · rfl
  · simp [wideLabel, labelLimit]
  · rw [List.all_eq_true]
    exact fun all => absurd (all _ first) (by decide)
  · intro digits he
    have letter : 'x' ∈ wideLabel := he ▸ List.mem_cons_self
    exact absurd (exists_of_mem_wideLabel letter).1 (by decide)

theorem dot_not_mem_wideName : '.' ∉ wideName := fun h =>
  (isLabelChar_of_asciiLabel? wideLabel_source asciiLabel?_wideLabel h).inside rfl

theorem not_fits_wideName : ¬Domain.Fits wideName := by
  intro fits
  have short := fits wideName (by rw [List.splitOn_eq_singleton dot_not_mem_wideName]; exact List.mem_cons_self) _ rfl
  have apart : wideLabel.Pairwise fun c d => c.toNat + 29 ≤ d.toNat := by
    refine List.pairwise_map.2 (List.pairwise_lt_range.imp_of_mem fun {i j} hi hj lt => ?_)
    rw [List.mem_range] at hi hj
    rw [Utf8.toNat_ofNat_char (.inl (by omega)), Utf8.toNat_ofNat_char (.inl (by omega))]
    omega
  have long := Punycode.le_length_encode (fun c hc => Nat.le_trans (by decide) (exists_of_mem_wideLabel hc).1) apart
  rw [show wideLabel.length = 700 by simp [wideLabel]] at long
  exact absurd (Nat.le_trans long short) (by decide)

theorem limited_wideLabel : limited (Percent.decode wideLabel) = some wideName := by
  have noPercent : '%' ∉ wideLabel := fun hc => absurd (exists_of_mem_wideLabel hc).1 (by decide)
  have lower : wideLabel.map Ascii.lower = wideLabel := Ascii.map_lower_eq_self wideLabel_source.small
  have allowed : wideLabel.all isAllowed = true := List.all_eq_true.2 wideLabel_source.allowed
  simp [limited, Percent.decode_eq_encode noPercent, lower, allowed,
    List.splitOn_eq_singleton wideLabel_source.inside, asciiLabel?_wideLabel]

theorem ofDomain_wideLabel : Host.ofDomain limited wideLabel = .ok (.named wideName) := by
  have bracket : ∀ rest, wideLabel ≠ '[' :: rest := by
    intro rest he
    have mark : '[' ∈ wideLabel := he ▸ List.mem_cons_self
    exact absurd (exists_of_mem_wideLabel mark).1 (by decide)
  have name : Ipv4.endsInNumber wideName = false := by
    have letter : Ascii.isDigit 'x' = false ∧ Ipv4.digit? 10 'x' = none := by decide
    have single := List.splitOn_eq_singleton dot_not_mem_wideName
    rw [wideName] at single ⊢
    simp [Ipv4.endsInNumber, Ipv4.parts, single, Ipv4.number?, Ipv4.radix, letter]
  rw [Host.ofDomain_of_name bracket limited_wideLabel (List.cons_ne_nil _ _), name]
  rfl

end SearchRelay.Url.ToAscii
