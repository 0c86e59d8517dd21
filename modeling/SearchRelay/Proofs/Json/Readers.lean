import SearchRelay.Json.Record
import SearchRelay.Proofs.Json.Object
import SearchRelay.Proofs.Json.Skipped
import SearchRelay.Proofs.Text.Utf8

/-!
# What is read

A reader takes blanks and then a text of its grammar off the front of a text,
and says what that text says. No text that is read goes on into what follows it,
so this holds whatever stands behind.
-/

namespace SearchRelay.Json

/-- A reader takes just the texts of a grammar, and none of those is a word or a number other than null. -/
structure Reads {α : Type} (read : List Char → Except Fault (α × List Char))
    (Says : α → List Char → Prop) : Prop where
  eq_ok_iff : ∀ {s r : List Char} {a : α}, read s = .ok (a, r) ↔
    ∃ blank v, Blank blank ∧ Says a v ∧ s = blank ++ (v ++ r)
  starts : ∀ {a : α} {v : List Char}, Says a v → ∃ c t, v = c :: t ∧ c ∈ ['"', '[', '{', 'n']

theorem Reads.read_append {α : Type} {read : List Char → Except Fault (α × List Char)}
    {Says : α → List Char → Prop}
    (h : Reads read Says) {a : α} {v : List Char} (hv : Says a v) (r : List Char) : read (v ++ r) = .ok (a, r) :=
  h.eq_ok_iff.2 ⟨[], v, List.nil_subset _, hv, rfl⟩

/-! ## Strings -/

theorem CodeUnit.lt {u : List Char} {n : Nat} (h : CodeUnit u n) : n < 0x10000 := by
  have small : ∀ {c v}, HexDigit c v → v < 16 := by
    rintro c v (h | h)
    · exact (List.getElem?_eq_some_iff.1 h).1
    · exact (List.getElem?_eq_some_iff.1 h).1
  obtain ⟨ha, hb, hc, hd⟩ := h
  have := small ha
  have := small hb
  have := small hc
  have := small hd
  omega

theorem readLowSurrogate_eq_ok_iff {high : Nat} {s r : List Char} {x : Char} (lower : 0xD800 ≤ high)
    (upper : high ≤ 0xDBFF) : readLowSurrogate high s = .ok (x, r) ↔
      ∃ v low, CodeUnit v low ∧ 0xDC00 ≤ low ∧ low ≤ 0xDFFF ∧
        x.toNat = 0x10000 + 0x400 * (high - 0xD800) + (low - 0xDC00) ∧ s = '\\' :: 'u' :: (v ++ r) := by
  constructor
  · intro h
    unfold readLowSurrogate at h
    split at h
    · cases h
    · cases h
    · obtain ⟨⟨low, t⟩, hu, hk⟩ := Result.bind_eq_ok.1 h
      obtain ⟨v, hv, rfl⟩ := readUnit_eq_ok_iff.1 hu
      dsimp only at hk
      split at hk
      · next bounds =>
        simp only [pure, Except.pure, Except.ok.injEq, Prod.mk.injEq] at hk
        obtain ⟨rfl, rfl⟩ := hk
        have valid : ((high - 0xD800) * 1024 + (low - 0xDC00) + 0x10000).isValidChar := by
          unfold Nat.isValidChar
          omega
        have point := Utf8.toNat_ofNat_char valid
        exact ⟨v, low, hv, bounds.1, bounds.2, by omega, rfl⟩
      · cases hk
    · cases h
    · cases h
  · rintro ⟨v, low, hv, hlow, hhigh, hx, rfl⟩
    have unit : readUnit (v ++ r) = .ok (low, r) := readUnit_eq_ok_iff.2 ⟨v, hv, rfl⟩
    simp only [readLowSurrogate, unit, bind, Except.bind]
    rw [if_pos ⟨hlow, hhigh⟩, show (high - 0xD800) * 1024 + (low - 0xDC00) + 0x10000 = x.toNat by omega,
      Char.ofNat_toNat]
    rfl

theorem readEscape_eq_ok_iff {s r : List Char} {x : Char} :
    readEscape s = .ok (x, r) ↔ ∃ e, CharText x ('\\' :: e) ∧ s = e ++ r := by
  constructor
  · intro h
    unfold readEscape at h
    split at h
    · cases h
    next c rest =>
    split at h
    · next y hy =>
      cases h
      exact ⟨[c], .short (shortEscape?_eq_some_iff.1 hy), rfl⟩
    split at h
    · next hc =>
      obtain ⟨⟨n, t⟩, hu, hk⟩ := Result.bind_eq_ok.1 h
      obtain ⟨u, hunit, rfl⟩ := readUnit_eq_ok_iff.1 hu
      dsimp only at hk
      split at hk
      · cases hk
      split at hk
      · next high =>
        obtain ⟨v, low, hv, hl, hh, hx, rfl⟩ := (readLowSurrogate_eq_ok_iff high.1 high.2).1 hk
        exact ⟨_, .pair hunit hv high.1 high.2 hl hh hx, by simp [hc]⟩
      · next noLow noHigh =>
        cases hk
        have small := hunit.lt
        have unit : (Char.ofNat n).toNat = n := Utf8.toNat_ofNat_char (by unfold Nat.isValidChar; omega)
        exact ⟨'u' :: u, .unit (unit.symm ▸ hunit), by simp [hc]⟩
    · cases h
  · rintro ⟨e, he, rfl⟩
    cases he with
    | plain _ _ slash => exact absurd rfl slash
    | short he => exact readEscape_short (shortEscape?_eq_some_iff.2 he) r
    | @unit u hu =>
      have unit : readUnit (u ++ r) = .ok (x.toNat, r) := readUnit_eq_ok_iff.2 ⟨u, hu, rfl⟩
      have valid : x.toNat < 0xD800 ∨ 0xDFFF < x.toNat ∧ x.toNat < 0x110000 := x.valid
      have none : shortEscape? 'u' = none := rfl
      simp only [List.cons_append, readEscape, none, if_pos, unit, bind, Except.bind]
      rw [if_neg (by omega), if_neg (by omega), Char.ofNat_toNat]
      rfl
    | @pair u v high low hu hv h1 h2 h3 h4 hx =>
      have unit : readUnit (u ++ '\\' :: 'u' :: (v ++ r)) = .ok (high, '\\' :: 'u' :: (v ++ r)) :=
        readUnit_eq_ok_iff.2 ⟨u, hu, rfl⟩
      have none : shortEscape? 'u' = none := rfl
      simp only [List.cons_append, List.append_assoc, readEscape, none, if_pos, unit, bind, Except.bind]
      rw [if_neg (by omega), if_pos ⟨h1, h2⟩]
      exact (readLowSurrogate_eq_ok_iff h1 h2).2 ⟨v, low, hv, h3, h4, hx, rfl⟩

theorem readText_of_spells {text body r : List Char} (h : Spells text body) :
    readText (body ++ '"' :: r) = .ok (text, r) := by
  induction h with
  | nil => rw [List.nil_append, readText]
  | @cons x text s t hx _ ih =>
    have step : readText (s ++ (t ++ '"' :: r)) = (readText (t ++ '"' :: r)).map fun p => (x :: p.1, p.2) := by
      have escape : ∀ {e}, s = '\\' :: e →
          readText (s ++ (t ++ '"' :: r)) = (readText (t ++ '"' :: r)).map fun p => (x :: p.1, p.2) := by
        rintro e rfl
        exact readText_escape (readEscape_eq_ok_iff.2 ⟨e, hx, rfl⟩)
      cases hx with
      | plain low quote slash => exact readText_plain quote slash low _
      | short _ => exact escape rfl
      | unit _ => exact escape rfl
      | pair _ _ _ _ _ _ _ => exact escape rfl
    rw [List.append_assoc, step, ih]
    rfl

theorem readText_eq_ok_iff {s r text : List Char} :
    readText s = .ok (text, r) ↔ ∃ body, Spells text body ∧ s = body ++ '"' :: r := by
  constructor
  · intro h
    fun_induction readText s generalizing text with
    | case1 => cases h
    | case2 rest => cases h; exact ⟨[], .nil, rfl⟩
    | case3 => cases h
    | case4 rest c t hc _ ih =>
      obtain ⟨⟨text, r⟩, ht, he⟩ := Result.map_eq_ok.1 h
      cases he
      obtain ⟨body, hb, rfl⟩ := ih ht
      obtain ⟨e, he, rfl⟩ := readEscape_eq_ok_iff.1 hc
      exact ⟨_, .cons he hb, by simp⟩
    | case5 => cases h
    | case6 c rest quote slash low ih =>
      obtain ⟨⟨text, r⟩, ht, he⟩ := Result.map_eq_ok.1 h
      cases he
      obtain ⟨body, hb, rfl⟩ := ih ht
      exact ⟨_, .cons (.plain (by omega) quote slash) hb, rfl⟩
  · rintro ⟨body, hb, rfl⟩
    exact readText_of_spells hb

theorem reads_string : Reads readString Literal where
  eq_ok_iff := by
    intro s r a
    constructor
    · intro h
      unfold readString at h
      split at h
      · cases h
      · next rest hs =>
        obtain ⟨⟨text, r'⟩, ht, he⟩ := Result.map_eq_ok.1 h
        cases he
        obtain ⟨body, hbody, rfl⟩ := readText_eq_ok_iff.1 ht
        obtain ⟨blank, hb, rfl⟩ := exists_blank_of_skipSpace hs
        exact ⟨blank, _, hb, ⟨body, by rwa [String.toList_ofList], rfl⟩, by simp⟩
      · cases h
    · rintro ⟨blank, _, hb, ⟨body, hbody, rfl⟩, rfl⟩
      have text : readText (body ++ '"' :: r) = .ok (a.toList, r) := readText_eq_ok_iff.2 ⟨body, hbody, rfl⟩
      simp only [List.cons_append, List.append_assoc, List.nil_append, readString,
        skipSpace_append hb ⟨'"', _, rfl, rfl⟩, text, Except.map, String.ofList_toList]
  starts := by
    rintro a _ ⟨body, _, rfl⟩
    exact ⟨'"', body ++ ['"'], rfl, by simp⟩

/-! ## Values that may be null -/

theorem reads_orNull {α : Type} {inner : Reader α} {Says : α → List Char → Prop} (h : Reads inner.read Says)
    (notNull : ∀ a t, ¬Says a ('n' :: t)) : Reads (Reader.orNull inner).read (NullOr Says) where
  eq_ok_iff := by
    intro s r a
    constructor
    · intro ha
      simp only [Reader.orNull] at ha
      split at ha
      · next rest hs =>
        obtain ⟨r', hw, he⟩ := Result.map_eq_ok.1 ha
        cases he
        rw [readWord_eq_ok_iff] at hw
        rw [hw] at hs
        obtain ⟨blank, hb, rfl⟩ := exists_blank_of_skipSpace hs
        exact ⟨blank, _, hb, rfl, rfl⟩
      · obtain ⟨⟨b, r'⟩, hi, he⟩ := Result.map_eq_ok.1 ha
        cases he
        exact h.eq_ok_iff.1 hi
    · rintro ⟨blank, v, hb, hv, rfl⟩
      cases a with
      | none =>
        cases hv
        have null : skipSpace (blank ++ (['n', 'u', 'l', 'l'] ++ r)) = 'n' :: (['u', 'l', 'l'] ++ r) :=
          skipSpace_append hb ⟨'n', _, rfl, rfl⟩
        simp only [Reader.orNull, null]
        exact Result.map_eq_ok.2 ⟨r, readWord_eq_ok_iff.2 rfl, rfl⟩
      | some b =>
        obtain ⟨c, t, rfl, hc⟩ := h.starts hv
        have other : c ≠ 'n' := by
          rintro rfl
          exact notNull b t hv
        have solid : isSpace c = false := by
          have all : ∀ d ∈ ['"', '[', '{', 'n'], isSpace d = false := List.all_iff_forall_prop.1 (by decide)
          exact all c hc
        have read : inner.read (blank ++ (c :: t ++ r)) = .ok (b, r) := h.eq_ok_iff.2 ⟨blank, _, hb, hv, rfl⟩
        simp only [Reader.orNull]
        rw [List.cons_append, skipSpace_append hb ⟨c, _, rfl, solid⟩]
        split
        · next hs => exact absurd (List.cons.inj hs).1 other
        · exact Result.map_eq_ok.2 ⟨(b, r), read, rfl⟩
  starts := by
    rintro (_ | b) v hv
    · exact ⟨'n', _, hv, by simp⟩
    · exact h.starts hv

/-! ## Lists -/

theorem nextItem_eq_stop_iff {first : Bool} {s r : List Char} :
    nextItem first s = .ok (.stop r) ↔ ∃ blank, Blank blank ∧ s = blank ++ ']' :: r := by
  constructor
  · intro h
    unfold nextItem at h
    split at h
    · cases h
    next c rest hs =>
    split at h
    · next hc =>
      cases h
      cases hc
      exact exists_blank_of_skipSpace hs
    split at h
    · cases h
    split at h
    · split at h
      · cases h
      · split at h <;> cases h
    · cases h
  · rintro ⟨blank, hb, rfl⟩
    rw [nextItem, skipSpace_append hb ⟨']', r, rfl, rfl⟩]
    rfl

theorem nextItem_eq_item_iff {first : Bool} {s t : List Char} : nextItem first s = .ok (.item t) ↔
    ∃ lead c u, Lead first lead ∧ t = c :: u ∧ isSpace c = false ∧ c ≠ ']' ∧ s = lead ++ t := by
  constructor
  · intro h
    unfold nextItem at h
    split at h
    · cases h
    next c rest hs =>
    obtain ⟨blank, hb, rfl⟩ := exists_blank_of_skipSpace hs
    split at h
    · cases h
    next open_ =>
    split at h
    · next hf =>
      cases h
      cases hf
      exact ⟨blank, c, rest, .first hb, rfl, isSpace_of_skipSpace hs, open_, rfl⟩
    next hf =>
    split at h
    · next hc =>
      cases hc
      split at h
      · cases h
      next d u hu =>
      obtain ⟨after, ha, rfl⟩ := exists_blank_of_skipSpace hu
      split at h
      · cases h
      · next open_ =>
        cases h
        rw [Bool.not_eq_true] at hf
        cases hf
        exact ⟨_, d, u, .comma hb ha, rfl, isSpace_of_skipSpace hu, open_, by simp⟩
    · cases h
  · rintro ⟨lead, c, u, hl, rfl, hc, open_, rfl⟩
    cases hl with
    | first hb => simp only [nextItem, skipSpace_append hb ⟨c, u, rfl, hc⟩, if_neg open_, if_true]
    | @comma before after hb ha =>
      simp only [List.append_assoc, List.cons_append, nextItem, skipSpace_append hb ⟨',', _, rfl, rfl⟩,
        skipSpace_append ha ⟨c, u, rfl, hc⟩, if_neg open_, if_true]
      rfl

theorem lead_of_nextItem {first : Bool} {s blank t : List Char} (h : nextItem first s = .ok (.item (blank ++ t)))
    (hb : Blank blank) : ∃ lead, Lead first lead ∧ s = lead ++ t := by
  obtain ⟨lead, c, u, hl, hu, solid, _, rfl⟩ := nextItem_eq_item_iff.1 h
  cases blank with
  | nil => exact ⟨lead, hl, rfl⟩
  | cons b blank =>
    cases hu
    rw [isSpace_iff.2 (hb List.mem_cons_self)] at solid
    cases solid

theorem nextItem_of_lead {first : Bool} {lead u : List Char} {c : Char} (hl : Lead first lead)
    (hc : c ∈ ['"', '[', '{', 'n']) : nextItem first (lead ++ c :: u) = .ok (.item (c :: u)) := by
  have start : ∀ d ∈ ['"', '[', '{', 'n'], isSpace d = false ∧ d ≠ ']' := List.all_iff_forall_prop.1 (by decide)
  obtain ⟨solid, open_⟩ := start c hc
  exact nextItem_eq_item_iff.2 ⟨lead, c, u, hl, rfl, solid, open_, rfl⟩

section
variable {α : Type} {item : Reader α} {first : Bool} {s t r : List Char}

theorem readItems_stop (h : nextItem first s = .ok (.stop r)) : readItems item first s = .ok ([], r) := by
  rw [readItems]
  split
  · next hn => rw [h] at hn; cases hn
  · next hn => rw [h] at hn; cases hn; rfl
  · next hn => rw [h] at hn; cases hn

theorem readItems_item {a : α} (next : nextItem first s = .ok (.item t)) (read : item.read t = .ok (a, r)) :
    readItems item first s = (readItems item false r).map fun p => (a :: p.1, p.2) := by
  rw [readItems]
  split
  · next h => rw [next] at h; cases h
  · next h => rw [next] at h; cases h
  next h =>
  rw [next] at h
  cases h
  split
  · next h => rw [read] at h; cases h
  next h =>
  rw [read] at h
  cases h
  rfl

theorem readItems_eq_ok_iff {Says : α → List Char → Prop} (h : Reads item.read Says) {as : List α} :
    readItems item first s = .ok (as, r) ↔ ∃ t, Parts ']' Says first as t ∧ s = t ++ r := by
  constructor
  · intro ha
    fun_induction readItems item first s generalizing as with
    | case1 => cases ha
    | case2 first s r' hn =>
      cases ha
      obtain ⟨blank, hb, rfl⟩ := nextItem_eq_stop_iff.1 hn
      exact ⟨_, .close hb, by simp⟩
    | case3 => cases ha
    | case4 first s u hn a r' hi _ ih =>
      obtain ⟨⟨as, r⟩, hr, he⟩ := Result.map_eq_ok.1 ha
      cases he
      obtain ⟨t, ht, rfl⟩ := ih hr
      obtain ⟨blank, v, hb, hv, rfl⟩ := h.eq_ok_iff.1 hi
      obtain ⟨lead, hl, rfl⟩ := lead_of_nextItem hn hb
      exact ⟨_, .part hl hv ht, by simp⟩
  · rintro ⟨t, ht, rfl⟩
    induction ht with
    | close hb =>
      rw [List.append_assoc]
      exact readItems_stop (nextItem_eq_stop_iff.2 ⟨_, hb, rfl⟩)
    | @part first a as lead v t hl hv _ ih =>
      obtain ⟨c, w, rfl, hc⟩ := h.starts hv
      have next : nextItem first (lead ++ (c :: w ++ (t ++ r))) = .ok (.item (c :: w ++ (t ++ r))) :=
        nextItem_of_lead hl hc
      have read : item.read (c :: w ++ (t ++ r)) = .ok (a, t ++ r) :=
        h.eq_ok_iff.2 ⟨[], c :: w, List.nil_subset _, hv, rfl⟩
      rw [List.append_assoc, List.append_assoc, readItems_item next read, ih]
      rfl

end

theorem reads_list {α : Type} {item : Reader α} {Says : α → List Char → Prop} (h : Reads item.read Says) :
    Reads (Reader.list item).read (ListText Says) where
  eq_ok_iff := by
    intro s r as
    constructor
    · intro ha
      simp only [Reader.list] at ha
      split at ha
      · cases ha
      · next rest hs =>
        obtain ⟨t, ht, rfl⟩ := (readItems_eq_ok_iff h).1 ha
        obtain ⟨blank, hb, rfl⟩ := exists_blank_of_skipSpace hs
        exact ⟨blank, _, hb, ⟨t, ht, rfl⟩, rfl⟩
      · cases ha
    · rintro ⟨blank, _, hb, ⟨t, ht, rfl⟩, rfl⟩
      simp only [Reader.list, List.cons_append, skipSpace_append hb ⟨'[', _, rfl, rfl⟩]
      exact (readItems_eq_ok_iff h).2 ⟨t, ht, rfl⟩
  starts := by
    rintro as _ ⟨t, _, rfl⟩
    exact ⟨'[', t, rfl, by simp⟩

/-! ## Members and dictionaries -/

theorem nextKey_eq_stop_iff {first : Bool} {s r : List Char} :
    nextKey first s = .ok (.stop r) ↔ ∃ blank, Blank blank ∧ s = blank ++ '}' :: r := by
  constructor
  · intro h
    unfold nextKey at h
    split at h
    · cases h
    next c rest hs =>
    split at h
    · next hc =>
      cases h
      cases hc
      exact exists_blank_of_skipSpace hs
    split at h
    · split at h <;> cases h
    split at h
    · split at h
      · cases h
      · split at h
        · cases h
        · split at h <;> cases h
    · cases h
  · rintro ⟨blank, hb, rfl⟩
    rw [nextKey, skipSpace_append hb ⟨'}', r, rfl, rfl⟩]
    rfl

theorem nextKey_eq_item_iff {first : Bool} {s t : List Char} :
    nextKey first s = .ok (.item t) ↔ ∃ lead, Lead first lead ∧ s = lead ++ '"' :: t := by
  constructor
  · intro h
    unfold nextKey at h
    split at h
    · cases h
    next c rest hs =>
    obtain ⟨blank, hb, rfl⟩ := exists_blank_of_skipSpace hs
    split at h
    · cases h
    split at h
    · next hf =>
      cases hf
      split at h
      · next hc =>
        cases h
        cases hc
        exact ⟨blank, .first hb, rfl⟩
      · cases h
    next hf =>
    split at h
    · next hc =>
      cases hc
      split at h
      · cases h
      next d u hu =>
      obtain ⟨after, ha, rfl⟩ := exists_blank_of_skipSpace hu
      split at h
      · next hd =>
        cases h
        cases hd
        rw [Bool.not_eq_true] at hf
        cases hf
        exact ⟨_, .comma hb ha, by simp⟩
      · split at h <;> cases h
    · cases h
  · rintro ⟨lead, hl, rfl⟩
    cases hl with
    | first hb =>
      rw [nextKey, skipSpace_append hb ⟨'"', t, rfl, rfl⟩]
      rfl
    | @comma before after hb ha =>
      simp only [List.append_assoc, List.cons_append, nextKey, skipSpace_append hb ⟨',', _, rfl, rfl⟩,
        skipSpace_append ha ⟨'"', t, rfl, rfl⟩]
      rfl

theorem memberText_iff {name : String} {Says : List Char → Prop} {t r : List Char} :
    (∃ m, MemberText name Says m ∧ '"' :: t = m ++ r) ↔
      ∃ u after v, readText t = .ok (name.toList, u) ∧ readColon u = .ok (after ++ (v ++ r)) ∧
        Blank after ∧ Says v := by
  constructor
  · rintro ⟨_, ⟨_, before, after, v, ⟨body, hbody, rfl⟩, hb, ha, hv, rfl⟩, ht⟩
    simp only [List.cons_append, List.append_assoc, List.cons.injEq, true_and, List.nil_append] at ht
    exact ⟨_, after, v, readText_eq_ok_iff.2 ⟨body, hbody, ht⟩,
      readColon_eq_ok_iff.2 ⟨before, hb, rfl⟩, ha, hv⟩
  · rintro ⟨u, after, v, text, colon, ha, hv⟩
    obtain ⟨body, hbody, rfl⟩ := readText_eq_ok_iff.1 text
    obtain ⟨before, hb, rfl⟩ := readColon_eq_ok_iff.1 colon
    exact ⟨_, ⟨_, before, after, v, ⟨body, hbody, rfl⟩, hb, ha, hv, rfl⟩, by simp⟩

theorem readPairs_eq_ok_iff {first : Bool} {s r : List Char} {pairs : List (String × String)} :
    readPairs first s = .ok (pairs, r) ↔
      ∃ t, Parts '}' (fun pair : String × String => MemberText pair.1 (Literal pair.2)) first pairs t ∧
        s = t ++ r := by
  constructor
  · intro h
    fun_induction readPairs first s generalizing pairs with
    | case1 => cases h
    | case2 first s r' hn =>
      cases h
      obtain ⟨blank, hb, rfl⟩ := nextKey_eq_stop_iff.1 hn
      exact ⟨_, .close hb, by simp⟩
    | case3 => cases h
    | case4 => cases h
    | case5 => cases h
    | case6 first s t hn key u hk w hc value r' hs _ ih =>
      obtain ⟨⟨pairs, r⟩, hp, he⟩ := Result.map_eq_ok.1 h
      cases he
      obtain ⟨rest, hrest, rfl⟩ := ih hp
      obtain ⟨after, v, ha, hv, rfl⟩ := reads_string.eq_ok_iff.1 hs
      obtain ⟨lead, hl, rfl⟩ := nextKey_eq_item_iff.1 hn
      rw [← String.toList_ofList (l := key)] at hk
      obtain ⟨m, hm, ht⟩ := memberText_iff.2 ⟨u, after, v, hk, hc, ha, hv⟩
      exact ⟨_, .part hl hm hrest, by rw [ht]; simp⟩
  · rintro ⟨t, ht, rfl⟩
    induction ht with
    | close hb =>
      rw [List.append_assoc]
      exact readPairs_stop (nextKey_eq_stop_iff.2 ⟨_, hb, rfl⟩)
    | @part first pair pairs lead m rest hl hm _ ih =>
      obtain ⟨body, hm'⟩ : ∃ body, m = '"' :: body := by
        obtain ⟨_, _, _, _, ⟨body, _, rfl⟩, _, _, _, rfl⟩ := hm
        exact ⟨_, rfl⟩
      obtain ⟨u, after, v, text, colon, ha, hv⟩ := memberText_iff.1 ⟨m, hm, by rw [hm']; rfl⟩
      have next : nextKey first (lead ++ (m ++ (rest ++ r))) = .ok (.item (body ++ (rest ++ r))) :=
        nextKey_eq_item_iff.2 ⟨lead, hl, by rw [hm']; rfl⟩
      have string : readString (after ++ (v ++ (rest ++ r))) = .ok (pair.2, rest ++ r) :=
        reads_string.eq_ok_iff.2 ⟨after, v, ha, hv, rfl⟩
      rw [List.append_assoc, List.append_assoc, readPairs_item next text colon string, ih, String.ofList_toList]
      rfl

theorem reads_dict : Reads Reader.dict.read DictText where
  eq_ok_iff := by
    intro s r d
    constructor
    · intro h
      simp only [Reader.dict] at h
      split at h
      · cases h
      · next rest hs =>
        obtain ⟨⟨pairs, r⟩, hp, he⟩ := Result.map_eq_ok.1 h
        cases he
        obtain ⟨t, ht, rfl⟩ := readPairs_eq_ok_iff.1 hp
        obtain ⟨blank, hb, rfl⟩ := exists_blank_of_skipSpace hs
        exact ⟨blank, _, hb, ⟨pairs, rfl, t, ht, rfl⟩, rfl⟩
      · cases h
    · rintro ⟨blank, _, hb, ⟨pairs, rfl, t, ht, rfl⟩, rfl⟩
      simp only [Reader.dict, List.cons_append, skipSpace_append hb ⟨'{', _, rfl, rfl⟩]
      exact Result.map_eq_ok.2 ⟨_, readPairs_eq_ok_iff.2 ⟨t, ht, rfl⟩, rfl⟩
  starts := by
    rintro d _ ⟨pairs, _, t, _, rfl⟩
    exact ⟨'{', t, rfl, by simp⟩

/-! ## A whole text -/

theorem readAll_eq_ok_iff {α : Type} {reader : Reader α} {Says : α → List Char → Prop}
    (h : Reads reader.read Says) {text : List Char} {a : α} : reader.readAll text = .ok a ↔
      ∃ before v after, Blank before ∧ Blank after ∧ Says a v ∧ text = before ++ (v ++ after) := by
  constructor
  · intro ha
    unfold Reader.readAll at ha
    split at ha
    · cases ha
    · next b rest hr =>
      split at ha
      · next hs =>
        cases ha
        obtain ⟨before, v, hb, hv, rfl⟩ := h.eq_ok_iff.1 hr
        obtain ⟨after, ha, rfl⟩ := exists_blank_of_skipSpace hs
        exact ⟨before, v, after, hb, ha, hv, by simp⟩
      · cases ha
  · rintro ⟨before, v, after, hb, ha, hv, rfl⟩
    have read : reader.read (before ++ (v ++ after)) = .ok (a, after) := h.eq_ok_iff.2 ⟨before, v, hb, hv, rfl⟩
    simp only [Reader.readAll, read, skipSpace_blank ha]

end SearchRelay.Json
