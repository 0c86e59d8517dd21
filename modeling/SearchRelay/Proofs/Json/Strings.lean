import SearchRelay.Proofs.HookLine

/-!
# Where characters beyond ASCII may stand

All that JSON has outside its strings is ASCII. So if a line is a request, a
scan that follows its quotes and backslashes finds a string open before each
character beyond ASCII, and no escape begun there.
-/

namespace SearchRelay.Json

/-- Where a scan of JSON stands: outside of strings, in one, or in one behind a backslash. -/
inductive Quoting where
  | outside
  | inside
  | escaped
deriving DecidableEq, Repr

namespace Quoting

def next : Quoting → Char → Quoting
  | outside, c => if c = '"' then inside else outside
  | inside, c => if c = '"' then outside else if c = '\\' then escaped else inside
  | escaped, _ => inside

def after (q : Quoting) (s : List Char) : Quoting := s.foldl next q

theorem after_append (q : Quoting) (s t : List Char) : q.after (s ++ t) = (q.after s).after t := List.foldl_append

theorem after_cons (q : Quoting) (c : Char) (s : List Char) : q.after (c :: s) = (q.next c).after s := rfl

end Quoting

/-- Whether a scan comes to each character beyond ASCII with a string open. -/
def Guarded : Quoting → List Char → Prop
  | _, [] => True
  | q, c :: s => (0x7F < c.toNat → q = .inside) ∧ Guarded (q.next c) s

theorem guarded_append {q : Quoting} {s t : List Char} : Guarded q (s ++ t) ↔
    Guarded q s ∧ Guarded (q.after s) t := by
  induction s generalizing q with
  | nil => simp [Guarded, Quoting.after]
  | cons c s ih => simp only [List.cons_append, Guarded, ih, Quoting.after_cons, and_assoc]

theorem inside_of_guarded {q : Quoting} {s t : List Char} {c : Char} (h : Guarded q (s ++ c :: t))
    (beyond : 0x7F < c.toNat) : q.after s = .inside := (guarded_append.1 h).2.1 beyond

/-- Whether a scan passes over a text and stands afterwards as it did before. -/
structure Keeps (q : Quoting) (s : List Char) : Prop where
  guarded : Guarded q s
  stays : q.after s = q

theorem Keeps.nil (q : Quoting) : Keeps q [] := ⟨trivial, rfl⟩

theorem Keeps.append {q : Quoting} {s t : List Char} (hs : Keeps q s) (ht : Keeps q t) : Keeps q (s ++ t) := by
  constructor
  · rw [guarded_append, hs.stays]
    exact ⟨hs.guarded, ht.guarded⟩
  · rw [Quoting.after_append, hs.stays, ht.stays]

/-! ## In strings -/

theorem keeps_inside {s : List Char} (h : ∀ c ∈ s, c ≠ '"' ∧ c ≠ '\\') : Keeps .inside s := by
  induction s with
  | nil => exact .nil _
  | cons c s ih =>
    obtain ⟨quote, slash⟩ := h c List.mem_cons_self
    have same : Quoting.next .inside c = .inside := by rw [Quoting.next, if_neg quote, if_neg slash]
    have rest := ih fun d hd => h d (List.mem_cons_of_mem c hd)
    constructor
    · rw [Guarded, same]
      exact ⟨fun _ => rfl, rest.guarded⟩
    · rw [Quoting.after_cons, same, rest.stays]

theorem keeps_escape {c : Char} (h : c.toNat ≤ 0x7F) : Keeps .inside ['\\', c] :=
  ⟨⟨fun _ => rfl, fun beyond => absurd beyond (Nat.not_lt.2 h), trivial⟩, rfl⟩

theorem keeps_codeUnit {u : List Char} {n : Nat} (h : CodeUnit u n) : Keeps .inside u := by
  have digit {c : Char} {v : Nat} (hd : HexDigit c v) : c ≠ '"' ∧ c ≠ '\\' := by
    have all : ∀ c ∈ "0123456789abcdef".toList ++ "0123456789ABCDEF".toList, c ≠ '"' ∧ c ≠ '\\' :=
      List.all_iff_forall_prop.1 (by decide)
    refine all c (List.mem_append.2 ?_)
    exact hd.imp List.mem_of_getElem? List.mem_of_getElem?
  obtain ⟨ha, hb, hc, hd⟩ := h
  refine keeps_inside ?_
  simp only [List.forall_mem_cons]
  exact ⟨digit ha, digit hb, digit hc, digit hd, by simp⟩

theorem keeps_unitEscape {u : List Char} {n : Nat} (h : CodeUnit u n) : Keeps .inside ('\\' :: 'u' :: u) :=
  (keeps_escape (c := 'u') (by decide)).append (keeps_codeUnit h)

theorem keeps_shortEscape {e x : Char} (h : (e, x) ∈ shortEscapes) : Keeps .inside ['\\', e] := by
  have ascii : ∀ escape ∈ shortEscapes, escape.1.toNat ≤ 0x7F := by decide
  exact keeps_escape (ascii _ h)

theorem keeps_charText {x : Char} {s : List Char} (h : CharText x s) : Keeps .inside s := by
  cases h with
  | plain _ quote slash => exact keeps_inside (by simpa using ⟨quote, slash⟩)
  | short he => exact keeps_shortEscape he
  | unit hu => exact keeps_unitEscape hu
  | pair hu hv => exact (keeps_unitEscape hu).append (keeps_unitEscape hv)

theorem keeps_spells {text body : List Char} (h : Spells text body) : Keeps .inside body := by
  induction h with
  | nil => exact .nil _
  | cons hc _ ih => exact (keeps_charText hc).append ih

theorem keeps_looseText {s : List Char} (h : LooseText s) : Keeps .inside s := by
  induction h with
  | nil => exact .nil _
  | @plain c s _ quote slash _ ih => exact (keeps_inside (s := [c]) (by simpa using ⟨quote, slash⟩)).append ih
  | @short e x s he _ ih => exact (keeps_shortEscape he).append ih
  | @unit u s n hu _ ih => exact (keeps_unitEscape hu).append ih

theorem keeps_quoted {body : List Char} (h : Keeps .inside body) : Keeps .outside ('"' :: (body ++ ['"'])) := by
  constructor
  · refine ⟨fun beyond => absurd beyond (by decide), guarded_append.2 ⟨h.guarded, ?_⟩⟩
    exact ⟨fun beyond => absurd beyond (by decide), trivial⟩
  · rw [Quoting.after_cons, Quoting.after_append]
    exact congrArg (Quoting.after · ['"']) h.stays

theorem keeps_literal {text : String} {s : List Char} (h : Literal text s) : Keeps .outside s := by
  obtain ⟨body, hb, rfl⟩ := h
  exact keeps_quoted (keeps_spells hb)

/-! ## Outside of strings -/

def Bare (s : List Char) : Prop := ∀ c ∈ s, c.toNat ≤ 0x7F ∧ c ≠ '"'

instance (s : List Char) : Decidable (Bare s) := List.decidableBAll _ s

theorem Bare.append {s t : List Char} (hs : Bare s) (ht : Bare t) : Bare (s ++ t) := fun c hc =>
  (List.mem_append.1 hc).elim (hs c) (ht c)

theorem keeps_bare {s : List Char} (h : Bare s) : Keeps .outside s := by
  induction s with
  | nil => exact .nil _
  | cons c s ih =>
    obtain ⟨ascii, quote⟩ := h c List.mem_cons_self
    have same : Quoting.next .outside c = .outside := by rw [Quoting.next, if_neg quote]
    have rest := ih fun d hd => h d (List.mem_cons_of_mem c hd)
    constructor
    · rw [Guarded, same]
      exact ⟨fun beyond => absurd beyond (Nat.not_lt.2 ascii), rest.guarded⟩
    · rw [Quoting.after_cons, same, rest.stays]

theorem keeps_blank {s : List Char} (h : Blank s) : Keeps .outside s := by
  have all : Bare [' ', '\n', '\t', '\r'] := by decide
  exact keeps_bare fun c hc => all c (h hc)

theorem bare_digits {s : List Char} (h : Digits s) : Bare s := by
  intro c hc
  obtain ⟨low, high⟩ := h.2 c hc
  have value : c.toNat ≤ '9'.toNat := high
  refine ⟨Nat.le_trans value (by decide), ?_⟩
  rintro rfl
  exact absurd low (by decide)

theorem bare_magnitude {s : List Char} (h : Magnitude s) : Bare s := by
  obtain ⟨whole, fraction, exponent, hw, hf, he, rfl⟩ := h
  refine (bare_digits hw.1).append (Bare.append ?_ ?_)
  · rcases hf with rfl | ⟨digits, hd, rfl⟩
    · decide
    · exact Bare.append (s := ['.']) (by decide) (bare_digits hd)
  · rcases he with rfl | ⟨mark, sign, digits, hm, hs, hd, rfl⟩
    · decide
    · have marks : ∀ mark ∈ ['e', 'E'], Bare [mark] := List.all_iff_forall_prop.1 (by decide)
      have signs : ∀ sign ∈ [[], ['+'], ['-']], Bare sign := List.all_iff_forall_prop.1 (by decide)
      exact (marks mark hm).append ((signs sign hs).append (bare_digits hd))

theorem keeps_scalar {s : List Char} (h : Scalar s) : Keeps .outside s := by
  cases h with
  | null => exact keeps_bare (by decide)
  | yes => exact keeps_bare (by decide)
  | no => exact keeps_bare (by decide)
  | number hm => exact keeps_bare (bare_magnitude hm)
  | negative hm => exact keeps_bare (Bare.append (s := ['-']) (by decide) (bare_magnitude hm))
  | text ht => exact keeps_quoted (keeps_looseText ht)

/-! ## Values that are passed over -/

theorem keeps_opening (b : Bracket) : Keeps .outside [b.opening] := by cases b <;> exact keeps_bare (by decide)

theorem keeps_close (b : Bracket) : Keeps .outside [b.close] := by cases b <;> exact keeps_bare (by decide)

theorem keeps_comma : Keeps .outside [','] := keeps_bare (by decide)

theorem keeps_colon : Keeps .outside [':'] := keeps_bare (by decide)

theorem keeps_label {b : Bracket} {s : List Char} (h : Label b s) : Keeps .outside s := by
  cases h with
  | list => exact .nil _
  | @object key before after hk hb ha =>
    have parts := (keeps_quoted (keeps_looseText hk)).append
      ((keeps_blank hb).append (keeps_colon.append (keeps_blank ha)))
    simpa using parts

mutual

theorem keeps_value {s : List Char} (h : Value s) : Keeps .outside s := by
  cases h with
  | scalar hs => exact keeps_scalar hs
  | nested hi => exact (keeps_opening _).append (keeps_inside_brackets hi)
termination_by (s.length, 0)
decreasing_by simp only [Prod.lex_def, List.length_cons]; omega

theorem keeps_inside_brackets {b : Bracket} {s : List Char} (h : Inside b s) : Keeps .outside s := by
  cases h with
  | empty hb => exact (keeps_blank hb).append (keeps_close b)
  | parts hb hl hv hr =>
    have value := keeps_value hv
    have rest := keeps_rest hr
    exact (keeps_blank hb).append ((keeps_label hl).append (value.append rest))
termination_by (s.length, 2)
decreasing_by all_goals simp only [Prod.lex_def, List.length_append]; omega

theorem keeps_rest {b : Bracket} {s : List Char} (h : Rest b s) : Keeps .outside s := by
  cases h with
  | close hb => exact (keeps_blank hb).append (keeps_close b)
  | comma hb ha hl hv hr =>
    have value := keeps_value hv
    have rest := keeps_rest hr
    exact (keeps_blank hb).append (keeps_comma.append ((keeps_blank ha).append ((keeps_label hl).append
      (value.append rest))))
termination_by (s.length, 1)
decreasing_by all_goals simp only [Prod.lex_def, List.length_append, List.length_cons]; omega

end

/-! ## Values that are read -/

theorem keeps_lead {first : Bool} {s : List Char} (h : Lead first s) : Keeps .outside s := by
  cases h with
  | first hb => exact keeps_blank hb
  | comma hb ha => exact (keeps_blank hb).append (keeps_comma.append (keeps_blank ha))

theorem keeps_parts {α : Type} {b : Bracket} {Says : α → List Char → Prop}
    (part : ∀ a s, Says a s → Keeps .outside s)
    {first : Bool} {as : List α} {s : List Char} (h : Parts b.close Says first as s) : Keeps .outside s := by
  induction h with
  | close hb => exact (keeps_blank hb).append (keeps_close b)
  | part hl hp _ ih => exact (keeps_lead hl).append ((part _ _ hp).append ih)

theorem keeps_listText {α : Type} {Says : α → List Char → Prop} (part : ∀ a s, Says a s → Keeps .outside s)
    {as : List α} {s : List Char} (h : ListText Says as s) : Keeps .outside s := by
  obtain ⟨t, ht, rfl⟩ := h
  exact (keeps_opening .list).append (keeps_parts (b := .list) part ht)

theorem keeps_memberText {name : String} {Says : List Char → Prop} (value : ∀ s, Says s → Keeps .outside s)
    {s : List Char} (h : MemberText name Says s) : Keeps .outside s := by
  obtain ⟨key, before, after, v, hk, hb, ha, hv, rfl⟩ := h
  exact (keeps_literal hk).append ((keeps_blank hb).append
    (keeps_colon.append ((keeps_blank ha).append (value v hv))))

theorem keeps_objectText {α : Type} {Part : α → List Char → Prop} (part : ∀ a s, Part a s → Keeps .outside s)
    {as : List α} {s : List Char} (h : ObjectText Part as s) : Keeps .outside s := by
  obtain ⟨t, ht, rfl⟩ := h
  exact (keeps_opening .object).append (keeps_parts (b := .object) part ht)

theorem keeps_dictText {d : Dict} {s : List Char} (h : DictText d s) : Keeps .outside s := by
  obtain ⟨pairs, _, ht⟩ := h
  exact keeps_objectText (fun _ _ hp => keeps_memberText (fun _ => keeps_literal) hp) ht

theorem keeps_nullOr {text : Option String} {s : List Char} (h : NullOr Literal text s) : Keeps .outside s := by
  cases text with
  | none =>
    rw [show s = ['n', 'u', 'l', 'l'] from h]
    exact keeps_bare (by decide)
  | some text => exact keeps_literal h

/-! ## Requests -/

theorem keeps_says {m : HookRequest.Member} {s : List Char} (h : m.Says s) : Keeps .outside s := by
  cases m with
  | path names => exact keeps_listText (fun _ _ => keeps_literal) h
  | query entries => exact keeps_dictText h
  | headers entries => exact keeps_dictText h
  | method name => exact keeps_nullOr h
  | verb name => exact keeps_nullOr h
  | body text => exact keeps_nullOr h
  | other name unknown => exact keeps_value h

theorem keeps_spelled {members : List HookRequest.Member} {line : List Char} (h : HookRequest.Spelled members line) :
    Keeps .outside line := by
  obtain ⟨before, v, after, hb, ha, ⟨object, _⟩ | ⟨list, _⟩, rfl⟩ := h
  · have body := keeps_objectText (fun _ _ hm => keeps_memberText (fun _ => keeps_says) hm) object
    exact (keeps_blank hb).append (body.append (keeps_blank ha))
  · have body := keeps_listText (fun _ _ => keeps_says) list
    exact (keeps_blank hb).append (body.append (keeps_blank ha))

/-- A line with a character beyond ASCII where no string is open is no request. -/
theorem malformed_of_beyond {line : String} {s t : List Char} {c : Char} (split : line.toList = s ++ c :: t)
    (beyond : 0x7F < c.toNat) (free : Quoting.outside.after s ≠ .inside) :
    ∃ detail, HookRequest.ofLine line = .error (.malformedRequest detail) := by
  cases h : HookRequest.ofLine line with
  | ok request =>
    obtain ⟨_, members, spelled, _⟩ := HookRequest.ofLine_eq_ok_iff.1 h
    have guarded := (keeps_spelled spelled).guarded
    rw [split] at guarded
    exact absurd (inside_of_guarded guarded beyond) free
  | error refusal =>
    unfold HookRequest.ofLine at h
    split at h
    · cases h
    · cases h
      exact ⟨_, rfl⟩

end SearchRelay.Json
