import SearchRelay.Proofs.Url.Hosts
import SearchRelay.Url.Parser

/-!
# Reading URLs back

What is written of a URL is read again part by part: each part ends where the
next one begins, because no part holds the mark that would end it, and what was
escaped is not escaped again.
-/

namespace SearchRelay

namespace Percent

theorem encode_eq_self {keep : Char → Bool} {text : List Char} (h : ∀ c ∈ text, keep c = true) :
    encode keep text = text := by
  induction text with
  | nil => rfl
  | cons c text ih =>
    have ih := ih fun d hd => h d (List.mem_cons_of_mem _ hd)
    rw [encode] at ih ⊢
    rw [List.flatMap_cons, ih, encodeChar, if_pos (h c List.mem_cons_self)]
    rfl

theorem kept_encode {keep : Char → Bool} (escaping : ∀ c, isEscaping c = true → keep c = true)
    (text : List Char) :
    ∀ c ∈ encode keep text, keep c = true := by
  intro c hc
  rcases mem_encode hc with ⟨_, h⟩ | h
  · exact h
  · exact escaping c h

end Percent

namespace Url

variable {toAscii : ToAscii}

theorem of_isWritten {p q : Char → Bool}
    (all : ∀ n < 128, p (Char.ofNat n) = true → q (Char.ofNat n) = true) {c : Char}
    (hw : isWritten c = true) (hp : p c = true) : q c = true := by
  have small : c.toNat < 128 := by
    simp only [isWritten, Bool.and_eq_true, decide_eq_true_eq] at hw
    omega
  have := all c.toNat small
  rw [Char.ofNat_toNat] at this
  exact this hp

theorem isKeptInUser_of_isEscaping (c : Char) (h : Percent.isEscaping c = true) : isKeptInUser c = true :=
  of_isWritten (by decide) (isWritten_of_isEscaping h) h

theorem isKeptInPath_of_isEscaping (c : Char) (h : Percent.isEscaping c = true) : isKeptInPath c = true :=
  of_isWritten (by decide) (isWritten_of_isEscaping h) h

/-! ## Credentials -/

theorem cutLastAt_eq_none {text : List Char} (h : '@' ∉ text) : cutLastAt text = none := by
  induction text with
  | nil => rfl
  | cons c text ih =>
    rw [List.mem_cons, not_or] at h
    rw [cutLastAt, ih h.2]
    exact if_neg (Ne.symm h.1)

theorem cutLastAt_append {after : List Char} (h : '@' ∉ after) : ∀ before : List Char,
    cutLastAt (before ++ '@' :: after) = some (before, after)
  | [] => by
    rw [List.nil_append, cutLastAt, cutLastAt_eq_none h]
    rfl
  | c :: before => by rw [List.cons_append, cutLastAt, cutLastAt_append h before]

/-- What an authority holds besides its host. -/
structure Authority.Regular (kind : Kind) (authority : Authority) : Prop where
  user : ∀ c ∈ authority.user, isKeptInUser c = true
  password : ∀ password ∈ authority.password, password ≠ [] ∧ ∀ c ∈ password, isKeptInUser c = true
  port : ∀ n ∈ authority.port, n ≤ 65535 ∧ kind ≠ .web n

def Authority.credentials (authority : Authority) : List Char :=
  authority.user ++ (authority.password.map (':' :: ·)).getD []

theorem isKeptInUser_ne {c d : Char} (h : isKeptInUser c = true) (hd : isKeptInUser d = false) : c ≠ d := by
  rintro rfl
  rw [h] at hd
  cases hd

section
variable {kind : Kind} {authority : Authority}

theorem readCredentials_credentials (h : authority.Regular kind) :
    readCredentials authority.credentials = (authority.user, authority.password) := by
  have colon : ∀ c ∈ authority.user, (c != ':') = true := fun c hc =>
    bne_iff_ne.2 (isKeptInUser_ne (h.user c hc) (by decide))
  unfold readCredentials Authority.credentials
  cases hp : authority.password with
  | none =>
    have cut := span_append (b := []) colon (by simp)
    simp only [Option.map_none, Option.getD_none, cut, Percent.encode_eq_self h.user]
  | some password =>
    obtain ⟨full, kept⟩ := h.password password hp
    obtain ⟨c, rest, rfl⟩ := List.exists_cons_of_ne_nil full
    have cut := span_append (b := ':' :: c :: rest) colon (by simp)
    simp only [Option.map_some, Option.getD_some, cut, Percent.encode_eq_self h.user, Percent.encode_eq_self kept]

theorem mem_credentials {c : Char} (h : authority.Regular kind) (hc : c ∈ authority.credentials) :
    isKeptInUser c = true ∨ c = ':' := by
  rcases List.mem_append.1 hc with hc | hc
  · exact .inl (h.user c hc)
  · cases hp : authority.password with
    | none =>
      rw [hp] at hc
      cases hc
    | some password =>
      rw [hp] at hc
      rcases List.mem_cons.1 hc with rfl | hc
      · exact .inr rfl
      · exact .inl ((h.password password hp).2 c hc)

theorem mem_writeCredentials {c : Char} (h : authority.Regular kind) (hc : c ∈ authority.writeCredentials) :
    isKeptInUser c = true ∨ c = ':' ∨ c = '@' := by
  unfold Authority.writeCredentials at hc
  split at hc
  · rcases List.mem_append.1 hc with hc | hc
    · exact (mem_credentials h hc).imp_right .inl
    · exact .inr (.inr (List.mem_singleton.1 hc))
  · cases hc

theorem cut_writeCredentials {place : List Char} (hp : '@' ∉ place) :
    (cutLastAt (authority.writeCredentials ++ place)).getD ([], authority.writeCredentials ++ place) =
      (authority.credentials, place) := by
  unfold Authority.writeCredentials
  split
  · have text : authority.user ++ (authority.password.map (':' :: ·)).getD [] ++ ['@'] ++ place =
        authority.credentials ++ '@' :: place := by simp [Authority.credentials]
    rw [text, cutLastAt_append hp]
    rfl
  · next none =>
    simp only [Authority.hasCredentials, Bool.or_eq_true, not_or, Bool.not_eq_true, Bool.not_eq_false',
      List.isEmpty_iff, Option.isSome_eq_false_iff, Option.isNone_iff_eq_none] at none
    rw [List.nil_append, cutLastAt_eq_none hp]
    simp [Authority.credentials, none.1, none.2]

/-! ## Hosts and ports -/

/-- A text that is taken as a host in an authority: it has no mark of another part, and its colons stand in brackets. -/
structure HostText (text : List Char) : Prop where
  full : text ≠ []
  marks : ∀ c ∈ text, c ∉ ['@', '/', '\\', '?', '#']
  colons : (∀ c ∈ text, c ∉ [':', '[']) ∨ ∃ inner, text = '[' :: (inner ++ [']']) ∧ ']' ∉ inner

def portText (port : Option Nat) : List Char := (port.map fun port => ':' :: Nat.toDigits 10 port).getD []

theorem mem_portText {port : Option Nat} {c : Char} (h : c ∈ portText port) : c = ':' ∨ Ascii.isDigit c = true := by
  cases port with
  | none => cases h
  | some n => exact (List.mem_cons.1 h).imp_right Ipv4.isDigit_of_mem_decimal

theorem cutHost_plain {port : List Char} (hp : port.head?.all (· == ':')) : ∀ {text : List Char},
    (∀ c ∈ text, c ∉ [':', '[']) → cutHost false (text ++ port) = (text, port)
  | [], _ => by
    cases port with
    | nil => rfl
    | cons c port =>
      obtain rfl : c = ':' := by simpa using hp
      rfl
  | c :: text, h => by
    have hc := h c List.mem_cons_self
    simp only [List.mem_cons, List.not_mem_nil, or_false, not_or] at hc
    have rest := cutHost_plain hp fun d hd => h d (List.mem_cons_of_mem _ hd)
    have outside : (c == '[') = false := beq_eq_false_iff_ne.2 hc.2
    rw [List.cons_append, cutHost, if_neg (by simp [hc.1])]
    simp [outside, rest]

theorem cutHost_bracketed {port : List Char} (hp : port.head?.all (· == ':')) :
    ∀ {inner : List Char}, ']' ∉ inner →
    cutHost true (inner ++ ']' :: port) = (inner ++ [']'], port)
  | [], _ => by
    have rest : cutHost false ([] ++ port) = ([], port) := cutHost_plain hp (by simp)
    rw [List.nil_append] at rest
    rw [List.nil_append, cutHost, if_neg (by decide)]
    simp [rest]
  | c :: inner, h => by
    rw [List.mem_cons, not_or] at h
    have rest := cutHost_bracketed hp h.2
    have inside : (c != ']') = true := bne_iff_ne.2 (Ne.symm h.1)
    rw [List.cons_append, cutHost, if_neg (by simp)]
    simp [inside, rest]

theorem cutHost_hostText {text : List Char} (h : HostText text) (port : Option Nat) :
    cutHost false (text ++ portText port) = (text, portText port) := by
  have hp : (portText port).head?.all (· == ':') := by cases port <;> rfl
  rcases h.colons with plain | ⟨inner, rfl, hi⟩
  · exact cutHost_plain hp plain
  · have rest := cutHost_bracketed hp hi
    rw [List.cons_append, List.append_assoc, List.singleton_append, cutHost, if_neg (by decide)]
    simp [rest]

theorem foldl_toDigits (n : Nat) : (Nat.toDigits 10 n).foldl (fun n c => 10 * n + (c.toNat - 48)) 0 = n := by
  have value := foldlM_toDigits (fun c => some (c.toNat - 48)) (show 1 < 10 by decide) (by decide) n
  exact Option.some.inj ((List.foldlM_pure (m := Option)).symm.trans value)

theorem endsAuthority_web {n : Nat} {c : Char} :
    endsAuthority (.web n) c = true ↔ c ∈ ['/', '\\', '?', '#'] := by
  simp [endsAuthority, isSlash, endsPath, Kind.foldsSlashes, or_assoc]

theorem mark_of_endsAuthority {kind : Kind} {c : Char} (h : endsAuthority kind c = true) :
    c ∈ ['/', '\\', '?', '#'] := by
  refine (endsAuthority_web (n := 0)).1 ?_
  simp only [endsAuthority, isSlash, Bool.or_eq_true, Bool.and_eq_true] at h ⊢
  exact h.imp_left (Or.imp_right fun folded => ⟨rfl, folded.2⟩)

theorem readPort_toDigits {m : Nat} (small : m ≤ 65535) {rest : List Char}
    (hr : ∀ c ∈ rest.head?, c ∈ ['/', '\\', '?', '#']) :
    readPort (Nat.toDigits 10 m ++ rest) = .ok (some m, rest) := by
  have marks : ∀ c ∈ ['/', '\\', '?', '#'], Ascii.isDigit c = false ∧
    (!(isSlash (.web 0) c || endsPath c)) = false :=
    List.all_iff_forall_prop.1 (by decide)
  have ends : ∀ c ∈ rest.head?, Ascii.isDigit c = false ∧ (!(isSlash (.web 0) c || endsPath c)) = false :=
    fun c hc => marks c (hr c hc)
  have digits : ∀ c ∈ Nat.toDigits 10 m, Ascii.isDigit c = true := fun c => Ipv4.isDigit_of_mem_decimal
  have cut := span_append (b := rest) digits fun c hc => (ends c hc).1
  have full := toDigits_ne_nil (show 1 < 10 by decide) m
  have closed : (rest.head?.map fun c => !(isSlash (.web 0) c || endsPath c)).getD false = false := by
    cases rest with
    | nil => rfl
    | cons c rest => exact (ends c rfl).2
  simp only [readPort, cut, foldl_toDigits, closed]
  simp [full, Nat.not_lt.2 small]

theorem readPortMark_portText (h : authority.Regular kind) {rest : List Char}
    (hr : ∀ c ∈ rest.head?, endsAuthority kind c = true) :
    readPortMark kind (portText authority.port ++ rest) = .ok (authority.port, rest) := by
  have marks : ∀ c ∈ rest.head?, c ∈ ['/', '\\', '?', '#'] := fun c hc => mark_of_endsAuthority (hr c hc)
  cases hp : authority.port with
  | none =>
    unfold readPortMark
    split
    · next text colon =>
      have first : rest = ':' :: text := colon
      exact absurd (marks ':' (by rw [first]; rfl)) (by decide)
    · rfl
  | some m =>
    obtain ⟨small, other⟩ := h.port m hp
    simp only [portText, Option.map_some, Option.getD_some, List.cons_append, readPortMark,
      readPort_toDigits small marks]
    simp [bind, Except.bind, pure, Except.pure, other]

/-! ## Authorities -/

end

def Authority.text (authority : Authority) (host : List Char) : List Char :=
  authority.writeCredentials ++ (host ++ portText authority.port)

section
variable {kind : Kind} {n : Nat} {authority : Authority} {text : List Char}

theorem mem_authorityText (h : authority.Regular kind) (ht : HostText text) {c : Char}
    (hc : c ∈ authority.text text) :
    endsAuthority kind c = false := by
  rw [← Bool.not_eq_true]
  intro ends
  have mark := mark_of_endsAuthority ends
  have none : ∀ d ∈ ['/', '\\', '?', '#'], isKeptInUser d = false ∧ Ascii.isDigit d = false ∧
    d ≠ ':' ∧ d ≠ '@' :=
    List.all_iff_forall_prop.1 (by decide)
  obtain ⟨user, digit, colon, at_⟩ := none c mark
  rw [Authority.text, List.mem_append, List.mem_append] at hc
  rcases hc with hc | hc | hc
  · rcases mem_writeCredentials h hc with hk | he | he
    · rw [user] at hk
      cases hk
    · exact colon he
    · exact at_ he
  · exact ht.marks c hc (List.mem_cons_of_mem _ mark)
  · rcases mem_portText hc with he | hd
    · exact colon he
    · rw [digit] at hd
      cases hd

theorem readAuthority_authorityText (h : authority.Regular kind) (ht : HostText text) {rest : List Char}
    (hr : ∀ c ∈ rest.head?, endsAuthority kind c = true) {f : Except Fault Host}
    (hf : readHost toAscii kind text (portText authority.port) = f.map some) :
    readAuthority toAscii kind (authority.text text ++ rest) =
      f.map fun host => ({ authority with host := some host }, rest) := by
  have inside : ∀ c ∈ authority.text text, (!endsAuthority kind c) = true := fun c hc => by
    rw [mem_authorityText h ht hc]
    rfl
  have noAt : '@' ∉ text ++ portText authority.port := by
    intro hc
    rcases List.mem_append.1 hc with hc | hc
    · exact ht.marks _ hc List.mem_cons_self
    · rcases mem_portText hc with he | hd
      · exact absurd he (by decide)
      · exact absurd hd (by decide)
  have cut := span_append (b := rest) inside fun c hc => by rw [hr c hc]; rfl
  have place : (text ++ portText authority.port).isEmpty = false := by simp [ht.full]
  simp only [readAuthority, cut]
  simp only [Authority.text, cut_writeCredentials noAt, readCredentials_credentials h, cutHost_hostText ht, place,
    hf, readPortMark_portText h hr, Bool.and_false, Bool.false_and, Bool.false_eq_true, if_false]
  cases f <;> rfl

theorem readAuthority_text (h : authority.Regular (.web n)) (ht : HostText text) {rest : List Char}
    (hr : ∀ c ∈ rest.head?, endsAuthority (.web n) c = true) :
    readAuthority toAscii (.web n) (authority.text text ++ rest) =
      (Host.ofDomain toAscii text).map fun host => ({ authority with host := some host }, rest) :=
  readAuthority_authorityText h ht hr (by simp [readHost, ht.full])

end

/-! ## Paths -/

/-- A segment that is read as it is written in the schemes of a kind. -/
structure SettledIn (kind : Kind) (segment : List Char) : Prop where
  kept : ∀ c ∈ segment, isKeptInPath c = true
  slash : ∀ c ∈ segment, isSlash kind c = false
  here : Path.isHere segment = false
  parent : Path.isParent segment = false

structure Settled (segment : List Char) : Prop where
  kept : ∀ c ∈ segment, isKeptInPath c = true
  slash : ∀ c ∈ segment, c ≠ '/' ∧ c ≠ '\\'
  here : Path.isHere segment = false
  parent : Path.isParent segment = false

theorem Settled.within {segment : List Char} (h : Settled segment) (kind : Kind) : SettledIn kind segment :=
  ⟨h.kept, fun c hc => by simp [isSlash, h.slash c hc], h.here, h.parent⟩

theorem SettledIn.settled {n : Nat} {segment : List Char} (h : SettledIn (.web n) segment) : Settled segment :=
  ⟨h.kept, fun c hc => by simpa [isSlash, Kind.foldsSlashes] using h.slash c hc, h.here, h.parent⟩

theorem settledIn_nil (kind : Kind) : SettledIn kind [] := ⟨by simp, by simp, rfl, rfl⟩

theorem Path.write_eq {path : Path} (h : path ≠ []) : path.write = '/' :: ['/'].intercalate path :=
  flatMap_cons_eq_intercalate h

theorem steps_of_settled {kind : Kind} : ∀ {path : Path}, (∀ segment ∈ path, SettledIn kind segment) →
    Path.steps path = path.map some
  | [], _ => rfl
  | [segment], h => by
    have hs := h segment List.mem_cons_self
    simp [Path.steps, hs.here, hs.parent]
  | segment :: next :: rest, h => by
    have hs := h segment List.mem_cons_self
    have ih := steps_of_settled fun s hm => h s (List.mem_cons_of_mem segment hm)
    rw [Path.steps, hs.here, hs.parent, if_neg Bool.false_ne_true, if_neg Bool.false_ne_true, ih]
    · rfl
    · exact List.cons_ne_nil next rest

theorem foldl_walk (steps : List (List Char)) :
    ∀ path : Path, (steps.map some).foldl Path.walk path = path ++ steps := by
  induction steps with
  | nil => simp
  | cons segment steps ih =>
    intro path
    rw [List.map_cons, List.foldl_cons, ih, Path.walk, List.append_assoc, List.singleton_append]

section
variable {kind : Kind} {path : Path}

theorem pieces_intercalate (full : path ≠ []) (h : ∀ segment ∈ path, ∀ c ∈ segment, isSlash kind c = false) :
    pieces kind (['/'].intercalate path) = path := by
  have same : (['/'].intercalate path).map (fun c => if isSlash kind c then '/' else c) = ['/'].intercalate path := by
    refine (List.map_congr_left fun c hc => ?_).trans (List.map_id _)
    split
    · next slash =>
      rcases mem_intercalate hc with rfl | ⟨segment, hs, hc⟩
      · rfl
      · rw [h segment hs c hc] at slash
        cases slash
    · rfl
  rw [pieces, same]
  exact List.splitOn_intercalate '/' (fun segment hs hc => by cases h segment hs _ hc) full

theorem map_escapeSegment (h : ∀ segment ∈ path, ∀ c ∈ segment, isKeptInPath c = true) :
    path.map escapeSegment = path :=
  (List.map_congr_left fun segment hs => Percent.encode_eq_self (h segment hs)).trans (List.map_id _)

theorem readPath_settled (full : path ≠ []) (h : ∀ segment ∈ path, SettledIn kind segment) :
    readPath kind (['/'].intercalate path) = path := by
  rw [readPath, pieces_intercalate full fun segment hs => (h segment hs).slash,
    map_escapeSegment fun segment hs => (h segment hs).kept, steps_of_settled h, foldl_walk, List.nil_append]

theorem readPath_intercalate {n : Nat} (full : path ≠ []) (h : ∀ segment ∈ path, Settled segment) :
    readPath (.web n) (['/'].intercalate path) = path :=
  readPath_settled full fun segment hs => (h segment hs).within (.web n)

end

/-! ## The query -/

def queryText (query : Option (List Char)) : List Char := (query.map ('?' :: ·)).getD []

theorem readTail_queryText {kind : Kind} {query : Option (List Char)}
    (h : ∀ text ∈ query, ∀ c ∈ text, isKeptInQuery kind c = true) :
    readTail kind (queryText query) = (query, none) := by
  cases query with
  | none => rfl
  | some text =>
    have kept := h text rfl
    have noNumber : ∀ c ∈ '?' :: text, (c != '#') = true := by
      intro c hc
      rw [bne_iff_ne]
      rintro rfl
      rcases List.mem_cons.1 hc with he | hc
      · exact absurd he (by decide)
      · have := kept _ hc
        simp [isKeptInQuery] at this
    have cut := span_append (b := []) noNumber (by simp)
    rw [List.append_nil] at cut
    simp only [readTail, queryText, Option.map_some, Option.getD_some, cut, Percent.encode_eq_self kept]

/-! ## Texts in which nothing is dropped -/

/-- A text without blanks and controls, in which nothing is dropped. -/
def Visible (text : List Char) : Prop := ∀ c ∈ text, 0x20 < c.toNat

theorem trim_eq_self {text : List Char} (first : ∀ c ∈ text.head?, isEdge c = false)
    (last : ∀ c ∈ text.getLast?, isEdge c = false) : trim text = text := by
  have keep : ∀ {text : List Char}, (∀ c ∈ text.head?, isEdge c = false) → text.dropWhile isEdge = text := by
    intro text first
    cases text with
    | nil => rfl
    | cons c text => exact List.dropWhile_cons_of_neg (by simp [first c rfl])
  have back : ∀ c ∈ text.reverse.head?, isEdge c = false := by rwa [List.head?_reverse]
  rw [Url.trim, keep first, keep back, List.reverse_reverse]

theorem Visible.not_edge {text : List Char} (h : Visible text) {c : Char} (hc : c ∈ text) : isEdge c = false := by
  have := h c hc
  simp only [isEdge, decide_eq_false_iff_not]
  omega

theorem Visible.trim {text : List Char} (h : Visible text) : trim text = text :=
  trim_eq_self (fun _ hc => h.not_edge (List.mem_of_head? hc)) fun _ hc => h.not_edge (List.mem_of_getLast? hc)

theorem Visible.unbroken {text : List Char} (h : Visible text) : unbroken text = text := by
  refine List.filter_eq_self.2 fun c hc => ?_
  have := h c hc
  simp only [isBreak, Bool.not_eq_true', Bool.or_eq_false_iff, beq_eq_false_iff_ne]
  refine ⟨⟨?_, ?_⟩, ?_⟩ <;> rintro rfl <;> exact absurd this (by decide)

theorem visible_append {a b : List Char} (ha : Visible a) (hb : Visible b) : Visible (a ++ b) := fun c hc =>
  (List.mem_append.1 hc).elim (ha c) (hb c)

theorem visible_cons {c : Char} {text : List Char} (hc : 0x20 < c.toNat) (h : Visible text) : Visible (c :: text) :=
  fun d hd => (List.mem_cons.1 hd).elim (fun he => he ▸ hc) (h d)

theorem AllWritten.visible {text : List Char} (h : AllWritten text) : Visible text := fun c hc => by
  have := h c hc
  simp only [isWritten, Bool.and_eq_true, decide_eq_true_eq] at this
  omega

/-! ## Schemes -/

/-- A scheme as it is written: a letter, then letters, digits and the marks that a scheme may have,
all of them small. -/
structure IsScheme (scheme : List Char) : Prop where
  letter : scheme.head?.any Ascii.isLetter = true
  chars : ∀ c ∈ scheme, isSchemeChar c = true
  small : scheme.map Ascii.lower = scheme

theorem IsScheme.visible {scheme : List Char} (h : IsScheme scheme) : Visible scheme :=
  AllWritten.visible fun c hc => isWritten_of_isSchemeChar (h.chars c hc)

theorem isScheme_http : IsScheme "http".toList := ⟨by decide, List.all_eq_true.1 (by decide), by decide⟩

theorem isScheme_https : IsScheme "https".toList := ⟨by decide, List.all_eq_true.1 (by decide), by decide⟩

theorem isScheme_file : IsScheme "file".toList := ⟨by decide, List.all_eq_true.1 (by decide), by decide⟩

theorem cutScheme?_append {scheme : List Char} (h : IsScheme scheme) (rest : List Char) :
    cutScheme? (scheme ++ ':' :: rest) = some (scheme, rest) := by
  have noColon : ∀ c ∈ scheme, (c != ':') = true := by
    intro c hc
    rw [bne_iff_ne]
    rintro rfl
    exact absurd (h.chars _ hc) (by decide)
  have span := span_append (b := ':' :: rest) noColon (by simp)
  have front : unbroken scheme = scheme := h.visible.unbroken
  have chars : scheme.all isSchemeChar = true := List.all_eq_true.2 h.chars
  simp only [cutScheme?, span, front, h.letter, chars, h.small, Bool.and_self, if_true]

theorem parse_scheme {scheme rest : List Char} (hs : IsScheme scheme)
    (h : trim (scheme ++ ':' :: rest) = scheme ++ ':' :: rest) : Url.parse toAscii (scheme ++ ':' :: rest) =
      match Kind.ofScheme scheme with
      | .file => readFile toAscii rest
      | .other => readOther toAscii scheme (unbroken rest)
      | kind => readWeb toAscii scheme kind (unbroken rest) := by
  have cut : cutScheme? (trim (scheme ++ ':' :: rest)) = some (scheme, rest) := by rw [h, cutScheme?_append hs]
  unfold Url.parse
  split
  · next none =>
    rw [cut] at none
    cases none
  · next found =>
    rw [cut] at found
    cases found
    rfl

/-! ## Whole texts -/

section
variable {n : Nat} {authority : Authority} {text path : List Char} {query : Option (List Char)}

theorem dropWhile_slashes {text : List Char} (h : ∀ c ∈ text.head?, endsAuthority (.web n) c = false) :
    ('/' :: '/' :: text).dropWhile (isSlash (.web n)) = text := by
  have slash : isSlash (.web n) '/' = true := rfl
  rw [List.dropWhile_cons_of_pos slash, List.dropWhile_cons_of_pos slash]
  cases text with
  | nil => rfl
  | cons c text =>
    have first := h c rfl
    rw [endsAuthority, Bool.or_eq_false_iff] at first
    exact List.dropWhile_cons_of_neg (by simp [first.1])

/-- A URL of the web is read up to the mark behind its authority, and its path and its query from there on. -/
theorem readWeb_authorityText {scheme rest : List Char} (h : authority.Regular (.web n)) (ht : HostText text)
    (hr : ∀ c ∈ rest.head?, endsAuthority (.web n) c = true) :
    readWeb toAscii scheme (.web n) ('/' :: '/' :: (authority.text text ++ rest)) =
      (Host.ofDomain toAscii text).map fun host =>
        withTail scheme (.segments (some { authority with host := some host })
          (readPath (.web n) (dropSlash (.web n) (rest.span (!endsPath ·)).1))) (rest.span (!endsPath ·)).2 := by
  obtain ⟨c, more, hc⟩ : ∃ c more, authority.text text = c :: more :=
    List.exists_cons_of_ne_nil (by simp [Authority.text, ht.full])
  have start : ('/' :: '/' :: (authority.text text ++ rest)).dropWhile (isSlash (.web n)) =
      authority.text text ++ rest := by
    refine dropWhile_slashes fun d hd => mem_authorityText h ht ?_
    rw [hc] at hd ⊢
    cases hd
    exact List.mem_cons_self
  rw [readWeb, start, readAuthority_text h ht hr]
  cases Host.ofDomain toAscii text <;> rfl

theorem readWeb_text {scheme : List Char} (hs : Kind.ofScheme scheme = .web n) (h : authority.Regular (.web n))
    (ht : HostText text) (hp : ∀ c ∈ path, c ≠ '?' ∧ c ≠ '#')
    (hq : ∀ text ∈ query, ∀ c ∈ text, isKeptInQuery (.web n) c = true) :
    readWeb toAscii scheme (.web n) ('/' :: '/' :: (authority.text text ++ '/' :: (path ++ queryText query))) =
      (Host.ofDomain toAscii text).map fun host =>
        ⟨scheme, .segments (some { authority with host := some host }) (readPath (.web n) path), query, none⟩ := by
  have ends : ∀ c ∈ '/' :: path, (!endsPath c) = true := by
    intro c hc
    rcases List.mem_cons.1 hc with rfl | hc
    · rfl
    · simp [endsPath, hp c hc]
  have cut := span_append (b := queryText query) ends (by cases query <;> simp [queryText, endsPath])
  rw [List.cons_append] at cut
  rw [readWeb_authorityText h ht fun c hc => by cases hc; exact endsAuthority_web.2 List.mem_cons_self, cut]
  simp only [withTail, hs, readTail_queryText hq]
  rfl

theorem visible_queryText (hq : ∀ text ∈ query, ∀ c ∈ text, isKeptInQuery (.web n) c = true) :
    Visible (queryText query) := by
  cases query with
  | none => exact fun c hc => absurd hc List.not_mem_nil
  | some text =>
    refine visible_cons (by decide) fun c hc => ?_
    have := hq text rfl c hc
    simp only [isKeptInQuery, Host.isPlain, Bool.and_eq_true, decide_eq_true_eq, bne_iff_ne] at this
    have space := toNat_ne_toNat this.1.1.1.1.1.2
    have low := this.1.1.1.1.1.1.1
    simp at space
    omega

theorem visible_portText (port : Option Nat) : Visible (portText port) := by
  cases port with
  | none => exact allWritten_nil.visible
  | some n => exact (allWritten_cons.2 ⟨by decide, allWritten_toDigits_ten n⟩).visible

theorem visible_authorityText (h : authority.Regular (.web n)) (ht : Visible text) : Visible (authority.text text) := by
  have credentials : AllWritten authority.writeCredentials := fun c hc => by
    rcases mem_writeCredentials h hc with hk | rfl | rfl
    · exact isWritten_of_isKeptInUser hk
    · decide
    · decide
  exact visible_append credentials.visible (visible_append ht (visible_portText authority.port))

theorem parse_web {scheme rest : List Char} (hs : IsScheme scheme) (hk : Kind.ofScheme scheme = .web n)
    (h : trim (scheme ++ ':' :: rest) = scheme ++ ':' :: rest) :
    Url.parse toAscii (scheme ++ ':' :: rest) = readWeb toAscii scheme (.web n) (unbroken rest) := by
  rw [parse_scheme hs h, hk]

def webText (scheme : List Char) (authority : Authority) (host path : List Char)
    (query : Option (List Char)) : List Char :=
  scheme ++ ':' :: '/' :: '/' :: (authority.text host ++ '/' :: (path ++ queryText query))

/-- What is read from such a text: the host is read again, all else is as it was written. -/
theorem parse_webText {scheme : List Char} (hs : IsScheme scheme)
    (hk : Kind.ofScheme scheme = .web n) (h : authority.Regular (.web n)) (ht : HostText text) (visible : Visible text)
    (hp : AllWritten path) (hq : ∀ text ∈ query, ∀ c ∈ text, isKeptInQuery (.web n) c = true) :
    Url.parse toAscii (webText scheme authority text path query) = (Host.ofDomain toAscii text).map fun host =>
      ⟨scheme, .segments (some { authority with host := some host }) (readPath (.web n) path), query, none⟩ := by
  have rest : Visible ('/' :: '/' :: (authority.text text ++ '/' :: (path ++ queryText query))) :=
    visible_cons (by decide) (visible_cons (by decide) (visible_append (visible_authorityText h visible)
      (visible_cons (by decide) (visible_append hp.visible (visible_queryText hq)))))
  have marks : ∀ c ∈ path, c ≠ '?' ∧ c ≠ '#' := by
    intro c hc
    have := hp c hc
    simp only [isWritten, Bool.and_eq_true, bne_iff_ne] at this
    exact ⟨this.1.2, this.2⟩
  rw [webText, parse_web hs hk (visible_append hs.visible (visible_cons (by decide) rest)).trim, rest.unbroken]
  exact readWeb_text hk h ht marks hq

theorem parse_authorityText {scheme : List Char} (hs : IsScheme scheme)
    (hk : Kind.ofScheme scheme = .web n) (h : authority.Regular (.web n)) (ht : HostText text)
    (visible : Visible text) :
    Url.parse toAscii (scheme ++ ':' :: '/' :: '/' :: authority.text text) =
      (Host.ofDomain toAscii text).map fun host =>
        ⟨scheme, .segments (some { authority with host := some host }) [[]], none, none⟩ := by
  have rest : Visible ('/' :: '/' :: authority.text text) :=
    visible_cons (by decide) (visible_cons (by decide) (visible_authorityText h visible))
  have read : readWeb toAscii scheme (.web n) ('/' :: '/' :: (authority.text text ++ [])) =
      (Host.ofDomain toAscii text).map fun host =>
        ⟨scheme, .segments (some { authority with host := some host }) [[]], none, none⟩ :=
    readWeb_authorityText h ht (by simp)
  rw [List.append_nil] at read
  rw [parse_web hs hk (visible_append hs.visible (visible_cons (by decide) rest)).trim, rest.unbroken, read]

end

end Url

end SearchRelay
