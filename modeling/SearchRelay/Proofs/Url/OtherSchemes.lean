import SearchRelay.Proofs.Url.Parsed

/-!
# URLs of other schemes, read back

Outside the web and files an authority may be absent or name no host, and a path
may be empty or begin with empty segments. What is written of such a URL is read
as the same URL again, if segments can be added to it.
-/

namespace SearchRelay.Url

variable {toAscii : ToAscii}

/-! ## Hosts -/

/-- A host that stands in an authority of another scheme as a name, and is read as itself there. -/
structure Host.IsName (host : Host) : Prop where
  text : HostText host.write
  written : AllWritten host.write
  again : Host.ofName host.write = .ok (some host)

theorem isPlain_of_isEscaping (c : Char) (h : Percent.isEscaping c = true) : Host.isPlain c = true :=
  of_isWritten (by decide) (isWritten_of_isEscaping h) h

theorem not_isForbiddenInName_of_mem {text : List Char}
    (h : ∀ c ∈ text, Host.isForbiddenInName c = false) {c : Char}
    (hc : c ∈ Percent.encode Host.isPlain text) : Host.isForbiddenInName c = false := by
  rcases Percent.mem_encode hc with ⟨hm, _⟩ | escaping
  · exact h c hm
  · have apart := of_isWritten (p := Percent.isEscaping) (q := fun c => !Host.isForbiddenInName c) (by decide)
      (isWritten_of_isEscaping escaping) escaping
    simpa using apart

theorem hostText_of_name {text : List Char} (full : text ≠ [])
    (h : ∀ c ∈ text, Host.isForbiddenInName c = false) :
    HostText text := hostText_of_class (List.all_iff_forall_prop.1 (by decide)) full h

theorem ofName_of_name {text : List Char} (full : text ≠ []) (h : ∀ c ∈ text, Host.isForbiddenInName c = false) :
    Host.ofName text = .ok (some (.named (Percent.encode Host.isPlain text))) := by
  have none : text.any Host.isForbiddenInName = false := List.any_eq_false.2 fun c hc => by simp [h c hc]
  unfold Host.ofName
  split
  · exact absurd rfl full
  · next inner =>
    have bracket := h '[' List.mem_cons_self
    exact absurd bracket (by decide)
  · rw [none]
    rfl

theorem isName_of_ofName {text : List Char} {host : Host} (h : Host.ofName text = .ok (some host)) : host.IsName := by
  have written := allWritten_ofName h
  unfold Host.ofName at h
  split at h
  · cases h
  · next inner =>
    obtain ⟨found, hb, he⟩ := Result.map_eq_ok.1 h
    cases he
    unfold Host.bracketed at hb
    split at hb
    · split at hb
      · next address _ =>
        cases hb
        exact ⟨hostText_ipv6 address, written, congrArg (Except.map some) (Host.bracketed_write address)⟩
      · cases hb
    · cases hb
  · next full _ =>
    split at h
    · cases h
    · next none =>
      cases h
      rw [Bool.not_eq_true, List.any_eq_false] at none
      have allowed : ∀ c ∈ Percent.encode Host.isPlain text, Host.isForbiddenInName c = false := fun c =>
        not_isForbiddenInName_of_mem fun d hd => by simpa using none d hd
      have nonempty : Percent.encode Host.isPlain text ≠ [] := by
        obtain ⟨c, rest, rfl⟩ := List.exists_cons_of_ne_nil full
        simp [Percent.encode, encodeChar_ne_nil]
      refine ⟨hostText_of_name nonempty allowed, written, ?_⟩
      rw [Host.write, ofName_of_name nonempty allowed,
        Percent.encode_eq_self (Percent.kept_encode isPlain_of_isEscaping text)]

/-! ## Authorities -/

/-- An authority of another scheme: nothing at all, or one with a name for its host. -/
inductive Authority.IsOther : Authority → Prop where
  | none : Authority.none.IsOther
  | named {authority : Authority} {host : Host} (regular : authority.Regular .other)
    (found : authority.host = some host)
      (name : host.IsName) : authority.IsOther

theorem readHost_other_none {text port : List Char} (h : readHost toAscii .other text port = .ok none) :
    text = [] ∧ port.head? ≠ some ':' := by
  simp only [readHost] at h
  split at h
  · cases h
  · next port =>
    unfold Host.ofName at h
    split at h
    · exact ⟨rfl, by simpa using port⟩
    · obtain ⟨_, _, he⟩ := Result.map_eq_ok.1 h
      cases he
    · split at h <;> cases h

theorem isOther_readAuthority {text rest : List Char} {authority : Authority}
    (h : readAuthority toAscii .other text = .ok (authority, rest)) : authority.IsOther := by
  obtain ⟨_, source, port, after, _, colon, ends, read, mark, nothing⟩ := readAuthority_eq_ok h
  cases hh : authority.host with
  | some host =>
    have name : Host.ofName source = .ok (some host) := by
      rw [hh, readHost] at read
      split at read
      · cases read
      · exact read
    exact .named (regular_readAuthority h) hh (isName_of_ofName name)
  | none =>
    -- Without a host there is no colon, so that nothing is read as a port.
    rw [hh] at read
    have noPort : port = [] := by
      cases port with
      | nil => rfl
      | cons c port => exact absurd (congrArg some (colon c rfl)) (readHost_other_none read).2
    rw [noPort, List.nil_append] at mark
    have noNumber : authority.port = none := by
      unfold readPortMark at mark
      split at mark
      · exact absurd (mark_of_endsAuthority (ends ':' rfl)) (by decide)
      · exact (congrArg Prod.fst (Except.ok.inj mark)).symm
    have credentials := nothing hh
    obtain ⟨user, password, host, number⟩ := authority
    simp only [Authority.hasCredentials, Bool.or_eq_false_iff, Bool.not_eq_false', List.isEmpty_iff,
      Option.isSome_eq_false_iff, Option.isNone_iff_eq_none] at credentials
    obtain ⟨rfl, rfl⟩ := credentials
    obtain rfl : host = none := hh
    obtain rfl : number = none := noNumber
    exact .none

theorem readAuthority_write {authority : Authority} (h : authority.IsOther) {rest : List Char}
    (hr : ∀ c ∈ rest.head?, c = '/') :
    readAuthority toAscii .other (authority.write ++ rest) = .ok (authority, rest) := by
  have ends : ∀ c ∈ rest.head?, endsAuthority .other c = true := fun c hc => by
    rw [hr c hc]
    rfl
  cases h with
  | none =>
    cases rest with
    | nil => rfl
    | cons c rest =>
      obtain rfl := hr c rfl
      rfl
  | @named _ host regular found name =>
    have whole : authority.write = authority.text host.write := by
      simp [Authority.write, Authority.text, portText, found]
    have read : readHost toAscii .other host.write (portText authority.port) = .ok (some host) := by
      rw [readHost, if_neg (by simp [name.text.full]), name.again]
    have same : { authority with host := some host } = authority := by rw [← found]
    have text := readAuthority_authorityText (f := .ok host) regular name.text ends read
    rw [whole, text, Except.map, same]

theorem Authority.IsOther.written {authority : Authority} (h : authority.IsOther) : authority.Written := by
  cases h with
  | none => exact ⟨by simp [Authority.none], fun _ hp => (by cases hp), fun _ hh => (by cases hh)⟩
  | named regular found name =>
    refine ⟨fun c hc => isWritten_of_isKeptInUser (regular.user c hc), fun password hp c hc =>
      isWritten_of_isKeptInUser ((regular.password password hp).2 c hc), fun host hh => ?_⟩
    rw [found] at hh
    cases hh
    exact name.written

/-! ## Whole URLs -/

/-- A URL of another scheme as it comes from a text, if segments can be added to it. -/
structure ParsedOther (url : Url) (authority : Option Authority) (path : Path) : Prop where
  scheme : IsScheme url.scheme
  kind : Kind.ofScheme url.scheme = .other
  target : url.target = .segments authority path
  authority : ∀ found ∈ authority, found.IsOther
  settled : ∀ segment ∈ path, SettledIn .other segment

theorem parsed_of_other {text : List Char} {url : Url} (h : Url.parse toAscii text = .ok url)
    (hk : Kind.ofScheme url.scheme = .other) (hp : url.path?.isSome = true) :
    ∃ authority path, url.ParsedOther authority path := by
  obtain ⟨scheme, rest, read⟩ := read_of_parse h
  rw [hk] at read
  simp only [readOther] at read
  split at read
  · obtain ⟨⟨authority, after⟩, ha, hu⟩ := Result.bind_eq_ok.1 read
    have target := congrArg Url.target (Except.ok.inj hu)
    refine ⟨_, _, scheme, hk, target.symm, ?_, fun segment hs => ?_⟩
    · rintro _ ⟨⟩
      exact isOther_readAuthority ha
    · split at hs
      · cases hs
      · exact settledIn_readPath hs
  · have target := congrArg Url.target (Except.ok.inj read)
    exact ⟨_, _, scheme, hk, target.symm, fun _ found => (by cases found), fun segment => settledIn_readPath⟩
  · have target := congrArg Url.target (Except.ok.inj read)
    rw [Url.path?, ← target] at hp
    cases hp

section
variable {scheme : List Char} {authority : Option Authority} {path : Path}

theorem readOther_authority {found : Authority} (ha : found.IsOther)
    (h : ∀ segment ∈ path, SettledIn .other segment) :
    readOther toAscii scheme ('/' :: '/' :: (found.write ++ path.write)) =
      .ok ⟨scheme, .segments (some found) path, none, none⟩ := by
  have slash : ∀ c ∈ path.write.head?, c = '/' := by cases path <;> simp [Path.write]
  have span := span_of_allWritten (written_of_settled h).write
  simp only [readOther, readOtherAuthority, readAuthority_write ha slash, bind, Except.bind, span]
  cases path with
  | nil => rfl
  | cons segment path =>
    have full : segment :: path ≠ [] := List.cons_ne_nil _ _
    have read := readPath_settled full h
    rw [Path.write_eq full]
    simp only [List.isEmpty_cons, Bool.false_eq_true, if_false, dropSlash, show isSlash .other '/' = true from rfl,
      if_true, read]
    rfl

theorem readOther_slash {text : List Char} (h : AllWritten text) (single : text.head? ≠ some '/') :
    readOther toAscii scheme ('/' :: text) = .ok ⟨scheme, .segments none (readPath .other text), none, none⟩ := by
  unfold readOther
  split
  · next he =>
    cases he
    exact absurd rfl single
  · next he =>
    cases he
    rw [span_of_allWritten h]
    rfl
  · next other => exact absurd rfl (other text)

theorem readPath_dot (full : path ≠ []) (h : ∀ segment ∈ path, SettledIn .other segment) :
    readPath .other (['/'].intercalate (['.'] :: path)) = path := by
  have dotted : ∀ segment ∈ ['.'] :: path, (∀ c ∈ segment, isKeptInPath c = true) ∧
      ∀ c ∈ segment, isSlash .other c = false := by
    rw [List.forall_mem_cons]
    exact ⟨by constructor <;> simp <;> decide, fun segment hs => ⟨(h segment hs).kept, (h segment hs).slash⟩⟩
  obtain ⟨first, rest, rfl⟩ := List.exists_cons_of_ne_nil full
  have skipped : Path.steps (['.'] :: first :: rest) = Path.steps (first :: rest) := rfl
  rw [readPath, pieces_intercalate (List.cons_ne_nil _ _) fun segment hs => (dotted segment hs).2,
    map_escapeSegment fun segment hs => (dotted segment hs).1, skipped, steps_of_settled h, foldl_walk, List.nil_append]

/-- What is written of a path without an authority is read as that path: two slashes at its start open no authority. -/
theorem readOther_path (full : path ≠ []) (h : ∀ segment ∈ path, SettledIn .other segment) :
    readOther toAscii scheme (Target.segments none path).write = .ok ⟨scheme, .segments none path, none, none⟩ := by
  have written : AllWritten (['/'].intercalate path) := AllWritten.intercalate (by decide) (written_of_settled h)
  unfold Target.write
  split
  · next he => cases he
  · next next rest he =>
    cases he
    have text : '.' :: '/' :: ['/'].intercalate ([] :: next :: rest) =
        ['/'].intercalate (['.'] :: [] :: next :: rest) := by
      simp [List.intercalate_cons_cons]
    rw [Path.write_eq full, readOther_slash
      (allWritten_cons.2 ⟨by decide, allWritten_cons.2 ⟨by decide, written⟩⟩)
      (by simp), text, readPath_dot full h]
  · next single he =>
    cases he
    have first : (['/'].intercalate path).head? ≠ some '/' := by
      intro slash
      match path, full with
      | [[]], _ => cases slash
      | [] :: next :: rest, _ => exact single next rest rfl
      | (c :: segment) :: rest, _ =>
        have other := (h _ List.mem_cons_self).slash c List.mem_cons_self
        have head : (['/'].intercalate ((c :: segment) :: rest)).head? = some c := by
          cases rest <;> simp [List.intercalate_cons_cons]
        rw [head] at slash
        cases slash
        cases other
    rw [Path.write_eq full, readOther_slash written first, readPath_settled full h]
  · next he => cases he

end

/-- What is written of a URL of another scheme is read as that URL. -/
theorem parse_write_other {url : Url} {authority : Option Authority} {path : Path} (h : url.ParsedOther authority path)
    (full : authority = none → path ≠ []) (bare : url.query = none ∧ url.fragment = none) :
    Url.parse toAscii url.write = .ok url := by
  obtain ⟨scheme, target, query, fragment⟩ := url
  obtain ⟨hs, hk, ht, ha, settled⟩ := h
  obtain rfl : target = .segments authority path := ht
  obtain ⟨rfl, rfl⟩ : query = none ∧ fragment = none := bare
  have written : AllWritten (Target.segments authority path).write :=
    Target.Written.write ⟨fun found hf => (ha found hf).written, written_of_settled settled⟩
  have text : Url.write ⟨scheme, .segments authority path, none, none⟩ =
      scheme ++ ':' :: (Target.segments authority path).write := by simp [Url.write]
  have kind : Kind.ofScheme scheme = .other := hk
  have visible : Visible (scheme ++ ':' :: (Target.segments authority path).write) :=
    visible_append hs.visible (visible_cons (by decide) written.visible)
  rw [text, parse_scheme hs visible.trim, kind, written.visible.unbroken]
  cases authority with
  | none => exact readOther_path (full rfl) settled
  | some found =>
    have text : (Target.segments (some found) path).write = '/' :: '/' :: (found.write ++ path.write) := by
      simp [Target.write]
    rw [text]
    exact readOther_authority (ha found rfl) settled

end SearchRelay.Url
