import SearchRelay.Proofs.Url.Reread

/-!
# What was read from a URL

The parts of a URL obey what its written text needs to be read again: what they
hold is escaped, a port is not that of the scheme, and outside files no segment
of the path is a dot.
-/

namespace SearchRelay.Url

variable {toAscii : ToAscii}

/-! ## Authorities -/

theorem encodeChar_ne_nil (keep : Char → Bool) (c : Char) : Percent.encodeChar keep c ≠ [] := by
  have bytes : String.utf8EncodeChar c ≠ [] := by
    rw [← List.length_pos_iff, String.length_utf8EncodeChar]
    exact c.utf8Size_pos
  unfold Percent.encodeChar
  split
  · simp
  · obtain ⟨b, bytes, hb⟩ := List.exists_cons_of_ne_nil bytes
    rw [hb]
    simp [Percent.escape]

theorem regular_readCredentials (text : List Char) : (∀ c ∈ (readCredentials text).1, isKeptInUser c = true) ∧
    ∀ password ∈ (readCredentials text).2, password ≠ [] ∧ ∀ c ∈ password, isKeptInUser c = true := by
  have kept := Percent.kept_encode isKeptInUser_of_isEscaping
  unfold readCredentials
  dsimp only
  split
  · next user _ c password _ =>
    refine ⟨kept _, ?_⟩
    rintro _ ⟨⟩
    refine ⟨?_, kept _⟩
    rw [Percent.encode, List.flatMap_cons]
    simp [encodeChar_ne_nil]
  · exact ⟨kept _, fun _ h => by cases h⟩

theorem regular_readPortMark {kind : Kind} {text rest : List Char} {port : Option Nat}
    (h : readPortMark kind text = .ok (port, rest)) : ∀ n ∈ port, n ≤ 65535 ∧ kind ≠ .web n := by
  unfold readPortMark at h
  split at h
  · next text =>
    obtain ⟨⟨found, after⟩, hr, hp⟩ := Result.bind_eq_ok.1 h
    cases hp
    intro n hn
    obtain ⟨hf, other⟩ := Option.filter_eq_some_iff.1 hn
    refine ⟨?_, by simpa using other⟩
    simp only [readPort] at hr
    split at hr
    · cases hr
    · next ok =>
      simp only [Except.ok.injEq, Prod.mk.injEq, hf] at hr
      split at hr
      · cases hr.1
      · cases hr.1
        simp only [Bool.or_eq_true, decide_eq_true_eq, not_or, Nat.not_lt] at ok
        exact ok.1
  · cases h
    exact fun _ h => by cases h

theorem append_of_cutHost {port : List Char} : ∀ {text host : List Char} {inside : Bool},
    cutHost inside text = (host, port) → text = host ++ port ∧ ∀ c ∈ port.head?, c = ':'
  | [], host, inside, h => by
    cases h
    simp
  | c :: text, host, inside, h => by
    unfold cutHost at h
    split at h
    · next colon =>
      cases h
      simp only [Bool.and_eq_true, decide_eq_true_eq] at colon
      simp [colon.1]
    · cases cut : cutHost (c == '[' || (inside && c != ']')) text with
      | mk found rest =>
        simp only [cut] at h
        cases h
        obtain ⟨joined, starts⟩ := append_of_cutHost cut
        exact ⟨congrArg (c :: ·) joined, starts⟩

section
variable {kind : Kind} {n : Nat} {text rest : List Char} {authority : Authority}

/-- The parts that an authority was read from: its credentials, the text of its host, and from there on. -/
theorem readAuthority_eq_ok (h : readAuthority toAscii kind text = .ok (authority, rest)) :
    ∃ credentials host port after,
    readCredentials credentials = (authority.user, authority.password) ∧ (∀ c ∈ port.head?, c = ':') ∧
      (∀ c ∈ after.head?, endsAuthority kind c = true) ∧ readHost toAscii kind host port = .ok authority.host ∧
      readPortMark kind (port ++ after) = .ok (authority.port, rest) ∧
      (authority.host = none → authority.hasCredentials = false) := by
  cases span : text.span (!endsAuthority kind ·) with
  | mk whole after =>
    cases last : (cutLastAt whole).getD ([], whole) with
    | mk credentials place =>
      cases cut : cutHost false place with
      | mk host port =>
        simp only [readAuthority, span, last, cut, bind, Except.bind] at h
        split at h
        · cases h
        split at h
        · cases h
        next host' hh =>
        split at h
        · cases h
        next p hp =>
        split at h
        · cases h
        next some =>
        cases h
        refine ⟨credentials, host, port, after, rfl, (append_of_cutHost cut).2,
          fun c hc => ?_, hh, hp, fun none => ?_⟩
        · simpa using (append_of_span span).2 c hc
        · have none : host' = .none := none
          simpa [none] using some

theorem regular_readAuthority (h : readAuthority toAscii kind text = .ok (authority, rest)) :
    authority.Regular kind := by
  obtain ⟨credentials, _, _, _, read, -, -, -, port, -⟩ := readAuthority_eq_ok h
  have kept := regular_readCredentials credentials
  rw [read] at kept
  exact ⟨kept.1, kept.2, regular_readPortMark port⟩

theorem domain_of_readHost {port : List Char} {host : Option Host}
    (h : readHost toAscii (.web n) text port = .ok host) :
    ∃ found, host = some found ∧ Host.ofDomain toAscii text = .ok found := by
  simp only [readHost] at h
  split at h
  · cases h
  · obtain ⟨found, domain, rfl⟩ := Result.map_eq_ok.1 h
    exact ⟨found, rfl, domain⟩

theorem domain_of_readAuthority (h : readAuthority toAscii (.web n) text = .ok (authority, rest)) :
    ∃ host, authority.host = some host ∧ ∃ text, Host.ofDomain toAscii text = .ok host := by
  obtain ⟨_, source, _, _, _, -, -, read, -, -⟩ := readAuthority_eq_ok h
  obtain ⟨host, found, domain⟩ := domain_of_readHost read
  exact ⟨host, found, source, domain⟩

end

/-! ## Hosts -/

theorem hostText_of_class {p : Char → Bool} (marks : ∀ c ∈ ['@', '/', '\\', '?', '#', ':', '['], p c = true)
    {text : List Char} (full : text ≠ []) (h : ∀ c ∈ text, p c = false) : HostText text := by
  have none : ∀ c ∈ text, c ∉ ['@', '/', '\\', '?', '#', ':', '['] := by
    intro c hc mark
    have := h c hc
    rw [marks c mark] at this
    cases this
  exact ⟨full, fun c hc mark => none c hc (List.mem_append_left [':', '['] mark),
    .inl fun c hc mark => none c hc (List.mem_append_right ['@', '/', '\\', '?', '#'] mark)⟩

theorem hostText_of_allowed {text : List Char} (full : text ≠ [])
    (allowed : ∀ c ∈ text, Domain.isForbidden c = false) :
    HostText text := hostText_of_class (List.all_iff_forall_prop.1 (by decide)) full allowed

theorem visible_of_allowed {text : List Char} (allowed : ∀ c ∈ text, Domain.isForbidden c = false) :
    Visible text := by
  intro c hc
  by_contra low
  have forbidden : ∀ n < 0x21, Domain.isForbidden (Char.ofNat n) = true := by decide
  have := allowed c hc
  rw [← Char.ofNat_toNat c, forbidden c.toNat (by omega)] at this
  cases this

theorem hostText_of_domain (lawful : toAscii.Lawful) {bytes : List UInt8} {name : List Char}
    (h : toAscii bytes = some name) (full : name ≠ []) : HostText name :=
  hostText_of_allowed full fun c hc => (lawful.output h c hc).2

theorem mem_writeIpv6 {address : Ipv6.Address} {c : Char} (h : c ∈ Ipv6.write address) :
    c = ':' ∨ ∃ d < 16, c = d.digitChar := by
  have words : ∀ {words : List UInt16}, c ∈ Ipv6.writeWords words → c = ':' ∨ ∃ d < 16, c = d.digitChar := by
    intro words h
    rcases mem_intercalate h with rfl | ⟨piece, hp, hc⟩
    · exact .inl rfl
    · obtain ⟨w, _, rfl⟩ := List.mem_map.1 hp
      exact .inr (mem_toDigits (by decide) hc)
  rw [Ipv6.write] at h
  dsimp only at h
  split at h
  · exact words h
  · rw [List.mem_append, List.mem_cons, List.mem_cons] at h
    rcases h with h | rfl | rfl | h
    · exact words h
    · exact .inl rfl
    · exact .inl rfl
    · exact words h

theorem hostText_ipv6 (address : Ipv6.Address) : HostText (Host.ipv6 address).write := by
  have digits : ∀ d < 16, d.digitChar ∉ ['@', '/', '\\', '?', '#', ']'] := by decide
  have inner : ∀ c ∈ Ipv6.write address, c ∉ ['@', '/', '\\', '?', '#', ']'] := by
    intro c hc
    rcases mem_writeIpv6 hc with rfl | ⟨d, hd, rfl⟩
    · decide
    · exact digits d hd
  refine ⟨List.cons_ne_nil _ _, fun c hc mark => ?_, .inr ⟨Ipv6.write address, rfl, fun hc => ?_⟩⟩
  · simp only [Host.write, List.cons_append, List.mem_cons, List.mem_append, List.not_mem_nil, or_false] at hc
    rcases hc with rfl | hc | rfl
    · exact absurd mark (by decide)
    · refine inner c hc ?_
      simp only [List.mem_cons, List.not_mem_nil, or_false] at mark ⊢
      tauto
    · exact absurd mark (by decide)
  · exact inner _ hc (by decide)

theorem hostText_write (lawful : toAscii.Lawful) {text : List Char} {host : Host}
    (h : Host.ofDomain toAscii text = .ok host) : HostText host.write := by
  cases host with
  | named name =>
    obtain ⟨hd, full, _⟩ := Host.domain_of_named h
    exact hostText_of_domain lawful hd full
  | ipv4 address => exact hostText_of_domain lawful (Host.domain_ipv4 lawful address) (by simp [Host.write, Ipv4.write])
  | ipv6 address => exact hostText_ipv6 address

/-! ## Paths -/

theorem not_isSlash_of_mem_pieces {kind : Kind} {text piece : List Char} (h : piece ∈ pieces kind text) :
    ∀ c ∈ piece, isSlash kind c = false := by
  intro c hc
  rw [← Bool.not_eq_true]
  intro slash
  obtain ⟨d, _, hd⟩ := List.mem_map.1 ((mem_splitOn h).1 hc)
  split at hd
  · subst hd
    exact (mem_splitOn h).2 hc
  · next other =>
    rw [hd] at other
    exact other slash

theorem not_isSlash_of_isEscaping {kind : Kind} {c : Char} (h : Percent.isEscaping c = true) :
    isSlash kind c = false := by
  have apart : c ≠ '/' ∧ c ≠ '\\' := by constructor <;> rintro rfl <;> exact absurd h (by decide)
  simp [isSlash, apart]

theorem not_isSlash_of_mem_escapeSegment {kind : Kind} {segment : List Char}
    (h : ∀ c ∈ segment, isSlash kind c = false) :
    ∀ c ∈ escapeSegment segment, isSlash kind c = false := fun c hc =>
  (Percent.mem_encode hc).elim (fun found => h c found.1) not_isSlash_of_isEscaping

theorem settledIn_readPath {kind : Kind} {text segment : List Char} (h : segment ∈ readPath kind text) :
    SettledIn kind segment := by
  rcases settled_of_mem_steps ((mem_walks h).resolve_left List.not_mem_nil) with rfl | ⟨hm, here, parent⟩
  · exact settledIn_nil kind
  · obtain ⟨piece, hp, rfl⟩ := List.mem_map.1 hm
    exact ⟨Percent.kept_encode isKeptInPath_of_isEscaping piece,
      not_isSlash_of_mem_escapeSegment (not_isSlash_of_mem_pieces hp), here, parent⟩

theorem settled_readPath {n : Nat} {text segment : List Char} (h : segment ∈ readPath (.web n) text) :
    Settled segment :=
  (settledIn_readPath h).settled

theorem written_of_settled {kind : Kind} {path : Path} (h : ∀ segment ∈ path, SettledIn kind segment) :
    path.Written :=
  fun segment hs c hc => isWritten_of_isKeptInPath ((h segment hs).kept c hc)

theorem span_of_allWritten {text : List Char} (h : AllWritten text) : text.span (!endsPath ·) = (text, []) := by
  have inside : ∀ c ∈ text, (!endsPath c) = true := fun c hc => by
    have := h c hc
    simp only [isWritten, Bool.and_eq_true, bne_iff_ne] at this
    simp [endsPath, this.1.2, this.2]
  have cut := span_append (b := []) inside (by simp)
  rwa [List.append_nil] at cut

/-! ## Whole URLs -/

/-- A URL of the web as it comes from a text. -/
structure Parsed (toAscii : ToAscii) (url : Url) (n : Nat) (authority : Authority) (host : Host)
    (path : Path) : Prop where
  kind : Kind.ofScheme url.scheme = .web n
  target : url.target = .segments (some authority) path
  found : authority.host = some host
  regular : authority.Regular (.web n)
  domain : ∃ text, Host.ofDomain toAscii text = .ok host
  settled : ∀ segment ∈ path, Settled segment

theorem scheme_of_readWeb {scheme text : List Char} {kind : Kind} {url : Url}
    (h : readWeb toAscii scheme kind text = .ok url) :
    url.scheme = scheme := by
  obtain ⟨⟨authority, rest⟩, _, h⟩ := Result.bind_eq_ok.1 h
  cases h
  rfl

theorem scheme_of_readOther {scheme text : List Char} {url : Url} (h : readOther toAscii scheme text = .ok url) :
    url.scheme = scheme := by
  unfold readOther at h
  split at h
  · obtain ⟨⟨authority, rest⟩, _, h⟩ := Result.bind_eq_ok.1 h
    cases h
    rfl
  · cases h
    rfl
  · cases h
    rfl

theorem scheme_of_readFile {text : List Char} {url : Url} (h : readFile toAscii text = .ok url) :
    url.scheme = "file".toList := by
  unfold readFile at h
  split at h
  · cases h
    rfl
  split at h
  · cases h
    rfl
  unfold readFileAuthority at h
  dsimp only at h
  split at h
  · cases h
    rfl
  · obtain ⟨host, _, h⟩ := Result.bind_eq_ok.1 h
    split at h <;> cases h <;> rfl

theorem isSchemeChar_lower {c : Char} (h : isSchemeChar c = true) : isSchemeChar (Ascii.lower c) = true :=
  of_isWritten (p := isSchemeChar) (q := fun c => isSchemeChar (Ascii.lower c)) (by decide)
    (isWritten_of_isSchemeChar h) h

theorem isLetter_lower {c : Char} (h : Ascii.isLetter c = true) : Ascii.isLetter (Ascii.lower c) = true :=
  of_isWritten (p := Ascii.isLetter) (q := fun c => Ascii.isLetter (Ascii.lower c)) (by decide)
    (isWritten_of_isLetter h) h

theorem isScheme_of_cutScheme? {text scheme rest : List Char} (h : cutScheme? text = some (scheme, rest)) :
    IsScheme scheme := by
  unfold cutScheme? at h
  split at h
  · next before _ _ _ =>
    dsimp only at h
    split at h
    · next ok =>
      simp only [Bool.and_eq_true, List.all_eq_true] at ok
      cases h
      refine ⟨?_, fun c hc => ?_, ?_⟩
      · cases hb : unbroken before with
        | nil => simp [hb] at ok
        | cons c letters =>
          rw [hb] at ok
          exact isLetter_lower ok.1
      · obtain ⟨d, hd, rfl⟩ := List.mem_map.1 hc
        exact isSchemeChar_lower (ok.2 d hd)
      · rw [List.map_map]
        exact List.map_congr_left fun c _ => Ascii.lower_eq_self (Ascii.isUpper_lower c)
    · cases h
  · cases h

theorem read_of_parse {text : List Char} {url : Url} (h : Url.parse toAscii text = .ok url) :
    IsScheme url.scheme ∧ ∃ rest,
    match Kind.ofScheme url.scheme with
    | .file => readFile toAscii rest = .ok url
    | .other => readOther toAscii url.scheme rest = .ok url
    | kind => readWeb toAscii url.scheme kind rest = .ok url := by
  unfold Url.parse at h
  split at h
  · cases h
  next scheme rest cut =>
  have front := isScheme_of_cutScheme? cut
  cases hk : Kind.ofScheme scheme with
  | file =>
    simp only [hk] at h
    rw [scheme_of_readFile h]
    exact ⟨isScheme_file, rest, h⟩
  | other =>
    simp only [hk] at h
    rw [scheme_of_readOther h, hk]
    exact ⟨front, _, h⟩
  | web n =>
    simp only [hk] at h
    rw [scheme_of_readWeb h, hk]
    exact ⟨front, _, h⟩

theorem parsed_of_web {text : List Char} {url : Url} {n : Nat} (h : Url.parse toAscii text = .ok url)
    (hk : Kind.ofScheme url.scheme = .web n) : ∃ authority host path, url.Parsed toAscii n authority host path := by
  obtain ⟨-, rest, read⟩ := read_of_parse h
  rw [hk] at read
  obtain ⟨⟨authority, after⟩, ha, hu⟩ := Result.bind_eq_ok.1 read
  obtain ⟨host, found, domain⟩ := domain_of_readAuthority ha
  have target := congrArg Url.target (Except.ok.inj hu)
  exact ⟨authority, host, _, hk, target.symm, found, regular_readAuthority ha, domain,
    fun segment => settled_readPath⟩

theorem parsed_of_parse {text : List Char} {url : Url} (h : Url.parse toAscii text = .ok url)
    (hs : url.scheme = "http".toList ∨ url.scheme = "https".toList) :
    ∃ n authority host path, url.Parsed toAscii n authority host path := by
  have web : ∃ n, Kind.ofScheme url.scheme = .web n := by
    rcases hs with hs | hs <;> rw [hs] <;> exact ⟨_, rfl⟩
  obtain ⟨n, hk⟩ := web
  exact ⟨n, parsed_of_web h hk⟩

end SearchRelay.Url
