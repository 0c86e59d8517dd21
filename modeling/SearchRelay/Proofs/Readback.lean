import Mathlib.Data.List.DropRight
import SearchRelay.Proofs.Address
import SearchRelay.Proofs.Url.Parsed

/-!
# Reading the address of a request as a URL

The address of a request is the text of a URL of the web: the parts of the base
URL before its path, the segments of that path and those of the request, and the
query. So what a reader of URLs takes from it are these parts again.
-/

namespace SearchRelay

namespace Url

/-! ## Dots -/

theorem decode_of_plainDots {text dots : List Char} (h : Path.plainDots text = '.' :: dots) :
    ∃ rest, Path.plainDots rest = dots ∧ Percent.decode text = 46 :: Percent.decode rest := by
  unfold Path.plainDots at h
  split at h
  · next rest => exact ⟨rest, (List.cons.inj h).2, rfl⟩
  · next rest => exact ⟨rest, (List.cons.inj h).2, rfl⟩
  · next c rest _ _ =>
    obtain ⟨rfl, hd⟩ := List.cons.inj h
    exact ⟨rest, hd, Percent.decode_cons (by decide) rest⟩
  · cases h

theorem eq_nil_of_plainDots {text : List Char} (h : Path.plainDots text = []) : text = [] := by
  unfold Path.plainDots at h
  split at h
  · cases h
  · cases h
  · cases h
  · rfl

theorem kept_of_mem_encodeSegment {text : String} {c : Char} (h : c ∈ Percent.encodeSegment text) :
    isKeptInPath c = true ∧ c ≠ '/' ∧ c ≠ '\\' := by
  have kept : (isKeptInPath c && (c != '/' && c != '\\')) = true := by
    rcases Percent.mem_encode h with ⟨_, hu⟩ | he
    · exact of_isWritten (p := Percent.isUnreserved) (q := fun c => isKeptInPath c && (c != '/' && c != '\\'))
        (by decide) (isWritten_of_isUnreserved hu) hu
    · exact of_isWritten (p := Percent.isEscaping) (q := fun c => isKeptInPath c && (c != '/' && c != '\\'))
        (by decide) (isWritten_of_isEscaping he) he
  simpa only [Bool.and_eq_true, bne_iff_ne] using kept

theorem settled_encodeSegment {text : String} (here : text ≠ ".") (parent : text ≠ "..") :
    Settled (Percent.encodeSegment text) := by
  have decoded : Percent.decode (Percent.encodeSegment text) = Utf8.encode text.toList :=
    Percent.decode_encode (by decide) text.toList
  have whole : unbroken (Percent.encodeSegment text) = Percent.encodeSegment text :=
    (allWritten_encodeSegment text).visible.unbroken
  have other : ∀ {dots : String}, text ≠ dots → Utf8.encode text.toList ≠ Utf8.encode dots.toList := by
    intro dots ne same
    have := Utf8.decodeLossy_encode text.toList
    rw [same, Utf8.decodeLossy_encode] at this
    exact ne (String.toList_inj.1 this.symm)
  refine ⟨fun c hc => (kept_of_mem_encodeSegment hc).1, fun c hc => (kept_of_mem_encodeSegment hc).2, ?_, ?_⟩
  · rw [← Bool.not_eq_true, Path.isHere, whole, beq_iff_eq]
    intro h
    obtain ⟨rest, hr, hd⟩ := decode_of_plainDots h
    rw [eq_nil_of_plainDots hr, decoded] at hd
    exact other here hd
  · rw [← Bool.not_eq_true, Path.isParent, whole, beq_iff_eq]
    intro h
    obtain ⟨rest, hr, hd⟩ := decode_of_plainDots h
    obtain ⟨rest', hr', hd'⟩ := decode_of_plainDots hr
    rw [hd', eq_nil_of_plainDots hr', decoded] at hd
    exact other parent hd

/-! ## Queries -/

theorem isKeptInQuery_of_mem_form {entries : List (String × String)} {c : Char}
    (h : c ∈ Form.encode entries) (n : Nat) :
    isKeptInQuery (.web n) c = true := by
  have marks : ∀ d ∈ ['&', '=', '+'], isKeptInQuery (.web 0) d = true := List.all_iff_forall_prop.1 (by decide)
  rcases Form.mem_encode h with mark | kept | escaping
  · exact marks c mark
  · exact of_isWritten (p := Form.isKept) (q := isKeptInQuery (.web 0)) (by decide) (isWritten_of_isKept kept) kept
  · exact of_isWritten (p := Percent.isEscaping) (q := isKeptInQuery (.web 0)) (by decide)
      (isWritten_of_isEscaping escaping) escaping

end Url

namespace Endpoint

open Url

/-! ## The base -/

theorem trimSlashes_eq (text : List Char) : trimSlashes text = text.rdropWhile (· == '/') := rfl

theorem trimSlashes_of_getLast? {text : List Char} (h : text.getLast? ≠ some '/') : trimSlashes text = text := by
  rw [trimSlashes_eq]
  induction text using List.reverseRecOn with
  | nil => rfl
  | append_singleton text c _ =>
    rw [List.getLast?_concat] at h
    exact List.rdropWhile_concat_neg _ _ _ fun hc => h (congrArg some (beq_iff_eq.1 hc))

/-- The slashes that are dropped at the end of a base are those of its last empty segments, if there are other
segments. -/
theorem trimSlashes_append_write (front : List Char) (path : Path) :
    trimSlashes (front ++ path.write) = trimSlashes (front ++ Path.write (path.rdropWhile List.isEmpty)) := by
  induction path using List.reverseRecOn with
  | nil => rfl
  | append_singleton path segment ih =>
    rw [List.rdropWhile_concat]
    split
    · next empty =>
      have write : front ++ Path.write (path ++ [segment]) = front ++ Path.write path ++ ['/'] := by
        simp [Path.write, List.isEmpty_iff.1 empty]
      rw [write, ← ih, trimSlashes_eq, trimSlashes_eq, List.rdropWhile_concat_pos _ _ _ rfl]
    · rfl

section
variable {front : List Char} {path : Path}

theorem getLast?_append_write (full : path.rdropWhile List.isEmpty ≠ []) (h : ∀ segment ∈ path, '/' ∉ segment) :
    (front ++ Path.write (path.rdropWhile List.isEmpty)).getLast? ≠ some '/' := by
  have last := List.rdropWhile_last_not List.isEmpty path full
  have known := h _ ((List.rdropWhile_prefix _ _).subset (List.getLast_mem full))
  rw [← List.dropLast_append_getLast full]
  cases hs : (path.rdropWhile List.isEmpty).getLast full using List.reverseRecOn with
  | nil => exact absurd (List.isEmpty_iff.2 hs) last
  | append_singleton segment c =>
    have write (before : Path) : front ++ Path.write (before ++ [segment ++ [c]]) =
        front ++ Path.write before ++ '/' :: segment ++ [c] := by simp [Path.write]
    rw [write, List.getLast?_concat]
    rintro ⟨⟩
    exact known (by rw [hs]; simp)

theorem trimSlashes_path (full : path.rdropWhile List.isEmpty ≠ []) (h : ∀ segment ∈ path, '/' ∉ segment) :
    trimSlashes (front ++ path.write) = front ++ Path.write (path.rdropWhile List.isEmpty) := by
  rw [trimSlashes_append_write, trimSlashes_of_getLast? (getLast?_append_write full h)]

theorem trimSlashes_write (ends : front.getLast? ≠ some '/') (h : ∀ segment ∈ path, '/' ∉ segment) :
    trimSlashes (front ++ path.write) = front ++ Path.write (path.rdropWhile List.isEmpty) := by
  by_cases full : path.rdropWhile List.isEmpty = []
  · have none : Path.write [] = [] := rfl
    rw [trimSlashes_append_write, full, none, List.append_nil, trimSlashes_of_getLast? ends]
  · exact trimSlashes_path full h

end

def front : Option Authority → Path → List Char
  | some authority, _ => '/' :: '/' :: authority.write
  | none, [] :: _ :: _ => ['/', '.']
  | none, _ => []

theorem write_eq_front : ∀ (authority : Option Authority) (path : Path),
    (Target.segments authority path).write = front authority path ++ path.write
  | some _, _ => rfl
  | none, [] => rfl
  | none, [_] => by simp [Target.write, front]
  | none, [] :: _ :: _ => rfl
  | none, (_ :: _) :: _ :: _ => rfl

theorem baseText_eq {base : Url} {authority : Option Authority} {path : Path}
    (h : base.target = .segments authority path) :
    baseText base = trimSlashes (base.scheme ++ ':' :: front authority path ++ path.write) := by
  rw [baseText, Url.write, h]
  simp [write_eq_front]

section
variable {base : Url} {authority : Option Authority} {path : Path}

theorem baseText_of_full (ht : base.target = .segments authority path) (full : path.rdropWhile List.isEmpty ≠ [])
    (h : ∀ segment ∈ path, '/' ∉ segment) :
    baseText base = base.scheme ++ ':' :: (front authority path ++ Path.write (path.rdropWhile List.isEmpty)) := by
  rw [baseText_eq ht, trimSlashes_path full h, List.append_assoc, List.cons_append]

theorem baseText_of_host {found : Authority} {host : Host} {kind : Kind}
    (ht : base.target = .segments (some found) path)
    (hf : found.host = some host) (regular : found.Regular kind) (name : HostText host.write)
    (h : ∀ segment ∈ path, '/' ∉ segment) : baseText base =
      base.scheme ++ ':' :: '/' :: '/' :: (found.text host.write ++ Path.write (path.rdropWhile List.isEmpty)) := by
  have whole : found.write = found.text host.write := by simp [Authority.write, Authority.text, portText, hf]
  have ends : (base.scheme ++ ':' :: '/' :: '/' :: found.text host.write).getLast? ≠ some '/' := by
    intro he
    obtain ⟨c, hc⟩ : ∃ c, (found.text host.write).getLast? = some c :=
      Option.ne_none_iff_exists'.1 (by simp [Authority.text, name.full])
    have front : base.scheme ++ ':' :: '/' :: '/' :: found.text host.write =
        base.scheme ++ [':', '/', '/'] ++ found.text host.write := by simp
    rw [front, List.getLast?_append, hc, Option.some_or, Option.some.injEq] at he
    subst he
    have := mem_authorityText regular name (List.mem_of_getLast? hc)
    simp [endsAuthority, isSlash] at this
  rw [baseText_eq ht, front, whole, trimSlashes_write ends h]
  simp

end

theorem text_of_ofUrl {toAscii : ToAscii} {text : String} {route : Route} {endpoint : Endpoint} {base : Url}
    (hb : Url.parse toAscii text.toList = .ok base) (he : ofUrl text route toAscii = .ok endpoint) :
    endpoint.baseUrl.toList = baseText base := by
  unfold ofUrl at he
  rw [hb] at he
  dsimp only at he
  split at he
  · cases he
    rw [String.toList_ofList]
  · cases he

theorem baseText_of_parsed {toAscii : ToAscii} (lawful : toAscii.Lawful) {base : Url} {n : Nat}
    {authority : Authority} {host : Host} {path : Path} (h : base.Parsed toAscii n authority host path) :
    baseText base =
      base.scheme ++ ':' :: '/' :: '/' :: (authority.text host.write ++ Path.write (path.rdropWhile List.isEmpty)) := by
  obtain ⟨text, domain⟩ := h.domain
  exact baseText_of_host h.target h.found h.regular (hostText_write lawful domain) fun segment hs hc =>
    ((h.settled segment hs).slash _ hc).1 rfl

/-! ## The address -/

def queryOf (query : Dict) : Option (List Char) := if query.isEmpty then none else some (Form.encode query.entries)

/-- The segments of an address: those of the base but the last empty ones, and those of the request. -/
def pathOf (path : Path) (segments : List String) : Path :=
  path.rdropWhile List.isEmpty ++ segments.map Percent.encodeSegment

section
variable {toAscii : ToAscii} {text : String} {route : Route} {endpoint : Endpoint} {inbound : HookRequest}
  {request : IndexerRequest} {database hook design index : String} {base : Url} {n : Nat}
    {authority : Authority} {host : Host} {path : Path}

theorem url_eq_webText (lawful : toAscii.Lawful) (hb : Url.parse toAscii text.toList = .ok base)
    (he : ofUrl text route toAscii = .ok endpoint)
    (hr : endpoint.request inbound = .ok request) (hp : inbound.path = [database, hook, design, index])
    (parsed : base.Parsed toAscii n authority host path) : request.url.toList = webText base.scheme authority host.write
      (['/'].intercalate (pathOf path (route.leading inbound.query ++ [database, design, index])))
        (queryOf inbound.query) := by
  obtain ⟨database', hook', design', index', method, hp', -, -, rfl⟩ := request_eq_ok hr
  rw [hp] at hp'
  cases hp'
  have full : pathOf path (endpoint.segments inbound.query database design index) ≠ [] := by simp [pathOf, segments]
  have tail : urlTail (endpoint.segments inbound.query database design index) inbound.query =
      Path.write ((endpoint.segments inbound.query database design index).map Percent.encodeSegment) ++
        queryText (queryOf inbound.query) := by
    rw [urlTail, Path.write, List.flatMap_map, queryOf]
    split <;> rfl
  have joined : Path.write (path.rdropWhile List.isEmpty) ++
      Path.write ((endpoint.segments inbound.query database design index).map Percent.encodeSegment) =
        '/' :: ['/'].intercalate (pathOf path (endpoint.segments inbound.query database design index)) := by
    rw [← Path.write_eq full, pathOf, Path.write, Path.write, Path.write, List.flatMap_append]
  rw [← route_of_ofUrl he, ← segments, url, String.toList_ofList, text_of_ofUrl hb he,
    baseText_of_parsed lawful parsed, tail,
    webText]
  simp only [List.append_assoc, List.cons_append]
  rw [← List.append_assoc (Path.write _) (Path.write _), joined]
  simp

theorem allWritten_pathOf (h : ∀ segment ∈ path, Settled segment) (segments : List String) :
    AllWritten (['/'].intercalate (pathOf path segments)) := by
  refine AllWritten.intercalate (by decide) fun segment hs => ?_
  rcases List.mem_append.1 hs with hs | hs
  · have kept := (h segment ((List.rdropWhile_prefix _ _).subset hs)).kept
    exact fun c hc => isWritten_of_isKeptInPath (kept c hc)
  · obtain ⟨text, _, rfl⟩ := List.mem_map.1 hs
    exact allWritten_encodeSegment text

/-- The address of a request read as a URL: its host is read again, all else is as it was put together. -/
theorem parse_url (lawful : toAscii.Lawful) (hb : Url.parse toAscii text.toList = .ok base)
    (hs : base.scheme = "http".toList ∨ base.scheme = "https".toList) (he : ofUrl text route toAscii = .ok endpoint)
    (hr : endpoint.request inbound = .ok request) (hp : inbound.path = [database, hook, design, index])
    (parsed : base.Parsed toAscii n authority host path) :
    Url.parse toAscii request.url.toList = (Host.ofDomain toAscii host.write).map fun host =>
      ⟨base.scheme, .segments (some { authority with host := some host }) (readPath (.web n)
        (['/'].intercalate (pathOf path (route.leading inbound.query ++ [database, design, index])))),
        queryOf inbound.query, none⟩ := by
  obtain ⟨source, domain⟩ := parsed.domain
  have query : ∀ text ∈ queryOf inbound.query, ∀ c ∈ text, isKeptInQuery (.web n) c = true := by
    intro text ht c hc
    unfold queryOf at ht
    split at ht
    · cases ht
    · cases ht
      exact isKeptInQuery_of_mem_form hc n
  rw [url_eq_webText lawful hb he hr hp parsed]
  exact parse_webText (hs.elim (· ▸ isScheme_http) (· ▸ isScheme_https)) parsed.kind parsed.regular
    (hostText_write lawful domain) (allWritten_ofDomain lawful domain).visible
    (allWritten_pathOf parsed.settled _) query

/-- Whether the host of a URL is read again as it is written: no label of it in Punycode is too long for that. -/
def HostFits (url : Url) : Prop := ∀ authority ∈ url.authority?, ∀ host ∈ authority.host, host.Fits

theorem hostFits_of_parsed (parsed : base.Parsed toAscii n authority host path) : HostFits base ↔ host.Fits := by
  simp [HostFits, Url.authority?, parsed.target, parsed.found]

theorem hostFits_of_short {name : List Char} (h : base.authority?.bind Authority.host = some (.named name))
    (short : ∀ label ∈ name.splitOn '.', label.length ≤ Domain.digitLimit) : HostFits base := by
  intro authority ha host hh
  rw [ha, Option.bind_some, hh] at h
  cases h
  intro label hl digits he
  have := short label hl
  rw [he] at this
  simp only [List.length_cons] at this
  omega

theorem parse_url_long (lawful : toAscii.Lawful) (hb : Url.parse toAscii text.toList = .ok base)
    (hs : base.scheme = "http".toList ∨ base.scheme = "https".toList) (he : ofUrl text route toAscii = .ok endpoint)
    (hr : endpoint.request inbound = .ok request) (long : ¬HostFits base) :
    Url.parse toAscii request.url.toList = .error .badDomain := by
  obtain ⟨n, authority, host, path, parsed⟩ := parsed_of_parse hb hs
  obtain ⟨database, hook, design, index, _, hp, -⟩ := request_eq_ok hr
  obtain ⟨source, domain⟩ := parsed.domain
  rw [hostFits_of_parsed parsed] at long
  rw [parse_url lawful hb hs he hr hp parsed, Host.ofDomain_long lawful domain long]
  rfl

end

/-! ## A host that is too long -/

section
variable {toAscii : ToAscii} {label name : List Char} (full : label ≠ [])
  (allowed : ∀ c ∈ label, Domain.isForbidden c = false) (domain : Host.ofDomain toAscii label = .ok (.named name))
  (long : ¬Domain.Fits name) (route : Route)
include full allowed domain long

/-- A base whose host is one label is accepted although the name of the host does not fit. -/
theorem accepted_of_long_name : ∃ base endpoint,
    Url.parse toAscii (String.ofList ("http://".toList ++ label ++ ['/'])).toList = .ok base ∧
      base.scheme = "http".toList ∧
      ofUrl (String.ofList ("http://".toList ++ label ++ ['/'])) route toAscii = .ok endpoint ∧ ¬HostFits base := by
  have regular : Authority.Regular (.web 80) ⟨[], none, none, none⟩ := ⟨by simp, by simp, by simp⟩
  have text : (String.ofList ("http://".toList ++ label ++ ['/'])).toList =
      webText "http".toList ⟨[], none, none, none⟩ label [] none := by
    simp [webText, Authority.text, Authority.writeCredentials, Authority.hasCredentials, portText, queryText]
  have noQuery : ∀ text ∈ (none : Option (List Char)), ∀ c ∈ text, isKeptInQuery (.web 80) c = true := by simp
  have read : Url.parse toAscii (webText "http".toList ⟨[], none, none, none⟩ label [] none) = _ :=
    parse_webText isScheme_http (by decide) regular (hostText_of_allowed full allowed) (visible_of_allowed allowed)
      allWritten_nil noQuery
  rw [← text, domain] at read
  obtain ⟨base, hb, scheme, target⟩ : ∃ base,
      Url.parse toAscii (String.ofList ("http://".toList ++ label ++ ['/'])).toList = .ok base ∧
      base.scheme = "http".toList ∧ base.target =
        .segments (some ⟨[], none, some (.named name), none⟩) (readPath (.web 80) []) := ⟨_, read, rfl, rfl⟩
  obtain ⟨endpoint, he⟩ : ∃ endpoint,
      ofUrl (String.ofList ("http://".toList ++ label ++ ['/'])) route toAscii = .ok endpoint := by
    unfold ofUrl
    rw [hb]
    exact ⟨_, if_pos (by simp [Url.path?, target])⟩
  have authority : base.authority? = some ⟨[], none, some (.named name), none⟩ := by
    rw [Url.authority?, target]
  exact ⟨base, endpoint, hb, scheme, he, fun fits => long (fits _ authority _ rfl)⟩

end

def wideUrl : List Char := "http://".toList ++ ToAscii.wideLabel ++ ['/']

theorem accepted_wideUrl (route : Route) : ∃ base endpoint,
    Url.parse .limited (String.ofList wideUrl).toList = .ok base ∧ base.scheme = "http".toList ∧
      ofUrl (String.ofList wideUrl) route = .ok endpoint ∧ ¬HostFits base :=
  accepted_of_long_name ToAscii.wideLabel_ne_nil ToAscii.allowed_wideLabel ToAscii.ofDomain_wideLabel
    ToAscii.not_fits_wideName route

theorem refused_wideUrl (route : Route) : ∃ base endpoint,
    Url.parse .limited (String.ofList wideUrl).toList = .ok base ∧ base.scheme = "http".toList ∧
      ofUrl (String.ofList wideUrl) route = .ok endpoint ∧
      ∀ inbound request, endpoint.request inbound = .ok request →
        Url.parse .limited request.url.toList = .error .badDomain := by
  obtain ⟨base, endpoint, hb, scheme, he, unfit⟩ := accepted_wideUrl route
  exact ⟨base, endpoint, hb, scheme, he, fun _ _ hr =>
    parse_url_long ToAscii.limited_lawful hb (.inl scheme) he hr unfit⟩

/-! ## The segments -/

section
variable {toAscii : ToAscii} {text : String} {route : Route} {endpoint : Endpoint} {inbound : HookRequest}
  {request : IndexerRequest} {database hook design index : String} {base : Url}

end

section
variable {toAscii : ToAscii} {text : String} {route : Route} {endpoint : Endpoint} {inbound : HookRequest}
  {request : IndexerRequest} {base : Url}

end

end Endpoint

end SearchRelay
