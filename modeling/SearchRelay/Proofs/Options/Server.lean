import SearchRelay.Program
import SearchRelay.Proofs.Readback

/-!
# The server that host and port name

Without a URL the server is named by a host and a port, and their texts are put
into the text of a URL. If that is read, and the host has no mark of another
part, the server is the one that the host names by itself, at this port.
-/

namespace SearchRelay

namespace Percent

theorem colon_mem_decode {text : List Char} (h : ':' ∈ text) : 58 ∈ decode text := by
  fun_induction decode text with
  | case1 => cases h
  | case2 a b rest x hx ih =>
    have digits : a ≠ ':' ∧ b ≠ ':' := by
      constructor
      · rintro rfl
        cases hx
      · rintro rfl
        cases ha : Ascii.hexValue? a <;> simp [byte?, ha, show Ascii.hexValue? ':' = none from rfl] at hx
    have later : ':' ∈ rest := by simpa [digits.1.symm, digits.2.symm] using h
    exact List.mem_cons_of_mem x (ih later)
  | case3 a b rest hx ih =>
    have later : ':' ∈ a :: b :: rest := by simpa using h
    exact List.mem_cons_of_mem 37 (ih later)
  | case4 c rest _ ih =>
    rcases List.mem_cons.1 h with rfl | h
    · exact List.mem_append_left _ (by decide)
    · exact List.mem_append_right _ (ih h)

end Percent

namespace Url

/-! ## Hosts -/

namespace Host

section
variable {toAscii : ToAscii} (lawful : toAscii.Lawful)
include lawful

theorem domain_of_colon {text : List Char} (h : ':' ∈ text) : toAscii (Percent.decode text) = none :=
  lawful.refused (c := ':') (by decide) (by decide) (Percent.colon_mem_decode h)

theorem ofDomain_colon {text digits : List Char} {host : Host} (hd : ∀ c ∈ digits, Ascii.isDigit c = true) :
    ofDomain toAscii (text ++ ':' :: digits) ≠ .ok host := by
  intro h
  unfold ofDomain at h
  split at h
  · next inner bracket =>
    unfold bracketed at h
    split at h
    · next last =>
      have whole : (text ++ ':' :: digits).getLast? = some ']' := by
        rw [bracket, List.getLast?_cons, last]
        rfl
      rw [List.getLast?_append_of_ne_nil _ (List.cons_ne_nil _ _)] at whole
      rcases List.mem_cons.1 (List.mem_of_getLast? whole) with colon | digit
      · exact absurd colon (by decide)
      · exact absurd (hd _ digit) (by decide)
    · cases h
  · rw [domain_of_colon lawful (by simp)] at h
    cases h

end

end Host

/-! ## Parts of an authority -/

theorem append_colon_inj {a b c d : List Char} (hb : ':' ∉ b) (hd : ':' ∉ d) (h : a ++ ':' :: b = c ++ ':' :: d) :
    a = c ∧ b = d := by
  have cut {x y : List Char} (hy : ':' ∉ y) :
    (x ++ ':' :: y).reverse.span (· != ':') = (y.reverse, ':' :: x.reverse) := by
    have free : ∀ e ∈ y.reverse, (e != ':') = true := fun e he =>
      bne_iff_ne.2 fun colon => hy (colon ▸ List.mem_reverse.1 he)
    simpa using span_append (b := ':' :: x.reverse) free (by simp)
  have same := (cut hb).symm.trans ((congrArg (fun text => text.reverse.span (· != ':')) h).trans (cut hd))
  simpa [and_comm] using same

theorem digits_of_readPort {n : Nat} {text after : List Char} {port : Option Nat}
    (h : readPort text = .ok (port, after))
    (marks : ∀ c ∈ text, endsAuthority (.web n) c = false) : ∀ c ∈ text, Ascii.isDigit c = true := by
  cases cut : text.span Ascii.isDigit with
  | mk digits rest =>
    obtain ⟨rfl, -⟩ := append_of_span cut
    have digit : ∀ c ∈ digits, Ascii.isDigit c = true := by
      rw [List.span_eq_takeWhile_dropWhile] at cut
      intro c hc
      rw [← (Prod.mk.inj cut).1] at hc
      exact List.mem_takeWhile_imp hc
    simp only [readPort, cut] at h
    split at h
    · cases h
    · next closed =>
      cases rest with
      | nil => simpa using digit
      | cons c rest =>
        have other : (isSlash (.web 0) c || endsPath c) = false := marks c (by simp)
        refine absurd ?_ closed
        rw [List.head?_cons, Option.map_some, Option.getD_some, other, Bool.not_false, Bool.or_true]

/-- A text for a host without the marks that end a host, or stand before one. -/
def Plain (text : List Char) : Prop := ∀ c ∈ text, c ∉ ['/', '\\', '?', '#', '@']

section
variable {toAscii : ToAscii} {n m : Nat} {text : List Char}

theorem Plain.inside (h : Plain text) {c : Char} (hc : c ∈ text) : endsAuthority (.web n) c = false := by
  rw [← Bool.not_eq_true, endsAuthority_web]
  exact fun mark => h c hc (List.mem_append_left ['@'] mark)

theorem plain_portText {port : Option Nat} : Plain (portText port) := by
  intro c hc mark
  have none : ∀ d ∈ ['/', '\\', '?', '#', '@'], d ≠ ':' ∧ Ascii.isDigit d = false :=
    List.all_iff_forall_prop.1 (by decide)
  rcases mem_portText hc with he | digit
  · exact (none c mark).1 he
  · rw [(none c mark).2] at digit
    cases digit

theorem plain_append {a b : List Char} (ha : Plain a) (hb : Plain b) : Plain (a ++ b) := fun c hc =>
  (List.mem_append.1 hc).elim (ha c) (hb c)

/-- A text for a host and a port, if it is read as a host and a port at all, is cut between them. -/
theorem cut_of_readHost (lawful : toAscii.Lawful) {hostText rest after : List Char} {host : Host} {port : Option Nat}
    (plain : Plain (text ++ portText (some m))) (cut : cutHost false (text ++ portText (some m)) = (hostText, rest))
    (hd : Host.ofDomain toAscii hostText = .ok host) (hp : readPortMark (.web n) rest = .ok (port, after)) :
    hostText = text ∧ rest = portText (some m) := by
  have digits : ∀ c ∈ Nat.toDigits 10 m, Ascii.isDigit c = true := fun c => Ipv4.isDigit_of_mem_decimal
  have noColon {digits : List Char} (hd : ∀ c ∈ digits, Ascii.isDigit c = true) : ':' ∉ digits := fun hc =>
    absurd (hd _ hc) (by decide)
  obtain ⟨joined, starts⟩ := append_of_cutHost cut
  cases rest with
  | nil =>
    -- A bracket has taken the colon of the port in; but no host ends in a port.
    rw [List.append_nil] at joined
    rw [← joined] at hd
    exact absurd hd (Host.ofDomain_colon lawful digits)
  | cons c found =>
    obtain rfl : c = ':' := starts c rfl
    obtain ⟨⟨read, last⟩, hr, -⟩ := Result.bind_eq_ok.1 hp
    have foundDigits := digits_of_readPort (n := n) hr fun c hc => plain.inside (by rw [joined]; simp [hc])
    obtain ⟨rfl, rfl⟩ := append_colon_inj (noColon digits) (noColon foundDigits) joined
    exact ⟨rfl, rfl⟩

theorem readAuthority_plain (lawful : toAscii.Lawful) (small : m ≤ 65535) (plain : Plain text)
    {authority : Authority} {rest : List Char}
    (h : readAuthority toAscii (.web n) (text ++ portText (some m)) = .ok (authority, rest)) :
    rest = [] ∧ ∃ host, Host.ofDomain toAscii text = .ok host ∧
      authority = ⟨[], none, some host, (some m).filter fun p => decide (Kind.web n ≠ .web p)⟩ := by
  have whole : Plain (text ++ portText (some m)) := plain_append plain plain_portText
  have inside : ∀ c ∈ text ++ portText (some m), (!endsAuthority (.web n) c) = true := fun c hc => by
    rw [whole.inside hc]
    rfl
  have noAt : '@' ∉ text ++ portText (some m) := fun hc => whole '@' hc (by simp)
  have span := span_append (b := []) inside (by simp)
  rw [List.append_nil] at span
  cases cut : cutHost false (text ++ portText (some m)) with
  | mk hostText found =>
    simp only [readAuthority, span, cutLastAt_eq_none noAt, Option.getD_none, cut, List.append_nil, List.isEmpty_nil,
      Bool.not_true, Bool.and_false, Bool.false_eq_true, if_false] at h
    obtain ⟨_, hh, h⟩ := Result.bind_eq_ok.1 h
    obtain ⟨host, rfl, domain⟩ := domain_of_readHost hh
    obtain ⟨⟨port, after⟩, hp, h⟩ := Result.bind_eq_ok.1 h
    obtain ⟨rfl, rfl⟩ := cut_of_readHost lawful whole cut domain hp
    have read : readPort (Nat.toDigits 10 m ++ []) = .ok (some m, []) := readPort_toDigits small (by simp)
    rw [List.append_nil] at read
    simp only [portText, Option.map_some, Option.getD_some, readPortMark, read] at hp
    cases hp
    cases h
    exact ⟨rfl, host, domain, rfl⟩

end

end Url

namespace Options

open Url

/-- The text that stands for a host: in brackets, if it has a colon and does not open one. -/
def writtenHost (host : String) : List Char :=
  if host.toList.contains ':' && host.toList.head? != some '[' then '[' :: (host.toList ++ [']']) else host.toList

theorem toList_hostUrl (host : String) (port : UInt16) :
    (hostUrl host port).toList =
      "http".toList ++ ':' :: '/' :: '/' :: (writtenHost host ++ portText (some port.toNat)) := by
  unfold hostUrl writtenHost
  split
  · simp [portText]
    rfl
  · simp [portText]
    rfl

theorem unbroken_writtenHost (host : String) : unbroken (writtenHost host) = unbroken host.toList ∨
    unbroken (writtenHost host) = '[' :: (unbroken host.toList ++ [']']) := by
  unfold writtenHost
  split
  · right
    simp [unbroken, isBreak]
  · exact .inl rfl

theorem plain_writtenHost {host : String} (h : Plain host.toList) : Plain (unbroken (writtenHost host)) := by
  have brackets : Plain ['['] ∧ Plain [']'] := by constructor <;> simp [Plain]
  have own : Plain (unbroken host.toList) := fun c hc => h c (List.mem_of_mem_filter hc)
  rcases unbroken_writtenHost host with he | he
  · rw [he]
    exact own
  · rw [he]
    exact plain_append brackets.1 (plain_append own brackets.2)

def writtenPort (port : UInt16) : Option Nat := (some port.toNat).filter fun p => decide (Kind.web 80 ≠ .web p)

theorem writtenPort_eq (port : UInt16) : writtenPort port = if port = 80 then none else some port.toNat := by
  split
  · next web =>
    subst web
    rfl
  · next other =>
    have apart : 80 ≠ port.toNat := fun he => other (UInt16.toNat_inj.1 he.symm)
    simp [writtenPort, apart]

theorem parse_hostUrl {toAscii : ToAscii} (lawful : toAscii.Lawful) {host : String} {port : UInt16} {url : Url}
    (plain : Plain host.toList) (h : Url.parse toAscii (hostUrl host port).toList = .ok url) : ∃ found,
      Host.ofDomain toAscii (unbroken (writtenHost host)) = .ok found ∧
      url = ⟨"http".toList, .segments (some ⟨[], none, some found, writtenPort port⟩) [[]], none, none⟩ := by
  have small : port.toNat ≤ 65535 := Nat.le_of_lt_succ port.toNat_lt
  have place : Plain (unbroken (writtenHost host)) := plain_writtenHost plain
  have digits : Visible (portText (some port.toNat)) := visible_portText _
  have trimmed : trim (hostUrl host port).toList = (hostUrl host port).toList := by
    have ends : (hostUrl host port).toList =
        ("http".toList ++ ':' :: '/' :: '/' :: writtenHost host) ++ portText (some port.toNat) := by
      simp [toList_hostUrl]
    rw [ends]
    refine trim_eq_self (fun c hc => by cases hc; rfl) fun c hc => ?_
    have full : portText (some port.toNat) ≠ [] := List.cons_ne_nil _ _
    rw [List.getLast?_append_of_ne_nil _ full] at hc
    exact digits.not_edge (List.mem_of_getLast? hc)
  have noBreak : unbroken ('/' :: '/' :: (writtenHost host ++ portText (some port.toNat))) =
      '/' :: '/' :: (unbroken (writtenHost host) ++ portText (some port.toNat)) := by
    have parts : unbroken (writtenHost host ++ portText (some port.toNat)) =
        unbroken (writtenHost host) ++ unbroken (portText (some port.toNat)) := List.filter_append _ _
    rw [digits.unbroken] at parts
    exact congrArg (fun rest => '/' :: '/' :: rest) parts
  rw [toList_hostUrl] at h trimmed
  rw [parse_web (n := 80) isScheme_http (by decide) trimmed, noBreak] at h
  obtain ⟨⟨authority, rest⟩, ha, h⟩ := Result.bind_eq_ok.1 h
  rw [dropWhile_slashes fun c hc => (plain_append place plain_portText).inside (List.mem_of_head? hc)] at ha
  obtain ⟨rfl, found, domain, rfl⟩ := readAuthority_plain lawful small place ha
  cases h
  exact ⟨found, domain, rfl⟩

/-! ## The endpoint -/

/-- An endpoint that is a server at a port and nothing more. A host that was written too long to be read is refused. -/
structure IsServer (toAscii : ToAscii) (endpoint : Endpoint) (host : Host) (port : UInt16) : Prop where
  text : endpoint.baseUrl.toList =
    "http://".toList ++ (host.write ++ if port = 80 then [] else ':' :: Nat.toDigits 10 port.toNat)
  read : host.Fits → ∃ base authority, Url.parse toAscii endpoint.baseUrl.toList = .ok base ∧
    base.scheme = "http".toList ∧
    base.authority? = some authority ∧ authority.host = some host ∧ authority.user = [] ∧
      authority.password = none ∧
    base.effectivePort? = some port.toNat ∧ base.path? = some [[]] ∧ base.query = none ∧ base.fragment = none
  refused : ¬host.Fits → Url.parse toAscii endpoint.baseUrl.toList = .error .badDomain
  requests : ∀ inbound request, endpoint.request inbound = .ok request → ∃ database hook design index,
    inbound.path = [database, hook, design, index] ∧ request.url.toList = endpoint.baseUrl.toList ++ '/' ::
      (Endpoint.joined (endpoint.route.leading inbound.query ++ [database, design, index]) ++
        Endpoint.queryPart inbound.query)

theorem isServer_of_ofUrl {toAscii : ToAscii} (lawful : toAscii.Lawful) {text : String} {route : Route}
    {endpoint : Endpoint} {source : List Char} {host : Host}
    {port : UInt16} (domain : Host.ofDomain toAscii source = .ok host) (hb : Url.parse toAscii text.toList =
      .ok ⟨"http".toList, .segments (some ⟨[], none, some host, writtenPort port⟩) [[]], none, none⟩)
    (he : Endpoint.ofUrl text route toAscii = .ok endpoint) : IsServer toAscii endpoint host port := by
  have regular : Authority.Regular (.web 80) ⟨[], none, some host, writtenPort port⟩ := by
    refine ⟨by simp, by simp, fun n hn => ?_⟩
    have kept : writtenPort port = some n := hn
    obtain ⟨he, other⟩ := Option.filter_eq_some_iff.1 kept
    obtain rfl : port.toNat = n := Option.some.inj he
    exact ⟨Nat.le_of_lt_succ port.toNat_lt, of_decide_eq_true other⟩
  have kind : Kind.ofScheme "http".toList = .web 80 := by decide
  have parsed : Url.Parsed toAscii
      ⟨"http".toList, .segments (some ⟨[], none, some host, writtenPort port⟩) [[]], none, none⟩ 80
      ⟨[], none, some host, writtenPort port⟩ host [[]] :=
    ⟨kind, rfl, rfl, regular, ⟨source, domain⟩, by simpa using ⟨by simp, by simp, rfl, rfl⟩⟩
  have base : endpoint.baseUrl.toList = "http".toList ++ ':' :: '/' :: '/' ::
      Authority.text ⟨[], none, some host, writtenPort port⟩ host.write := by
    have none : Path.write (([[]] : Path).rdropWhile List.isEmpty) = [] := rfl
    rw [Endpoint.text_of_ofUrl hb he, Endpoint.baseText_of_parsed lawful parsed, none, List.append_nil]
  have written := hostText_write lawful domain
  have again : Url.parse toAscii _ = _ :=
    parse_authorityText isScheme_http kind regular written (allWritten_ofDomain lawful domain).visible
  rw [← base] at again
  refine ⟨?_, fun fits => ?_, fun long => ?_, fun inbound request hr => ?_⟩
  · rw [base, Authority.text, writtenPort_eq]
    by_cases web : port = 80
    · simp [web, portText, Authority.writeCredentials, Authority.hasCredentials]
    · simp [web, portText, Authority.writeCredentials, Authority.hasCredentials]
  · rw [Host.ofDomain_write lawful domain fits] at again
    refine ⟨_, _, again, rfl, rfl, rfl, rfl, rfl, ?_, rfl, rfl, rfl⟩
    simp only [effectivePort?, Url.authority?, Option.bind_some, kind, writtenPort_eq]
    by_cases web : port = 80
    · simp [web]
    · simp [web]
  · rw [again, Host.ofDomain_long lawful domain long]
    rfl
  · obtain ⟨database, hook, design, index, method, hp, -, -, rfl⟩ := Endpoint.request_eq_ok hr
    refine ⟨database, hook, design, index, hp, ?_⟩
    rw [Endpoint.url, String.toList_ofList, Endpoint.urlTail_eq (endpoint.segments_ne_nil _ _ _ _)]
    rfl

theorem ofUrl_of_relay {toAscii : ToAscii} {ν : Type} {options : Options} {network : Network ν} {state : ν}
    {relay : Relay (Connection ν)} (h : Program.relay options network state toAscii = .ok relay) :
    Endpoint.ofUrl options.baseUrl options.route toAscii = .ok relay.endpoint := by
  unfold Program.relay at h
  split at h
  · next endpoint he =>
    cases h
    exact he
  · cases h

theorem relay_of_ofUrl {toAscii : ToAscii} {options : Options} {endpoint : Endpoint}
    (he : Endpoint.ofUrl options.baseUrl options.route toAscii = .ok endpoint) :
    ∃ relay, Program.relay options Connection.offline () toAscii = .ok relay ∧ relay.endpoint = endpoint := by
  refine ⟨.start endpoint (Connection.transport Connection.offline) (.fresh ()), ?_, rfl⟩
  simp only [Program.relay, he]

/-- The relay for a host of one label is made, and its base URL is not read, if the name of the host does not fit. -/
theorem not_read_of_long_name {toAscii : ToAscii} (lawful : toAscii.Lawful) {label name : List Char}
    (full : label ≠ []) (allowed : ∀ c ∈ label, Domain.isForbidden c = false)
    (domain : Host.ofDomain toAscii label = .ok (.named name)) (long : ¬Domain.Fits name) :
    ∃ relay, Program.relay { empty with remoteHost := some (String.ofList label) } Connection.offline () toAscii =
        .ok relay ∧
      Url.parse toAscii relay.endpoint.baseUrl.toList = .error .badDomain := by
  have noColon : label.contains ':' = false := by
    rw [← Bool.not_eq_true, List.contains_iff_mem]
    exact fun colon => absurd (allowed _ colon) (by decide)
  have back : (String.ofList label).toList = label := String.toList_ofList
  have text : (hostUrl (String.ofList label) 5985).toList =
      "http".toList ++ ':' :: '/' :: '/' :: Authority.text ⟨[], none, none, some 5985⟩ label := by
    rw [toList_hostUrl, writtenHost, back, noColon]
    rfl
  have regular : Authority.Regular (.web 80) ⟨[], none, none, some 5985⟩ := ⟨by simp, by simp, by simp⟩
  have hb : Url.parse toAscii _ = _ := parse_authorityText isScheme_http (by decide) regular
    (hostText_of_allowed full allowed) (visible_of_allowed allowed)
  rw [← text, domain] at hb
  obtain ⟨endpoint, he⟩ : ∃ endpoint,
      Endpoint.ofUrl (hostUrl (String.ofList label) 5985) .command toAscii = .ok endpoint := by
    unfold Endpoint.ofUrl
    rw [hb]
    exact ⟨_, rfl⟩
  obtain ⟨relay, hr, rfl⟩ : ∃ relay,
      Program.relay { empty with remoteHost := some (String.ofList label) } Connection.offline () toAscii =
        .ok relay ∧
      relay.endpoint = endpoint := relay_of_ofUrl he
  have server : IsServer toAscii relay.endpoint _ 5985 := isServer_of_ofUrl lawful domain hb he
  exact ⟨relay, hr, server.refused long⟩

end Options

end SearchRelay
