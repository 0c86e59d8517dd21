import SearchRelay.Indexer
import SearchRelay.Proofs.Relay.Calls
import SearchRelay.Proofs.Target

/-!
# Requests that reach the indexer

What the indexer takes from a request on the wire is what the relay was asked
for: the segments, the query, the headers that pass and the body. Nothing that
the server adds to its answer is passed back.
-/

namespace SearchRelay

namespace Uri

theorem wholePath_eq_path {uri : Uri} (h : uri.path ≠ []) : uri.wholePath = uri.path := by
  simp [wholePath, h]

end Uri

namespace Header

theorem lookup_lower {names : List String} {name lowered : String}
    (only : ∀ other ∈ names, String.ofList (other.toList.map Ascii.lower) = lowered ↔ other = name) :
    ∀ {headers : List (String × String)}, (∀ header ∈ headers, header.1 ∈ names) →
      (headers.map fun header => (String.ofList (header.1.toList.map Ascii.lower), header.2)).lookup lowered =
        headers.lookup name
  | [], _ => rfl
  | (other, value) :: headers, listed => by
    have same : (lowered == String.ofList (other.toList.map Ascii.lower)) = (name == other) := by
      rw [Bool.eq_iff_iff, beq_iff_eq, beq_iff_eq, eq_comm, only other (listed _ List.mem_cons_self), eq_comm]
    rw [List.map_cons, List.lookup_cons, List.lookup_cons, same,
      lookup_lower only fun header hm => listed header (List.mem_cons_of_mem _ hm)]

end Header

namespace WireRequest

def IsReadable (value : String) : Prop := ∀ c ∈ value.toList, c = '\t' ∨ 0x20 ≤ c.toNat ∧ c.toNat < 0x7F

theorem visible?_eq_some_iff {value seen : String} : visible? value = some seen ↔
    IsReadable value ∧ value = seen := by
  have all : (value.toList.all fun c => c == '\t' || (0x20 ≤ c.toNat && c.toNat < 0x7F)) = true ↔
    IsReadable value := by
    simp [IsReadable]
  rw [visible?]
  split
  · next h => simp [all.1 h]
  · next h => simp [mt all.2 h]

end WireRequest

namespace Endpoint

section
variable {toAscii : Url.ToAscii} (lawful : toAscii.Lawful)
include lawful

theorem ofUrl_localhost (route : Route) :
    ofUrl "http://localhost:5985" route toAscii = .ok ⟨"http://localhost:5985", route⟩ := by
  have name : toAscii (Percent.decode "localhost".toList) = some "localhost".toList :=
    Url.Host.domain_of_plain lawful (List.all_iff_forall_prop.1 (by decide)) (by decide)
  have domain : Url.Host.ofDomain toAscii "localhost".toList = .ok (.named "localhost".toList) := by
    rw [Url.Host.ofDomain_of_name (Url.Host.domain_ne_bracket lawful name) name (by decide)]
    rfl
  have regular : Url.Authority.Regular (.web 80) ⟨[], none, none, some 5985⟩ := ⟨by simp, by simp, by simp⟩
  have read : Url.parse toAscii "http://localhost:5985".toList = _ :=
    Url.parse_authorityText Url.isScheme_http (by decide) regular (Url.hostText_of_domain lawful name (by decide))
      (Url.allWritten_domain lawful name).visible
  rw [ofUrl, read, domain]
  rfl

theorem eq_of_ofUrl_localhost {route : Route} {endpoint : Endpoint}
    (h : ofUrl "http://localhost:5985" route toAscii = .ok endpoint) :
    endpoint = ⟨"http://localhost:5985", route⟩ := by
  rw [ofUrl_localhost lawful] at h
  exact (Except.ok.inj h).symm

end

variable {endpoint : Endpoint} {inbound : HookRequest} {request : IndexerRequest}

theorem listed_of_request (h : endpoint.request inbound = .ok request) :
    ∀ header ∈ request.headers, header.1 ∈ Header.requestNames := by
  obtain ⟨_, _, _, _, _, _, _, _, rfl⟩ := request_eq_ok h
  exact fun header hm => (Header.kept_keep _ _).listed _ (List.mem_map_of_mem hm)

theorem isValidValue_of_request (h : endpoint.request inbound = .ok request) :
    ∀ header ∈ request.headers, Header.isValidValue header.2 = true := by
  obtain ⟨_, _, _, _, _, _, _, legal, rfl⟩ := request_eq_ok h
  exact isValidValue_of_illegalHeader? legal

theorem url_of_request {database hook design index : String} (h : endpoint.request inbound = .ok request)
    (hp : inbound.path = [database, hook, design, index]) :
    request.url = endpoint.url (endpoint.segments inbound.query database design index) inbound.query := by
  obtain ⟨_, _, _, _, _, path, _, _, rfl⟩ := request_eq_ok h
  rw [hp] at path
  cases path
  rfl

end Endpoint

namespace Indexer

/-! ## Requests -/

/-- A request on the wire that says what the relay sent for some segments and a query. -/
structure Arrives (wire : WireRequest) (request : IndexerRequest) (segments : List String) (query : Dict) : Prop where
  method : wire.method = request.method.name
  path : wire.uri.wholePath = '/' :: Endpoint.joined segments
  query : queryOf wire = query
  accept : wire.header? "accept" = request.headers.lookup "Accept"
  tag : wire.header? "if-none-match" = request.headers.lookup "If-None-Match"
  body : wire.body = Utf8.encode (request.body.getD "").toList

theorem queryOf_of_target {wire : WireRequest} {query : Dict} (h : wire.uri.query = Endpoint.queryOf query) :
    queryOf wire = query := by
  have pairs : Form.decode (wire.uri.query.getD []) = query.entries := by
    rw [h, Endpoint.queryOf]
    split
    · next none =>
      rw [Dict.isEmpty, List.isEmpty_iff] at none
      rw [none]
      rfl
    · exact Form.decode_encode query.entries
  rw [queryOf, pairs, Dict.ofList_entries]

variable {endpoint : Endpoint} {inbound : HookRequest} {request : IndexerRequest} {database hook design index : String}

theorem exchange_of_request (base : endpoint.baseUrl = "http://localhost:5985")
    (hr : endpoint.request inbound = .ok request) (hp : inbound.path = [database, hook, design, index])
    (short : Utf8.size request.url.toList ≤ 65534) :
    ∃ wire, exchange request = .ok (answer wire) ∧
      Arrives wire request (endpoint.segments inbound.query database design index) inbound.query := by
  have url := Endpoint.url_of_request hr hp
  have authority : endpoint.baseUrl.toList = "http://".toList ++ "localhost:5985".toList := by
    rw [base]
    decide
  have inside : ∀ c ∈ "localhost:5985".toList, Uri.endsAuthority c = false := List.all_iff_forall_prop.1 (by decide)
  have valid : Uri.checkAuthority "localhost:5985".toList = .ok () := rfl
  rw [url] at short
  have target := Endpoint.parse_address authority (by decide) valid inside
    (endpoint.segments_ne_nil inbound.query database design index) short
  have listed := Endpoint.listed_of_request hr
  -- Headers that passed can be sent, so the target alone decides.
  have sent := WireRequest.ofIndexerRequest_of_checked fun header hm =>
    ⟨WireRequest.isToken_requestName _ (listed header hm), Endpoint.isValidValue_of_request hr header hm⟩
  rw [url, target] at sent
  refine ⟨_, by rw [exchange, sent]; rfl, ?_⟩
  exact {
    method := rfl
    path := Uri.wholePath_eq_path (by simp)
    query := queryOf_of_target rfl
    accept := Header.lookup_lower (by decide) listed
    tag := Header.lookup_lower (by decide) listed
    body := rfl }

/-! ## Paths -/

theorem splitOn_path {segments : List String} (h : segments ≠ []) :
    ('/' :: Endpoint.joined segments).splitOn '/' = [] :: segments.map Percent.encodeSegment := by
  rw [List.splitOn_cons_eq_if_modifyHead, Endpoint.splitOn_joined h]
  rfl

theorem isEmpty_encodeSegment {segment : String} (h : segment ≠ "") :
    (Percent.encodeSegment segment).isEmpty = false := by
  rw [← Bool.not_eq_true, List.isEmpty_iff]
  exact fun none => h (Percent.encodeSegment_inj.1 (none : _ = Percent.encodeSegment ""))

/-! ## Answers -/

theorem report_send {method : Method} (h : method ≠ .head) (a : IndexerAnswer) :
    Endpoint.report (send method.name a) = Endpoint.report a := by
  have size : ∀ value, Header.keep Header.answerNames (("content-length", value) :: a.headers) =
      Header.keep Header.answerNames a.headers := fun value => by
    have unlisted : Header.isListed Header.answerNames ("content-length", value) = false := by
      rw [Header.isListed, show Header.canonical? Header.answerNames "content-length" = none by decide,
        Option.isSome_none]
    rw [Header.keep, List.foldl_cons, Header.take_of_unlisted unlisted]
    rfl
  cases method
  case head => exact absurd rfl h
  all_goals simp [send, Method.name, Endpoint.report, Endpoint.answerHeaders, size]

end Indexer

namespace Relay

variable {route : Route} {relay : Relay Unit} {line : String} {inbound : HookRequest} {request : IndexerRequest}
  {database hook design index : String}

theorem answer_of_indexer {toAscii : Url.ToAscii} (lawful : toAscii.Lawful)
    (transport : relay.transport = .ofFunction Indexer.exchange)
    (he : Endpoint.ofUrl "http://localhost:5985" route toAscii = .ok relay.endpoint)
    (hl : HookRequest.ofLine line = .ok inbound)
    (hr : relay.endpoint.request inbound = .ok request) (hp : inbound.path = [database, hook, design, index])
    (method : request.method ≠ .head) (short : Utf8.size request.url.toList ≤ 65534) :
    ∃ wire, Indexer.Arrives wire request (route.leading inbound.query ++ [database, design, index]) inbound.query ∧
      (relay.handle line).answer = Endpoint.report (Indexer.draft wire) := by
  have endpoint := Endpoint.eq_of_ofUrl_localhost lawful he
  obtain ⟨wire, exchanged, arrives⟩ := Indexer.exchange_of_request (by rw [endpoint]) hr hp short
  rw [Endpoint.segments, endpoint] at arrives
  have accepted : relay.endpoint.requestOfLine line = .ok request := Result.bind_eq_ok.2 ⟨inbound, hl, hr⟩
  have executed : relay.transport.execute relay.state request = (.ok (Indexer.answer wire), (), []) := by
    simp only [transport, Transport.ofFunction, exchanged]
  refine ⟨wire, arrives, ?_⟩
  rw [handle_of_ok accepted, forward_of_ok executed, Indexer.answer, arrives.method]
  exact Indexer.report_send method _

end Relay

end SearchRelay
