import SearchRelay.Proofs.Request
import SearchRelay.Proofs.Text.Order
import SearchRelay.Proofs.Url.Domain

/-!
# Addresses of requests

The address of a request is the base URL, a slash, and a rest that says no more
and no less than the segments and the query: the separators that stand in it are
those between the parts, whatever characters the parts hold.
-/

namespace SearchRelay.Endpoint

/-! ## Segments -/

theorem isUnreserved_separators : Percent.isUnreserved '/' = false ∧ Percent.isUnreserved '?' = false ∧
    Percent.isUnreserved '#' = false := by decide

theorem slash_not_mem_segment (segment : String) : '/' ∉ Percent.encodeSegment segment :=
  Percent.not_mem_encode isUnreserved_separators.1 rfl _

theorem question_not_mem_segment (segment : String) : '?' ∉ Percent.encodeSegment segment :=
  Percent.not_mem_encode isUnreserved_separators.2.1 rfl _

theorem number_not_mem_segment (segment : String) : '#' ∉ Percent.encodeSegment segment :=
  Percent.not_mem_encode isUnreserved_separators.2.2 rfl _

def joined (segments : List String) : List Char := ['/'].intercalate (segments.map Percent.encodeSegment)

theorem flatMap_slash_eq_joined {segments : List String} (h : segments ≠ []) :
    segments.flatMap (fun segment => '/' :: Percent.encodeSegment segment) = '/' :: joined segments := by
  rw [joined, ← flatMap_cons_eq_intercalate (by simpa using h), List.flatMap_map]

theorem mem_joined {c : Char} {segments : List String} (h : c ∈ joined segments) (hs : c ≠ '/') :
    ∃ segment ∈ segments, c ∈ Percent.encodeSegment segment := by
  obtain ⟨piece, hp, hc⟩ := (mem_intercalate h).resolve_left hs
  obtain ⟨segment, hm, rfl⟩ := List.mem_map.1 hp
  exact ⟨segment, hm, hc⟩

theorem question_not_mem_joined (segments : List String) : '?' ∉ joined segments := by
  intro h
  obtain ⟨segment, _, h⟩ := mem_joined h (by decide)
  exact question_not_mem_segment segment h

theorem number_not_mem_joined (segments : List String) : '#' ∉ joined segments := by
  intro h
  obtain ⟨segment, _, h⟩ := mem_joined h (by decide)
  exact number_not_mem_segment segment h

theorem splitOn_joined {segments : List String} (h : segments ≠ []) :
    (joined segments).splitOn '/' = segments.map Percent.encodeSegment := by
  refine List.splitOn_intercalate '/' (fun piece hp => ?_) (by simpa using h)
  obtain ⟨segment, _, rfl⟩ := List.mem_map.1 hp
  exact slash_not_mem_segment segment

theorem decode_joined {segments : List String} (h : segments ≠ []) :
    ((joined segments).splitOn '/').map Percent.decodeSegment? = segments.map some := by
  rw [splitOn_joined h, List.map_map]
  exact List.map_congr_left fun segment _ => Percent.decodeSegment?_encodeSegment segment

/-! ## Queries -/

def queryPart (query : Dict) : List Char := if query.isEmpty then [] else '?' :: Form.encode query.entries

theorem number_not_mem_queryPart (query : Dict) : '#' ∉ queryPart query := by
  unfold queryPart
  split
  · exact List.not_mem_nil
  · rw [List.mem_cons]
    rintro (h | h)
    · exact absurd h (by decide)
    · exact Form.not_mem_encode (by decide) (by decide) (by decide) (by decide) (by decide) _ h

theorem question_mem_queryPart {query : Dict} : '?' ∈ queryPart query ↔ query.entries ≠ [] := by
  unfold queryPart Dict.isEmpty
  cases query.entries <;> simp

theorem decode_queryPart (query : Dict) : Form.decode ((queryPart query).drop 1) = query.entries := by
  unfold queryPart
  split
  · next h =>
    rw [Dict.isEmpty, List.isEmpty_iff] at h
    rw [h]
    rfl
  · exact Form.decode_encode query.entries

theorem head_queryPart (query : Dict) : ∀ c ∈ (queryPart query).head?, c = '?' := by
  unfold queryPart
  split <;> simp

/-! ## The two together -/

theorem urlTail_eq {segments : List String} (h : segments ≠ []) (query : Dict) :
    urlTail segments query = '/' :: (joined segments ++ queryPart query) := by
  rw [urlTail, flatMap_slash_eq_joined h, List.cons_append]
  rfl

theorem cut_at_question {path query : List Char} (hp : '?' ∉ path) (hq : ∀ c ∈ query.head?, c = '?') :
    (path ++ query).takeWhile (· != '?') = path ∧ (path ++ query).dropWhile (· != '?') = query := by
  have before : ∀ c ∈ path, (c != '?') = true := by
    intro c hc
    rw [bne_iff_ne]
    rintro rfl
    exact hp hc
  have cut := span_append (b := query) before fun c hc => by simp [hq c hc]
  rw [List.span_eq_takeWhile_dropWhile] at cut
  exact Prod.mk.inj cut

theorem segments_ne_nil (endpoint : Endpoint) (query : Dict) (database design index : String) :
    endpoint.segments query database design index ≠ [] := by simp [segments]

theorem route_of_ofUrl {toAscii : Url.ToAscii} {text : String} {route : Route} {endpoint : Endpoint}
    (h : ofUrl text route toAscii = .ok endpoint) : endpoint.route = route := by
  unfold ofUrl at h
  split at h
  · cases h
  split at h
  · cases h
    rfl
  · cases h

/-- From the address of a request its segments and its query are read again, each where it was put. -/
theorem address_recovers_request {toAscii : Url.ToAscii} (lawful : toAscii.Lawful) {text : String} {route : Route}
    {endpoint : Endpoint} {inbound : HookRequest} {request : IndexerRequest}
    (he : ofUrl text route toAscii = .ok endpoint) (hr : endpoint.request inbound = .ok request) :
    ∃ database hook design index rest,
      inbound.path = [database, hook, design, index] ∧
      request.url.toList = endpoint.baseUrl.toList ++ '/' :: rest ∧
      '#' ∉ request.url.toList ∧
      ('?' ∈ request.url.toList ↔ inbound.query.entries ≠ []) ∧
      ((rest.takeWhile (· != '?')).splitOn '/').map Percent.decodeSegment? =
        (route.leading inbound.query ++ [database, design, index]).map some ∧
      Form.decode ((rest.dropWhile (· != '?')).drop 1) = inbound.query.entries ∧
      inbound.query.entries.Pairwise fun p q => Utf8.encode p.1.toList < Utf8.encode q.1.toList := by
  obtain ⟨database, hook, design, index, method, hp, -, -, rfl⟩ := request_eq_ok hr
  have base := allWritten_ofUrl lawful he
  have noQuestion : '?' ∉ endpoint.baseUrl.toList := fun h => absurd (base _ h) (by decide)
  have noNumber : '#' ∉ endpoint.baseUrl.toList := fun h => absurd (base _ h) (by decide)
  have nonempty := segments_ne_nil endpoint inbound.query database design index
  have address : (endpoint.url (endpoint.segments inbound.query database design index) inbound.query).toList =
      endpoint.baseUrl.toList ++ '/' :: (joined (endpoint.segments inbound.query database design index) ++
        queryPart inbound.query) := by
    rw [url, String.toList_ofList, urlTail_eq nonempty]
  have cut := cut_at_question (question_not_mem_joined (endpoint.segments inbound.query database design index))
    (head_queryPart inbound.query)
  refine ⟨database, hook, design, index, _, hp, address, ?_, ?_, ?_, ?_, ?_⟩
  · rw [address]
    simp only [List.mem_append, List.mem_cons]
    rintro (h | h | h | h)
    · exact noNumber h
    · exact absurd h (by decide)
    · exact number_not_mem_joined _ h
    · exact number_not_mem_queryPart _ h
  · rw [address, ← question_mem_queryPart]
    simp only [List.mem_append, List.mem_cons, noQuestion, question_not_mem_joined, false_or]
    exact or_iff_right (by decide)
  · rw [cut.1, decode_joined nonempty, segments, route_of_ofUrl he]
  · rw [cut.2, decode_queryPart]
  · exact inbound.query.sorted.imp fun h => Utf8.encode_lt_encode h

theorem address_recovers_reserved_characters : ∃ endpoint request,
    ofUrl "http://u@h/a//?x#y" (.key "k/?") = .ok endpoint ∧
    endpoint.request ⟨["d b", "_fti", "x/y", ""], Dict.ofList [("a&=", "+ %"), ("", "é")], .empty,
      none, none, none⟩ = .ok request ∧
    ∃ rest, request.url.toList = endpoint.baseUrl.toList ++ '/' :: rest ∧
      ((rest.takeWhile (· != '?')).splitOn '/').map Percent.decodeSegment? =
        [some "k/?", some "d b", some "x/y", some ""] ∧
      Form.decode ((rest.dropWhile (· != '?')).drop 1) = [("", "é"), ("a&=", "+ %")] := by
  have he : ofUrl "http://u@h/a//?x#y" (.key "k/?") = .ok ⟨"http://u@h/a", .key "k/?"⟩ := rfl
  have hr : Endpoint.request ⟨"http://u@h/a", .key "k/?"⟩
      ⟨["d b", "_fti", "x/y", ""], Dict.ofList [("a&=", "+ %"), ("", "é")], .empty, none, none, none⟩ =
      .ok ⟨.get, "http://u@h/a/k%2F%3F/d%20b/x%2Fy/?=%C3%A9&a%26%3D=%2B+%25", [], none⟩ := rfl
  obtain ⟨database, hook, design, index, rest, hp, hu, -, -, hs, hq, -⟩ :=
    address_recovers_request Url.ToAscii.limited_lawful he hr
  cases hp
  refine ⟨_, _, he, hr, rest, hu, hs, hq.trans ?_⟩
  rfl

end SearchRelay.Endpoint
