import SearchRelay.Proofs.Address
import SearchRelay.Proofs.Header
import SearchRelay.Proofs.HookLine
import SearchRelay.Wire

/-!
# What a line can put on the wire

Whatever stands in a line, the request that is made of it has no blank, no line
end and no other control where one could end its address or a header. So it can
be sent unless its address is no target, and then nothing is sent.
-/

namespace SearchRelay

namespace WireRequest

/-! ## Building -/

theorem isToken_name (method : Method) : isToken method.name = true := by
  cases method <;> decide

theorem isToken_requestName : ∀ name ∈ Header.requestNames, isToken name = true := by decide

theorem isValueByte_iff {b : UInt8} : isValueByte b = true ↔ Header.IsValueByte b := by
  simp only [isValueByte, Header.IsValueByte, Bool.or_eq_true, Bool.and_eq_true, beq_iff_eq, decide_eq_true_eq,
    bne_iff_ne]
  constructor
  · rintro (rfl | h)
    · decide
    · exact ⟨.inr h.1, h.2⟩
  · rintro ⟨tab | visible, other⟩
    · exact .inl tab
    · exact .inr ⟨visible, other⟩

/-- On the wire a header is taken exactly if its name is a token and its value passes the check of the relay. -/
theorem checkHeader_eq_ok_iff {header sent : String × String} : checkHeader header = .ok sent ↔
    isToken header.1 = true ∧ Header.isValidValue header.2 = true ∧
      (String.ofList (header.1.toList.map Ascii.lower), header.2) = sent := by
  have bytes : (Utf8.encode header.2.toList).all isValueByte = Header.isValidValue header.2 := by
    rw [Bool.eq_iff_iff, Header.isValidValue_iff, List.all_eq_true]
    exact forall₂_congr fun b _ => isValueByte_iff
  rw [checkHeader, bytes]
  cases isToken header.1 <;> cases Header.isValidValue header.2 <;> simp

theorem mapM_checkHeader : ∀ {headers : List (String × String)},
    (∀ header ∈ headers, isToken header.1 = true ∧ Header.isValidValue header.2 = true) →
    headers.mapM checkHeader =
      .ok (headers.map fun header => (String.ofList (header.1.toList.map Ascii.lower), header.2))
  | [], _ => rfl
  | header :: headers, h => by
    obtain ⟨token, valid⟩ := h header List.mem_cons_self
    rw [List.mapM_cons, mapM_checkHeader fun other hm => h other (List.mem_cons_of_mem _ hm),
      checkHeader_eq_ok_iff.2 ⟨token, valid, rfl⟩]
    rfl

theorem ofIndexerRequest_of_checked {request : IndexerRequest}
    (h : ∀ header ∈ request.headers, isToken header.1 = true ∧ Header.isValidValue header.2 = true) :
    ofIndexerRequest request = ((Uri.parse request.url.toList).mapError .uri).map fun uri =>
      ⟨request.method.name, uri,
        request.headers.map fun header => (String.ofList (header.1.toList.map Ascii.lower), header.2),
        Utf8.encode (request.body.getD "").toList⟩ := by
  rw [ofIndexerRequest, build, isToken_name]
  cases Uri.parse request.url.toList <;>
    simp [mapM_checkHeader h, bind, Except.bind, pure, Except.pure, Except.map, Except.mapError]

end WireRequest

namespace Endpoint

/-! ## Addresses -/

theorem printable_of_isWritten {c : Char} (h : Url.isWritten c = true) : 0x21 ≤ c.toNat ∧ c.toNat ≤ 0x7E := by
  simp only [Url.isWritten, Bool.and_eq_true, decide_eq_true_eq] at h
  exact h.1.1

theorem printable_urlTail {segments : List String} {query : Dict} {c : Char} (h : c ∈ urlTail segments query) :
    0x21 ≤ c.toNat ∧ c.toNat ≤ 0x7E := by
  rcases List.mem_append.1 h with h | h
  · obtain ⟨segment, _, hc⟩ := List.mem_flatMap.1 h
    rcases List.mem_cons.1 hc with rfl | hc
    · decide
    · exact printable_of_isWritten (Url.allWritten_encodeSegment segment c hc)
  · split at h
    · cases h
    · rcases List.mem_cons.1 h with rfl | hc
      · decide
      · exact printable_of_isWritten (Url.allWritten_form query.entries c hc)

/-! ## Headers -/

theorem isValidValue_of_illegalHeader? {headers : List (String × String)} (h : illegalHeader? headers = none) :
    ∀ header ∈ headers, Header.isValidValue header.2 = true := by
  rw [illegalHeader?, Option.map_eq_none_iff, List.find?_eq_none] at h
  exact fun header hm => by simpa using h header hm

/-- Nothing in a line changes the shape of what is sent for it. -/
theorem line_cannot_inject {toAscii : Url.ToAscii} (lawful : toAscii.Lawful) {text line : String} {route : Route}
    {endpoint : Endpoint} {request : IndexerRequest} (he : ofUrl text route toAscii = .ok endpoint)
    (hr : endpoint.requestOfLine line = .ok request) :
    (∀ c ∈ request.url.toList, 0x21 ≤ c.toNat ∧ c.toNat ≤ 0x7E) ∧
    (request.headers.map Prod.fst).Nodup ∧
    (∀ header ∈ request.headers, header.1 ∈ ["Accept", "If-None-Match"] ∧
      ∀ b ∈ Utf8.encode header.2.toList, (b = 9 ∨ 0x20 ≤ b) ∧ b ≠ 0x7F) ∧
    (request.body.isSome → request.method = .post ∨ request.method = .put) ∧
    ∀ fault, WireRequest.ofIndexerRequest request = .error fault →
      ∃ target, fault = .uri target ∧ Uri.parse request.url.toList = .error target := by
  obtain ⟨inbound, _, hr⟩ := Result.bind_eq_ok.1 hr
  obtain ⟨database, hook, design, index, method, _, _, legal, rfl⟩ := request_eq_ok hr
  have kept := Header.kept_keep Header.requestNames inbound.headers.entries
  have valid := isValidValue_of_illegalHeader? legal
  have listed :
      ∀ header ∈ Header.keep Header.requestNames inbound.headers.entries, header.1 ∈ Header.requestNames :=
    fun header hm => kept.listed _ (List.mem_map_of_mem hm)
  refine ⟨fun c hc => ?_, kept.once, fun header hm =>
    ⟨listed header hm, Header.isValidValue_iff.1 (valid header hm)⟩,
    fun body => ?_, fun fault hf => ?_⟩
  · rw [url, String.toList_ofList, List.mem_append] at hc
    exact hc.elim (fun hc => printable_of_isWritten (allWritten_ofUrl lawful he c hc)) printable_urlTail
  · cases method
    case post => exact .inl rfl
    case put => exact .inr rfl
    all_goals cases body
  · rw [WireRequest.ofIndexerRequest_of_checked fun header hm =>
      ⟨WireRequest.isToken_requestName _ (listed header hm), valid header hm⟩] at hf
    dsimp only at hf
    cases parsed :
        Uri.parse (endpoint.url (endpoint.segments inbound.query database design index) inbound.query).toList with
    | error target =>
      rw [parsed] at hf
      cases hf
      exact ⟨target, rfl, rfl⟩
    | ok uri =>
      rw [parsed] at hf
      cases hf

/-- Line ends in every part of a line, and one in a header that another spelling of its name replaces. -/
theorem line_ends_cannot_inject : ∃ line endpoint request,
    line = HookRequest.toLine ⟨["d\r\nX: y", "_fti", " ", "@?#"], .empty,
      Dict.ofList [("ACCEPT", "\n"), ("Cookie", "\r"), ("accept", "a\tb")], some "pOsT", none, some "\r\n"⟩ ∧
    ofUrl "http://u:p@\u00e9:8080/a b//?x#y" .command = .ok endpoint ∧ endpoint.requestOfLine line = .ok request ∧
    (∀ c ∈ request.url.toList, 0x21 ≤ c.toNat ∧ c.toNat ≤ 0x7E) ∧
    (∀ header ∈ request.headers, ∀ b ∈ Utf8.encode header.2.toList, (b = 9 ∨ 0x20 ≤ b) ∧ b ≠ 0x7F) ∧
    request.headers = [("Accept", "a\tb")] ∧ request.body = some "\r\n" := by
  have he : ofUrl "http://u:p@\u00e9:8080/a b//?x#y" .command = .ok
    ⟨"http://u:p@xn--9ca:8080/a%20b", .command⟩ := by decide +kernel
  have hr : Endpoint.requestOfLine ⟨"http://u:p@xn--9ca:8080/a%20b", .command⟩
      (HookRequest.toLine ⟨["d\r\nX: y", "_fti", " ", "@?#"], .empty,
        Dict.ofList [("ACCEPT", "\n"), ("Cookie", "\r"), ("accept", "a\tb")], some "pOsT", none, some "\r\n"⟩) =
      .ok ⟨.post, "http://u:p@xn--9ca:8080/a%20b/info/d%0D%0AX%3A%20y/%20/%40%3F%23", [("Accept", "a\tb")],
        some "\r\n"⟩ := by
    rw [requestOfLine, HookRequest.ofLine_written]
    rfl
  obtain ⟨address, _, headers, _, _⟩ := line_cannot_inject Url.ToAscii.limited_lawful he hr
  exact ⟨_, _, _, rfl, he, hr, address, fun header hm => (headers header hm).2, rfl, rfl⟩

end Endpoint

end SearchRelay
