import SearchRelay.Proofs.Answer
import SearchRelay.Proofs.Indexer.Arrival

/-!
# Echoes of requests

What the indexer tells back is what the relay was asked for: each segment and
each value of the query is the one that stood in the line, whatever characters it
holds, and the text that tells it is read back as it was meant.
-/

namespace SearchRelay

/-! ## Readable values -/

namespace Utf8

def isAscii (text : String) : Bool := (encode text.toList).all (· < 0x80)

theorem isAscii_iff {text : String} : isAscii text = true ↔ ∀ c ∈ text.toList, c.toNat < 0x80 := by
  simp only [isAscii, List.all_eq_true, decide_eq_true_eq, encode, List.mem_flatMap]
  constructor
  · intro h c hc
    refine Classical.byContradiction fun wide => ?_
    obtain ⟨b, hb⟩ := List.exists_mem_of_ne_nil _ (String.utf8EncodeChar_ne_nil (c := c))
    have high := high_of_mem_encodeChar (Nat.lt_of_not_le fun low => wide (Nat.lt_succ_of_le low)) hb
    have low := UInt8.lt_iff_toNat_lt.1 (h b ⟨c, hc, hb⟩)
    exact absurd low (Nat.not_lt.2 high)
  · rintro h b ⟨c, hc, hb⟩
    have ascii := h c hc
    rw [encodeChar_of_ascii (Nat.le_of_lt_succ ascii), List.mem_singleton] at hb
    rw [hb, UInt8.lt_iff_toNat_lt, toNat_ofNat_byte (Nat.lt_trans ascii (by decide))]
    exact ascii

end Utf8

namespace WireRequest

theorem isReadable_iff_of_valid {value : String} (h : Header.isValidValue value = true) :
    IsReadable value ↔ Utf8.isAscii value = true := by
  rw [Utf8.isAscii_iff]
  refine forall₂_congr fun c hc => ?_
  have valid := Header.isValueChar_iff_toNat.1 (List.all_eq_true.1 h c hc)
  have tab : c = '\t' ↔ c.toNat = 9 := ⟨fun h => h ▸ rfl, fun h => Char.ext (UInt32.toNat_inj.1 h)⟩
  rw [tab]
  omega

theorem bind_visible?_of_valid {value? : Option String} (h : ∀ value ∈ value?, Header.isValidValue value = true) :
    value?.bind visible? = value?.filter Utf8.isAscii := by
  refine Option.ext fun seen => ?_
  rw [Option.bind_eq_some_iff, Option.filter_eq_some_iff]
  constructor
  · rintro ⟨value, rfl, hs⟩
    obtain ⟨visible, rfl⟩ := visible?_eq_some_iff.1 hs
    exact ⟨rfl, (isReadable_iff_of_valid (h value rfl)).1 visible⟩
  · rintro ⟨rfl, ascii⟩
    exact ⟨seen, rfl, visible?_eq_some_iff.2 ⟨(isReadable_iff_of_valid (h seen rfl)).2 ascii, rfl⟩⟩

end WireRequest

namespace Indexer

/-! ## Paths -/

theorem decodeSegment_encodeSegment (segment : String) : decodeSegment (Percent.encodeSegment segment) = segment := by
  rw [decodeSegment, Percent.decodeSegment?_encodeSegment]
  rfl

theorem segments_path {parts : List String} (some_part : parts ≠ []) (full : "" ∉ parts) :
    segments ('/' :: Endpoint.joined parts) = parts := by
  have kept : (parts.map Percent.encodeSegment).filter (!·.isEmpty) = parts.map Percent.encodeSegment := by
    refine List.filter_eq_self.2 fun piece hp => ?_
    obtain ⟨segment, hs, rfl⟩ := List.mem_map.1 hp
    rw [isEmpty_encodeSegment (ne_of_mem_of_not_mem hs full)]
    rfl
  -- The first slash cuts off an empty piece, the only one that is passed over.
  rw [segments, splitOn_path some_part, List.filter_cons_of_neg (by simp), kept, List.map_map]
  exact (List.map_congr_left fun segment _ => decodeSegment_encodeSegment segment).trans (List.map_id _)

theorem Resource.ofPath_of_other {path command : List Char} {rest : List (List Char)}
    (split : path.splitOn '/' = [] :: command :: rest)
    (other : command ∉ ["search".toList, "info".toList, "slow".toList]) : Resource.ofPath path = .other := by
  simp only [List.mem_cons, List.not_mem_nil, or_false, not_or] at other
  obtain ⟨search, info, slow⟩ := other
  unfold Resource.ofPath
  rw [split]
  split
  · next h =>
    cases h
    simp only [search, info, slow, decide_false, Bool.false_and, Bool.false_eq_true, if_false]
  · next h =>
    cases h
    simp only [slow, decide_false, Bool.false_and, Bool.false_eq_true, if_false]
  · rfl

theorem ofPath_joined_of_other {command : String} {parts : List String}
    (other : command ∉ ["search", "info", "slow"]) :
    Resource.ofPath ('/' :: Endpoint.joined (command :: parts)) = .other := by
  refine Resource.ofPath_of_other (splitOn_path (List.cons_ne_nil _ _)) fun mem => other ?_
  -- A name of a resource is written as it stands, so no other segment is written like one.
  have names : ["search".toList, "info".toList, "slow".toList] =
    ["search", "info", "slow"].map Percent.encodeSegment := by
    decide
  rw [names] at mem
  obtain ⟨name, hn, same⟩ := List.mem_map.1 mem
  rwa [← Percent.encodeSegment_inj.1 same]

/-! ## Reading an echo -/

open Json in
theorem Echo.nullOr_accept (accept : Option String) :
    NullOr Literal accept ((accept.map writeText).getD "null".toList) := by
  cases accept with
  | none => exact (rfl : "null".toList = _)
  | some value => exact literal_writeText value

open Json in
theorem Echo.ofText_toText (e : Echo) : Echo.ofText e.toText = .ok e := by
  have text (value : String) (rest : List Char) : Reader.text.read (writeText value ++ rest) = .ok (value, rest) :=
    readString_writeText value rest
  have texts (rest : List Char) : (Reader.list .text).read (writeTexts e.segments ++ rest) = .ok (e.segments, rest) :=
    (reads_list reads_string).read_append (listText_writeList fun value _ => literal_writeText value) rest
  have accept (rest : List Char) : (Reader.orNull .text).read ((e.accept.map writeText).getD "null".toList ++ rest) =
      .ok (e.accept, rest) :=
    (reads_orNull reads_string HookRequest.literal_not_null).read_append (nullOr_accept e.accept) rest
  rw [Echo.toText, Echo.ofText, Record.readAll_writeObject (y := ⟨some e.method, some e.path, some e.segments,
    some e.query, some e.accept, some e.body⟩)]
  · rfl
  · rw [← List.append_nil (membersText _ _)]
    rw [Record.readMembers_membersText rfl rfl (Field.read_of (text _ _)),
      Record.readMembers_membersText rfl rfl (Field.read_of (text _ _)),
      Record.readMembers_membersText rfl rfl (Field.read_of (texts _)),
      Record.readMembers_membersText rfl rfl (Field.read_of (read_dict _ _)),
      Record.readMembers_membersText rfl rfl (Field.read_of (accept _)),
      Record.readMembers_membersText rfl rfl (Field.read_of (text _ _))]
    exact Record.readMembers_stop (nextKey_stop false []) rfl

/-! ## What is told -/

/-- The echo of a request whose path is no resource's and whose body is not too long. -/
theorem draft_of_arrival {wire : WireRequest} {request : IndexerRequest} {command : String} {parts : List String}
    {query : Dict} (arrives : Arrives wire request (command :: parts) query)
    (other : command ∉ ["search", "info", "slow"]) (full : "" ∉ command :: parts)
    (light : (Utf8.encode (request.body.getD "").toList).length ≤ bodyLimit) :
    ∃ e : Echo, draft wire = ⟨200, [("content-type", "application/json")], String.ofList e.toText⟩ ∧
      e.method = request.method.name ∧ e.segments = command :: parts ∧ e.query = query ∧
      e.accept = (request.headers.lookup "Accept").bind WireRequest.visible? ∧ e.body = request.body.getD "" := by
  have resource : Resource.ofPath wire.uri.wholePath = .other := by
    rw [arrives.path]
    exact ofPath_joined_of_other other
  have text : Utf8.decodeStrict wire.body = .ok (request.body.getD "").toList := by
    rw [arrives.body]
    exact Utf8.decodeStrictFrom_encode _ 0
  have told : segments wire.uri.wholePath = command :: parts := by
    rw [arrives.path]
    exact segments_path (List.cons_ne_nil _ _) full
  rw [← arrives.body] at light
  refine ⟨⟨wire.method, String.ofList wire.uri.wholePath, segments wire.uri.wholePath, queryOf wire,
    wire.visibleHeader? "accept", String.ofList (request.body.getD "").toList⟩, ?_, arrives.method, told,
    arrives.query, ?_, String.ofList_toList⟩
  · simp only [draft, resource, decide_true, Bool.true_or, if_true, read, echo, if_neg (Nat.not_lt.2 light), text]
  · exact congrArg (Option.bind · WireRequest.visible?) arrives.accept

end Indexer

theorem Route.leading_eq_cons (route : Route) (query : Dict) :
    ∃ command rest, route.leading query = command :: rest := by
  cases route with
  | command =>
    unfold leading
    dsimp only
    split
    · exact ⟨_, _, rfl⟩
    · exact ⟨_, _, rfl⟩
  | key name => exact ⟨name, [], rfl⟩
  | address host port => exact ⟨host, [_], rfl⟩

namespace Relay

/-- Through a relay at the indexer, the answer to a line that asks for no resource tells what was sent for it. -/
theorem echo_tells_request {toAscii : Url.ToAscii} (lawful : toAscii.Lawful) {route : Route} {relay : Relay Unit}
    {line : String} {inbound : HookRequest} {request : IndexerRequest} {database hook design index : String}
    {method : Method}
    (transport : relay.transport = .ofFunction Indexer.exchange)
    (he : Endpoint.ofUrl "http://localhost:5985" route toAscii = .ok relay.endpoint)
    (other : ∀ command ∈ (route.leading inbound.query).head?, command ∉ ["search", "info", "slow"])
    (hl : HookRequest.ofLine line = .ok inbound) (hr : relay.endpoint.request inbound = .ok request)
    (hp : inbound.path = [database, hook, design, index]) (hm : inbound.method? = .ok method)
    (spoken : method ≠ .head) (full : "" ∉ route.leading inbound.query ++ [database, design, index])
    (short : Utf8.size request.url.toList ≤ 65534)
    (light : (Utf8.encode (request.body.getD "").toList).length ≤ 2097152) :
    let answer := (relay.handle line).answer
    answer.code = 200 ∧ answer.headers.map Dict.entries = some [("Content-Type", "application/json")] ∧
    ∃ echo, Indexer.Echo.ofText answer.body.toList = .ok echo ∧
      echo.method = method.name ∧
      echo.segments = route.leading inbound.query ++ [database, design, index] ∧
      echo.query = inbound.query ∧
      echo.accept = (request.headers.lookup "Accept").filter Utf8.isAscii ∧
      echo.body = request.body.getD "" := by
  have named := Endpoint.method_of_request hr hm
  obtain ⟨command, rest, leads⟩ := route.leading_eq_cons inbound.query
  obtain ⟨wire, arrives, answered⟩ := answer_of_indexer lawful transport he hl hr hp (named ▸ spoken) short
  rw [leads] at other full
  rw [leads, List.cons_append] at arrives
  obtain ⟨echo, told, said, segments, query, accepted, body⟩ :=
    Indexer.draft_of_arrival arrives (other command rfl) full light
  have kept : Header.keep Header.answerNames [("content-type", "application/json")] =
    [("Content-Type", "application/json")] := by
    decide
  -- A control is refused before anything is sent, so only ASCII is left to be asked for.
  have accept := WireRequest.bind_visible?_of_valid
    fun value (found : request.headers.lookup "Accept" = some value) => by
    obtain ⟨_, _, split, _⟩ := List.lookup_eq_some_iff.1 found
    exact Endpoint.isValidValue_of_request hr ("Accept", value) (by rw [split]; simp)
  intro answer
  have reported : answer = Endpoint.report (Indexer.draft wire) := answered
  rw [reported, told]
  refine ⟨rfl, ?_, echo, ?_, said.trans (by rw [named]),
    by rw [segments, leads]; rfl, query, accepted.trans accept, body⟩
  · simp only [Endpoint.report, Endpoint.answerHeaders, kept]
    rfl
  · rw [Endpoint.report, String.toList_ofList]
    exact echo.ofText_toText

/-- Separators, escapes and dots in every part of a line, with an Accept that is not ASCII. -/
theorem echo_tells_reserved_characters :
    let inbound : HookRequest := ⟨["d/b?", "_fti", "..", "\u00e9#%2F"], Dict.ofList [("q", "a&b=c +"), ("", "%")],
      Dict.ofList [("ACCEPT", "*/\u00e9"), ("Cookie", "c")], some "put", none, some "\r\n"⟩
    let relay := start ⟨"http://localhost:5985", .address "h:1" 5984⟩ (.ofFunction Indexer.exchange) ()
    let answer := (relay.handle inbound.toLine).answer
    answer.code = 200 ∧ ∃ echo, Indexer.Echo.ofText answer.body.toList = .ok echo ∧ echo.method = "PUT" ∧
      echo.segments = ["h:1", "5984", "d/b?", "..", "\u00e9#%2F"] ∧
      echo.query.entries = [("", "%"), ("q", "a&b=c +")] ∧ echo.accept = none ∧ echo.body = "\r\n" := by
  intro inbound relay answer
  have he : Endpoint.ofUrl "http://localhost:5985" (.address "h:1" 5984) = .ok relay.endpoint :=
    Endpoint.ofUrl_localhost Url.ToAscii.limited_lawful _
  have hr : relay.endpoint.request inbound =
      .ok ⟨.put, "http://localhost:5985/h%3A1/5984/d%2Fb%3F/../%C3%A9%23%252F?=%25&q=a%26b%3Dc+%2B",
        [("Accept", "*/\u00e9")], some "\r\n"⟩ := by decide +kernel
  have hm : inbound.method? = .ok .put := rfl
  have leads : (Route.address "h:1" 5984).leading inbound.query = ["h:1", "5984"] := rfl
  obtain ⟨code, -, echo, read, method, segments, query, accept, body⟩ :=
    echo_tells_request Url.ToAscii.limited_lawful rfl he
    (by rw [leads]; decide) (HookRequest.ofLine_written inbound) hr rfl hm (by decide) (by rw [leads]; decide)
    (by decide) (by decide)
  refine ⟨code, echo, read, method, segments, by rw [query]; decide, accept.trans ?_, body⟩
  decide

end Relay

end SearchRelay
