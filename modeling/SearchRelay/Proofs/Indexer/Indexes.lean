import Mathlib.Data.List.Infix
import SearchRelay.Proofs.Indexer.Arrival
import SearchRelay.Proofs.Json.Compact

/-!
# Asking an index

A request that names an index is answered from that index, whatever characters
its names hold: with what is known of it, with the documents whose title holds
the text that was asked for, or with its tag alone if the relay has that already.
-/

namespace SearchRelay

namespace Indexer

open Json WireRequest

/-! ## Bodies -/

inductive Member where
  | text (name value : String)
  | count (name : String) (n : Nat)
  | documents (name : String) (listed : List Document)

def DocumentText (d : Document) (s : List Char) : Prop :=
  ObjectText (fun (member : String × String) => MemberText member.1 (Literal member.2))
    [("id", d.id), ("title", d.title)] s

def Member.Part : Member → List Char → Prop
  | .text name value => MemberText name (Literal value)
  | .count name n => MemberText name (Numeral n)
  | .documents name listed => MemberText name (ListText DocumentText listed)

/-- The texts that say what is known of an index. -/
def InfoText (name : IndexName) (documents : List Document) (tag : String) (s : List Char) : Prop :=
  ObjectText Member.Part [.text "db" name.database, .text "ddoc" name.design, .text "index" name.index,
    .count "doc_count" documents.length, .text "etag" tag] s

/-- The texts that say which documents were found. -/
def ResultText (q tag : String) (found : List Document) (s : List Char) : Prop :=
  ObjectText Member.Part [.text "q" q, .text "etag" tag, .count "total_rows" found.length, .documents "rows" found] s

def Member.write : Member → String × List Char
  | .text name value => (name, writeText value)
  | .count name n => (name, writeNat n)
  | .documents name listed => (name, writeList (listed.map writeDocument))

theorem documentText_writeDocument (d : Document) : DocumentText d (writeDocument d) :=
  @objectText_writeObject _ _ (fun (member : String × String) => (member.1, writeText member.2)) _
    fun _ _ => memberText_writeMember (literal_writeText _)

theorem Member.part_write : ∀ m : Member, m.Part (writeMember m.write)
  | .text _ value => memberText_writeMember (literal_writeText value)
  | .count _ n => memberText_writeMember (numeral_writeNat n)
  | .documents _ _ => memberText_writeMember (listText_writeList fun d _ => documentText_writeDocument d)

theorem infoText_writeInfo (name : IndexName) (documents : List Document) :
    InfoText name documents (tag name documents) (writeInfo name documents).toList := by
  rw [writeInfo, String.toList_ofList]
  exact @objectText_writeObject Member _ Member.write _ fun m _ => m.part_write

theorem resultText_writeResult (q tag : String) (found : List Document) :
    ResultText q tag found (writeResult q tag found).toList := by
  rw [writeResult, String.toList_ofList]
  exact @objectText_writeObject Member _ Member.write _ fun m _ => m.part_write

/-! ## Titles and types -/

theorem holds_iff {text part : List Char} : holds text part = true ↔ part <:+: text := by
  induction text with
  | nil => simp [holds]
  | cons c text ih => rw [holds, Bool.or_eq_true, List.isPrefixOf_iff_prefix, ih, List.infix_cons_iff]

theorem matching_eq (q : String) (documents : List Document) :
    matching q documents = documents.filter fun d => decide (q.toList <:+: d.title.toList) :=
  List.filter_congr fun d _ => by rw [Bool.eq_iff_iff, holds_iff, decide_eq_true_iff]

def AcceptsJson (request : IndexerRequest) : Prop :=
  ∃ value, request.headers.lookup "Accept" = some value ∧ IsReadable value ∧
    "application/json".toList <:+: value.toList

theorem isReadable_tag (name : IndexName) (documents : List Document) : IsReadable (tag name documents) := by
  have digits (n : Nat) : IsReadable (toString n) := by
    intro c hc
    rw [Nat.toString_eq_ofList_toDigits, String.toList_ofList] at hc
    have digit := toNat_of_isDigit (Nat.isDigit_of_mem_toDigits (by decide) (by decide) hc)
    exact .inr (by omega)
  have quote : IsReadable "\"" := by simp [IsReadable]
  have dash : IsReadable "-" := by simp [IsReadable]
  intro c hc
  simp only [tag, String.toList_append, List.mem_append] at hc
  rcases hc with (((((hc | hc) | hc) | hc) | hc) | hc) | hc
  · exact quote c hc
  · exact digits _ c hc
  · exact dash c hc
  · exact digits _ c hc
  · exact dash c hc
  · exact digits _ c hc
  · exact quote c hc

theorem visible?_eq_tag_iff {value? : Option String} {name : IndexName} {documents : List Document} :
    value?.bind visible? = some (tag name documents) ↔ value? = some (tag name documents) := by
  constructor
  · intro h
    obtain ⟨value, rfl, seen⟩ := Option.bind_eq_some_iff.1 h
    rw [(visible?_eq_some_iff.1 seen).2]
  · rintro rfl
    rw [Option.bind_some]
    exact visible?_eq_some_iff.2 ⟨isReadable_tag name documents, rfl⟩

theorem wantsJson_iff {wire : WireRequest} {request : IndexerRequest} {segments : List String} {query : Dict}
    (arrives : Arrives wire request segments query) : wantsJson wire = true ↔ AcceptsJson request := by
  rw [wantsJson, WireRequest.visibleHeader?, arrives.accept, AcceptsJson]
  cases request.headers.lookup "Accept" with
  | none => simp
  | some value =>
    cases seen : visible? value with
    | none =>
      have hidden : ¬IsReadable value := fun visible => by
        rw [visible?_eq_some_iff.2 ⟨visible, rfl⟩] at seen
        cases seen
      simp [seen, hidden]
    | some shown =>
      obtain ⟨visible, rfl⟩ := visible?_eq_some_iff.1 seen
      simp only [Option.bind_some, seen, Option.map_some, Option.getD_some, holds_iff, Option.some.injEq,
        exists_eq_left', visible, true_and]

/-! ## Answers of an index -/

theorem documents?_of_mem {name : IndexName} {documents : List Document} (h : (name, documents) ∈ sample) :
    documents? name = some documents := by
  simp only [sample, List.mem_cons, List.not_mem_nil, or_false, Prod.mk.injEq] at h
  rcases h with ⟨rfl, rfl⟩ | ⟨rfl, rfl⟩ <;> rfl

theorem documents?_of_not_mem {name : IndexName} (h : name ∉ sample.map Prod.fst) : documents? name = none := by
  rw [documents?, List.lookup_eq_none_iff]
  intro entry he
  rw [bne_iff_ne]
  rintro rfl
  exact h (List.mem_map_of_mem he)

theorem indexName_encoded (database design index : String) :
    indexName (Percent.encodeSegment database) (Percent.encodeSegment design) (Percent.encodeSegment index) =
      .ok ⟨database, design, index⟩ := by
  simp only [indexName, Percent.decodeSegment?_encodeSegment]
  rfl

variable {wire : WireRequest} {request : IndexerRequest} {database design index : String} {query : Dict}

theorem ofPath_index (full : index ≠ "") (query : Dict) :
    Resource.ofPath ('/' :: Endpoint.joined (Route.command.leading query ++ [database, design, index])) =
      (if query.isEmpty then Resource.info else Resource.search)
        (Percent.encodeSegment database) (Percent.encodeSegment design) (Percent.encodeSegment index) := by
  have last := isEmpty_encodeSegment full
  have split (command : String) := splitOn_path (List.cons_ne_nil command [database, design, index])
  have info : Percent.encodeSegment "info" = "info".toList := by decide
  have search : Percent.encodeSegment "search" = "search".toList := by decide
  cases none : query.isEmpty with
  | true =>
    simp only [Route.leading, none, if_true, List.singleton_append, Resource.ofPath, split, List.map_cons,
      List.map_nil, info, last]
    rfl
  | false =>
    simp only [Route.leading, none, if_false, Bool.false_eq_true, List.singleton_append, Resource.ofPath, split,
      List.map_cons, List.map_nil, search, last]
    rfl

/-- A request for an index reaches that index: without a query it asks what is known of it. -/
theorem draft_of_index (arrives : Arrives wire request (Route.command.leading query ++ [database, design, index]) query)
    (get : request.method = .get) (full : index ≠ "") :
    draft wire = if query.isEmpty then info ⟨database, design, index⟩
      else search ⟨database, design, index⟩ wire := by
  have method : wire.method = "GET" := by
    rw [arrives.method, get]
    rfl
  rw [draft, arrives.path, ofPath_index full]
  split
  · simp [method, read, indexName_encoded, withIndex]
  · simp [method, read, indexName_encoded, withIndex]

/-! ## What is passed back -/

theorem canonical_type : Header.canonical? Header.answerNames "content-type" = some "Content-Type" := by decide

theorem canonical_tag : Header.canonical? Header.answerNames "etag" = some "ETag" := by decide

theorem canonical_own : Header.canonical? Header.answerNames own.1 = none := by decide

theorem entries_typed (type tag body : String) :
    (Endpoint.report ⟨200, [("content-type", type), ("etag", tag), own], body⟩).headers.map Dict.entries =
      some [("Content-Type", type), ("ETag", tag)] := by
  have kept : Header.keep Header.answerNames [("content-type", type), ("etag", tag), own] =
      [("Content-Type", type), ("ETag", tag)] := by
    simp [Header.keep, Header.take, canonical_type, canonical_tag, canonical_own, Header.set]
  have order : ¬"ETag" < "Content-Type" := by decide
  simp [Endpoint.report, Endpoint.answerHeaders, kept, Dict.ofList, Dict.insert, Dict.empty, Dict.insertEntry, order]

theorem entries_tagged (tag body : String) :
    (Endpoint.report ⟨304, [("etag", tag)], body⟩).headers.map Dict.entries = some [("ETag", tag)] := by
  have kept : Header.keep Header.answerNames [("etag", tag)] = [("ETag", tag)] := by
    simp [Header.keep, Header.take, canonical_tag, Header.set]
  simp [Endpoint.report, Endpoint.answerHeaders, kept, Dict.ofList, Dict.insert, Dict.empty, Dict.insertEntry]

/-- What a relay answers to a request for an index with some documents. -/
structure Answered (answer : HookAnswer) (request : IndexerRequest) (query : Dict) (name : IndexName)
    (documents : List Document) : Prop where
  known : query.entries = [] →
    answer.code = 200 ∧
      answer.headers.map Dict.entries = some [("Content-Type", "application/json"), ("ETag", tag name documents)] ∧
      InfoText name documents (tag name documents) answer.body.toList
  missing : query.entries ≠ [] → query.get? "q" = none → answer = ⟨400, none, "missing q\n"⟩
  unchanged : ∀ q, query.get? "q" = some q →
    (answer.code = 304 ∧ answer.headers.map Dict.entries = some [("ETag", tag name documents)] ∧
        answer.body = "" ↔
      request.headers.lookup "If-None-Match" = some (tag name documents))
  found : ∀ q, query.get? "q" = some q → request.headers.lookup "If-None-Match" ≠ some (tag name documents) →
    answer.code = 200 ∧
      (∃ type, answer.headers.map Dict.entries = some [("Content-Type", type), ("ETag", tag name documents)] ∧
        (AcceptsJson request → type = "application/json") ∧
        (¬AcceptsJson request → type = "text/plain;charset=utf-8")) ∧
      ResultText q (tag name documents)
        (documents.filter fun d => decide (q.toList <:+: d.title.toList)) answer.body.toList

theorem search_of_changed {name : IndexName} {documents : List Document} {q : String} {segments : List String}
    (arrives : Arrives wire request segments query) (listed : documents? name = some documents)
    (hq : query.get? "q" = some q) (changed : request.headers.lookup "If-None-Match" ≠ some (tag name documents)) :
    ∃ type, search name wire =
        ⟨200, [("content-type", type), ("etag", tag name documents), own],
          writeResult q (tag name documents) (matching q documents)⟩ ∧
      (AcceptsJson request → type = "application/json") ∧
        (¬AcceptsJson request → type = "text/plain;charset=utf-8") := by
  have differs : wire.visibleHeader? "if-none-match" ≠ some (tag name documents) := by
    rw [WireRequest.visibleHeader?, arrives.tag]
    exact mt visible?_eq_tag_iff.1 changed
  refine ⟨if wantsJson wire then "application/json" else "text/plain;charset=utf-8", ?_,
    fun accepts => ?_, fun other => ?_⟩
  · simp only [search, listed, arrives.query, hq, differs, if_false]
  -- Which type is sent hangs on the Accept alone.
  · rw [if_pos ((wantsJson_iff arrives).2 accepts)]
  · rw [if_neg (mt (wantsJson_iff arrives).1 other)]

theorem search_of_unchanged {name : IndexName} {documents : List Document} {q : String} {segments : List String}
    (arrives : Arrives wire request segments query) (listed : documents? name = some documents)
    (hq : query.get? "q" = some q) (same : request.headers.lookup "If-None-Match" = some (tag name documents)) :
    search name wire = ⟨304, [("etag", tag name documents)], ""⟩ := by
  have seen : wire.visibleHeader? "if-none-match" = some (tag name documents) := by
    rw [WireRequest.visibleHeader?, arrives.tag]
    exact visible?_eq_tag_iff.2 same
  simp only [search, listed, arrives.query, hq, seen, if_true]

theorem isEmpty_of_get? {query : Dict} {name value : String} (h : query.get? name = some value) :
    query.isEmpty = false := by
  rw [Dict.isEmpty, ← Bool.not_eq_true, List.isEmpty_iff]
  intro none
  rw [Dict.get?, none] at h
  cases h

theorem answered_of_index {documents : List Document}
    (arrives : Arrives wire request (Route.command.leading query ++ [database, design, index]) query)
    (get : request.method = .get) (full : index ≠ "")
    (listed : (⟨database, design, index⟩, documents) ∈ sample) :
    Answered (Endpoint.report (draft wire)) request query ⟨database, design, index⟩ documents := by
  have draft := draft_of_index arrives get full
  have documented := documents?_of_mem listed
  have searched {q : String} (hq : query.get? "q" = some q) :
    Indexer.draft wire = search ⟨database, design, index⟩ wire := by
    rw [draft, isEmpty_of_get? hq]
    rfl
  constructor
  case known =>
    intro none
    rw [draft, if_pos (by rw [Dict.isEmpty, none]; rfl), info, documented]
    exact ⟨rfl, entries_typed _ _ _, infoText_writeInfo _ _⟩
  case missing =>
    intro some_pair absent
    rw [draft, if_neg (by rwa [Dict.isEmpty, List.isEmpty_iff]), search, documented]
    simp only [arrives.query, absent]
    rfl
  case unchanged =>
    intro q hq
    rw [searched hq]
    constructor
    · rintro ⟨code, -, -⟩
      -- With another tag the documents are sent, and that is no 304.
      refine Classical.byContradiction fun changed => ?_
      obtain ⟨type, answer, -⟩ := search_of_changed arrives documented hq changed
      rw [answer] at code
      exact absurd code (by decide : (200 : UInt16) ≠ 304)
    · intro same
      rw [search_of_unchanged arrives documented hq same]
      exact ⟨rfl, entries_tagged _ _, rfl⟩
  case found =>
    intro q hq changed
    obtain ⟨type, answer, json, other⟩ := search_of_changed arrives documented hq changed
    rw [searched hq, answer]
    refine ⟨rfl, ⟨type, entries_typed _ _ _, json, other⟩, ?_⟩
    rw [← matching_eq]
    exact resultText_writeResult _ _ _

theorem report_of_unknown
    (arrives : Arrives wire request (Route.command.leading query ++ [database, design, index]) query)
    (get : request.method = .get) (full : index ≠ "")
    (unknown : ⟨database, design, index⟩ ∉ sample.map Prod.fst) :
    Endpoint.report (draft wire) = ⟨404, none, "no such index\n"⟩ := by
  have draft := draft_of_index arrives get full
  have undocumented := documents?_of_not_mem unknown
  have missing : Indexer.draft wire = noSuchIndex := by
    rw [draft]
    split
    · rw [info, undocumented]
    · rw [search, undocumented]
  rw [missing]
  rfl

end Indexer

namespace Relay

/-- Through a relay at the indexer, a line that names an index is answered from that index alone. -/
theorem index_answers_request {toAscii : Url.ToAscii} (lawful : toAscii.Lawful) {relay : Relay Unit} {line : String}
    {inbound : HookRequest} {request : IndexerRequest} {database hook design index : String}
    (transport : relay.transport = .ofFunction Indexer.exchange)
    (he : Endpoint.ofUrl "http://localhost:5985" .command toAscii = .ok relay.endpoint)
    (hl : HookRequest.ofLine line = .ok inbound) (hr : relay.endpoint.request inbound = .ok request)
    (hp : inbound.path = [database, hook, design, index]) (hm : inbound.method? = .ok .get)
    (full : index ≠ "") (short : Utf8.size request.url.toList ≤ 65534) :
    (⟨database, design, index⟩ ∉ Indexer.sample.map Prod.fst →
      (relay.handle line).answer = ⟨404, none, "no such index\n"⟩) ∧
    ∀ documents, (⟨database, design, index⟩, documents) ∈ Indexer.sample →
      Indexer.Answered (relay.handle line).answer request inbound.query ⟨database, design, index⟩ documents := by
  have get := Endpoint.method_of_request hr hm
  obtain ⟨wire, arrives, answered⟩ := answer_of_indexer lawful transport he hl hr hp (by rw [get]; decide) short
  rw [answered]
  exact ⟨Indexer.report_of_unknown arrives get full, fun documents => Indexer.answered_of_index arrives get full⟩

/-- An index whose names hold separators, asked with a tag that is its own but for a mark before it. -/
theorem index_answers_reserved_characters :
    let inbound : HookRequest := ⟨["my db", "_fti", "a/b", "what?"], Dict.ofList [("q", "oddly "), ("", "&")],
      Dict.ofList [("ACCEPT", "text/html,\tapplication/json"), ("if-none-match", "W/\"5-1-3\"")], none,
        some "get", none⟩
    let relay := start ⟨"http://localhost:5985", .command⟩ (.ofFunction Indexer.exchange) ()
    let answer := (relay.handle inbound.toLine).answer
    answer.code = 200 ∧
      answer.headers.map Dict.entries = some [("Content-Type", "application/json"), ("ETag", "\"5-1-3\"")] ∧
      Indexer.ResultText "oddly " "\"5-1-3\"" [⟨"odd", "foo in an oddly named index"⟩] answer.body.toList := by
  intro inbound relay answer
  have he : Endpoint.ofUrl "http://localhost:5985" .command = .ok relay.endpoint :=
    Endpoint.ofUrl_localhost Url.ToAscii.limited_lawful _
  have hr : relay.endpoint.request inbound =
      .ok ⟨.get, "http://localhost:5985/search/my%20db/a%2Fb/what%3F?=%26&q=oddly+",
        [("Accept", "text/html,\tapplication/json"), ("If-None-Match", "W/\"5-1-3\"")], none⟩ := by decide +kernel
  have hm : inbound.method? = .ok .get := rfl
  obtain ⟨-, answered⟩ := index_answers_request Url.ToAscii.limited_lawful rfl he
    (HookRequest.ofLine_written inbound)
    hr rfl hm (by decide) (by decide)
  have found := (answered _ (List.mem_cons_of_mem _ List.mem_cons_self)).found "oddly " (by decide)
  have tag : Indexer.tag ⟨"my db", "a/b", "what?"⟩
    [⟨"odd", "foo in an oddly named index"⟩] = "\"5-1-3\"" := by decide
  obtain ⟨code, ⟨type, headers, json, -⟩, body⟩ := found (by rw [tag]; decide)
  have accepts : Indexer.AcceptsJson ⟨.get, "http://localhost:5985/search/my%20db/a%2Fb/what%3F?=%26&q=oddly+",
      [("Accept", "text/html,\tapplication/json"), ("If-None-Match", "W/\"5-1-3\"")], none⟩ :=
    ⟨_, rfl, List.all_iff_forall_prop.1 (by decide), "text/html,\t".toList, [], by decide⟩
  have titled : ([⟨"odd", "foo in an oddly named index"⟩] : List Indexer.Document).filter
      (fun d => decide ("oddly ".toList <:+: d.title.toList)) = [⟨"odd", "foo in an oddly named index"⟩] :=
    List.filter_eq_self.2 fun d hd => by
      rw [List.mem_singleton.1 hd]
      exact decide_eq_true ⟨"foo in an ".toList, "named index".toList, by decide⟩
  rw [json accepts, tag] at headers
  rw [tag, titled] at body
  exact ⟨code, headers, body⟩

end Relay

end SearchRelay
