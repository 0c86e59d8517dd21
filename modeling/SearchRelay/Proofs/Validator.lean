import SearchRelay.Proofs.Decision
import SearchRelay.Proofs.RoundTrip

/-!
# Validators

The tag that the indexer gives an answer reaches the hook as it is, and the tag
that the hook asks about reaches the indexer as it is. On the way it is filtered,
written as JSON, read from whatever JSON it came in, and checked for what may not
be sent.
-/

namespace SearchRelay

namespace Endpoint

/-! ## Tags of answers -/

theorem get?_of_kept {answer : IndexerAnswer} {name value : String} (passes : answer.status < 400)
    (h : (name, value) ∈ Header.keep Header.answerNames answer.headers) :
    ∃ headers : Dict, (report answer).headers = some headers ∧ headers.get? name = some value := by
  have once := (Header.kept_keep Header.answerNames answer.headers).once
  refine ⟨Dict.ofList (Header.keep Header.answerNames answer.headers), ?_, (Dict.get?_ofList_eq_some_iff once).2 h⟩
  rw [report, answerHeaders, if_pos passes]
  cases kept : Header.keep Header.answerNames answer.headers with
  | nil =>
    rw [kept] at h
    cases h
  | cons first rest => rfl

/-! ## Tags of requests -/

/-- Whether a request that can be forwarded asks about a tag. -/
structure AsksAbout (inbound : HookRequest) (tag : String) : Prop where
  four : inbound.path.length = 4
  method : ∃ method, inbound.AsksFor method
  once : ∃ key, inbound.headers.entries.filter (Header.spells "If-None-Match") = [(key, tag)]
  accept : ∀ header ∈ inbound.headers.entries, Header.spells "Accept" header = true →
    Header.isValidValue header.2 = true

variable {inbound : HookRequest} {tag : String}

theorem AsksAbout.gives (asks : AsksAbout inbound tag) : Header.Gives inbound.headers.entries "If-None-Match" tag := by
  obtain ⟨key, only⟩ := asks.once
  apply Header.gives_iff.2
  refine ⟨key, ?_⟩
  rw [← List.head?_filter, List.filter_reverse, only]
  rfl

theorem AsksAbout.legal (asks : AsksAbout inbound tag) (valid : Header.isValidValue tag = true) :
    refusedHeader? inbound = none := by
  apply refusedHeader?_eq_none_iff.2
  intro name illegal
  obtain ⟨value, kept, invalid⟩ := Header.illegal_iff.1 illegal
  obtain ⟨listed, before, key, after, split, spelled, _⟩ := (Header.mem_keep_iff Header.apart_requestNames).1 kept
  have mem : (key, value) ∈ inbound.headers.entries := by simp [split]
  simp only [Header.requestNames, List.mem_cons, List.not_mem_nil, or_false] at listed
  rcases listed with rfl | rfl
  · rw [asks.accept (key, value) mem spelled] at invalid
    cases invalid
  · obtain ⟨own, only⟩ := asks.once
    have found : (key, value) ∈ inbound.headers.entries.filter (Header.spells "If-None-Match") :=
      List.mem_filter.2 ⟨mem, spelled⟩
    rw [only, List.mem_singleton, Prod.mk.injEq] at found
    rw [found.2, valid] at invalid
    cases invalid

theorem AsksAbout.forwarded (asks : AsksAbout inbound tag) (valid : Header.isValidValue tag = true)
    (endpoint : Endpoint) : ∃ request, endpoint.request inbound = .ok request ∧
      request.headers.filter (Header.spells "If-None-Match") = [("If-None-Match", tag)] := by
  have supported : ∃ method, inbound.method? = .ok method := by
    simpa only [HookRequest.method?_eq_ok_iff] using asks.method
  obtain ⟨request, h⟩ := request_eq_ok_iff.2 ⟨asks.four, supported, asks.legal valid⟩
  refine ⟨request, h, ?_⟩
  obtain ⟨_, _, _, _, _, _, _, _, rfl⟩ := request_eq_ok h
  apply Header.filter_spells_keep Header.apart_requestNames
  exact (Header.mem_keep_iff Header.apart_requestNames).2 ⟨by simp [Header.requestNames], asks.gives⟩

/-- A valid tag comes through in both directions: from the last header that gives it to the line of the answer, and
from any line of a request that asks about it to the one header that is sent for it. -/
theorem tag_survives (endpoint : Endpoint) (valid : Header.isValidValue tag = true) :
    (∀ answer : IndexerAnswer, answer.status < 400 → Header.Gives answer.headers "ETag" tag →
      ∃ read headers, HookAnswer.ofText (report answer).toLine.toList = .ok read ∧ read.headers = some headers ∧
        headers.get? "ETag" = some tag) ∧
    ∀ (line : String) (members : List HookRequest.Member) (inbound : HookRequest),
      HookRequest.Spelled members line.toList → inbound.Of members → AsksAbout inbound tag →
        ∃ request, endpoint.requestOfLine line = .ok request ∧
          request.headers.filter (Header.spells "If-None-Match") = [("If-None-Match", tag)] := by
  constructor
  · intro answer passes gives
    have kept := (Header.mem_keep_iff Header.apart_answerNames).2 ⟨by simp [Header.answerNames], gives⟩
    obtain ⟨headers, some, found⟩ := get?_of_kept passes kept
    exact ⟨report answer, headers, (report answer).ofText_toLine, some, found⟩
  · intro line members inbound spelled of asks
    rw [requestOfLine_of_ok endpoint (HookRequest.ofLine_of_spelled spelled of)]
    exact asks.forwarded valid endpoint

open Json in
theorem spelled_escaped_tag : HookRequest.Spelled
    [.path ["db", "_fti", "d", "i"], .headers (Dict.ofList [("if-NONE-match", "\"é\t\\\"")])]
    "\x7b\"path\":[\"db\",\"_fti\",\"d\",\"i\"],\"headers\":\x7b\"if-NONE-match\":\"\\u0022\\u00e9\\u0009\\\\\\\"\"\x7d\x7d".toList := by
  have quote : CodeUnit ['0', '0', '2', '2'] '"'.toNat :=
    .digits (w := 0) (x := 0) (y := 2) (z := 2) (.inl rfl) (.inl rfl) (.inl rfl) (.inl rfl)
  have letter : CodeUnit ['0', '0', 'e', '9'] 'é'.toNat :=
    .digits (w := 0) (x := 0) (y := 14) (z := 9) (.inl rfl) (.inl rfl) (.inl rfl) (.inl rfl)
  have tab : CodeUnit ['0', '0', '0', '9'] '\t'.toNat :=
    .digits (w := 0) (x := 0) (y := 0) (z := 9) (.inl rfl) (.inl rfl) (.inl rfl) (.inl rfl)
  have short : CharText '\\' ['\\', '\\'] := .short (by decide)
  have short' : CharText '"' ['\\', '"'] := .short (by decide)
  have tag : Literal "\"é\t\\\"" "\"\\u0022\\u00e9\\u0009\\\\\\\"\"".toList :=
    ⟨_, .cons (.unit quote) (.cons (.unit letter) (.cons (.unit tab) (.cons short (.cons short' .nil)))), by decide⟩
  have close {α : Type} {Says : α → List Char → Prop} : Parts '}' Says false [] ['}'] := .close blank_nil
  have object : DictText (Dict.ofList [("if-NONE-match", "\"é\t\\\"")])
      "\x7b\"if-NONE-match\":\"\\u0022\\u00e9\\u0009\\\\\\\"\"\x7d".toList :=
    ⟨_, rfl, _, .part (.first blank_nil) (memberText_writeMember tag) close, by decide⟩
  have list : ListText Literal ["db", "_fti", "d", "i"] (writeTexts ["db", "_fti", "d", "i"]) :=
    listText_writeList fun name _ => literal_writeText name
  have path : HookRequest.kinds.Part (.path ["db", "_fti", "d", "i"]) (writeMember ("path", _)) :=
    memberText_writeMember list
  have headers : HookRequest.kinds.Part (.headers (Dict.ofList _)) (writeMember ("headers", _)) :=
    memberText_writeMember object
  have parts := Parts.part (.first blank_nil) path (.part (.comma blank_nil blank_nil) headers close)
  exact ⟨[], _, [], blank_nil, blank_nil, .inl ⟨⟨_, parts, rfl⟩, by decide⟩, by decide⟩

/-- A quote, a letter beyond ASCII, a tab and a backslash. The last of two headers gives the tag. -/
theorem tag_survives_escaped :
    (∃ read headers, HookAnswer.ofText
        (report ⟨304, [("ETAG", "\"old\""), ("etag", "\"é\t\\\""), ("Age", "1")], ""⟩).toLine.toList = .ok read ∧
      read.headers = some headers ∧ headers.get? "ETag" = some "\"é\t\\\"") ∧
    ∃ request, Endpoint.requestOfLine ⟨"http://localhost:5985", .command⟩
        "\x7b\"path\":[\"db\",\"_fti\",\"d\",\"i\"],\"headers\":\x7b\"if-NONE-match\":\"\\u0022\\u00e9\\u0009\\\\\\\"\"\x7d\x7d" =
          .ok request ∧
      request.headers.filter (Header.spells "If-None-Match") = [("If-None-Match", "\"é\t\\\"")] := by
  have survives := @tag_survives "\"é\t\\\"" ⟨"http://localhost:5985", .command⟩ (by decide)
  constructor
  · apply survives.1
    · decide
    · exact ⟨[("ETAG", "\"old\"")], "etag", [("Age", "1")], rfl, by decide, by decide⟩
  · let headers := Dict.ofList [("if-NONE-match", "\"é\t\\\"")]
    apply survives.2 _ _ ⟨["db", "_fti", "d", "i"], .empty, headers, none, none, none⟩ spelled_escaped_tag
    · constructor <;> simp [HookRequest.Given, headers]
    · exact {
        four := rfl
        method := ⟨.get, .inr ⟨by simp [HookRequest.Names], rfl⟩⟩
        once := ⟨"if-NONE-match", by decide +kernel⟩
        accept := by decide +kernel }

end Endpoint

end SearchRelay
