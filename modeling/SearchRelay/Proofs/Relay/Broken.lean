import SearchRelay.Proofs.Json.Strings
import SearchRelay.Proofs.Relay.Session

/-!
# Lines that are not UTF-8

A replacement character stands in the text of such a line, wherever its bytes
are broken. Where no string is open the text is then no JSON, and the line is
refused without a call. In a string the replacement is a character like any
other, so there nothing keeps a broken line from being a request.
-/

namespace SearchRelay

/-! ## The text of a broken line -/

theorem Blank.mem_trim {text : List Char} {c : Char} (h : c ∈ text) (solid : isBlank c = false) :
    c ∈ trim text := by
  have stays {s : List Char} (hs : c ∈ s) : c ∈ s.dropWhile isBlank := by
    rw [← List.takeWhile_append_dropWhile (p := isBlank) (l := s), List.mem_append] at hs
    refine hs.resolve_left fun before => ?_
    rw [List.mem_takeWhile_imp before] at solid
    cases solid
  rw [trim, trimEnd, List.mem_reverse]
  exact stays (List.mem_reverse.2 (stays h))

theorem lineText?_of_broken {line : List UInt8} (h : Utf8.decode? line = none) :
    ∃ text, lineText? line = some text ∧ Utf8.replacement ∈ text.toList := by
  have stays := Blank.mem_trim (Utf8.replacement_mem_decodeLossy h) (by decide)
  refine ⟨String.ofList (Blank.trim (Utf8.decodeLossy line)), ?_, by rwa [String.toList_ofList]⟩
  simp only [lineText?, List.isEmpty_iff, if_neg (List.ne_nil_of_mem stays)]

theorem requestsOfText_eq_filterMap (bytes : List UInt8) :
    requestsOfText (Utf8.decodeLossy bytes) = (bytes.splitOn 10).filterMap lineText? := by
  have single {line : List UInt8} (h : 10 ∉ line) :
      requestsOfText (Utf8.decodeLossy line) = [line].filterMap lineText? := by
    rw [← toList_lineText? h]
    cases hl : lineText? line <;> simp [hl]
  induction bytes using Source.feed_induction with
  | last part h => rw [List.splitOn_eq_singleton h, single h]
  | line line rest h ih =>
    rw [Utf8.decodeLossy_feed, requestsOfText_feed, List.splitOn_append_cons_self, List.splitOn_eq_singleton h,
      List.filterMap_append, single h, ih]

namespace Relay

variable {σ : Type}

/-- Whether a replacement stands where no string is open, or right behind the backslash of an escape. -/
def BrokenOutside (text : List Char) : Prop :=
  ∃ s t, text = s ++ Utf8.replacement :: t ∧ Json.Quoting.outside.after s ≠ .inside

theorem malformed_of_brokenOutside {text : String} (h : BrokenOutside text.toList) (endpoint : Endpoint) :
    ∃ detail, endpoint.requestOfLine text = .error (.malformedRequest detail) := by
  obtain ⟨s, t, split, free⟩ := h
  obtain ⟨detail, malformed⟩ := Json.malformed_of_beyond split (by decide) free
  refine ⟨detail, ?_⟩
  rw [Endpoint.requestOfLine, malformed]
  rfl

/-- A line that is not UTF-8 is handled as the text in which replacements stand for the broken bytes, in its place
among the others. If one of them stands where no string is open, the line is refused. -/
theorem run_refuses_broken_line (relay : Relay σ) {bytes line : List UInt8} {earlier later : List (List UInt8)}
    (split : bytes.splitOn 10 = earlier ++ line :: later) (broken : Utf8.decode? line = none) :
    ∃ text, lineText? line = some text ∧ Utf8.replacement ∈ text.toList ∧
      let recorded := relay.recording []
      let reached := recorded.past (earlier.filterMap lineText?)
      let handled := reached.handle text
      let run := recorded.run (.ofBytes bytes) .reliable
      run.fault = none ∧
      run.output = HookAnswer.render (recorded.answersTo (earlier.filterMap lineText?)) ++
        ((handled.answer.bytes ++ [10]) ++ HookAnswer.render (handled.relay.answersTo (later.filterMap lineText?))) ∧
      run.relay = handled.relay.past (later.filterMap lineText?) ∧
      (BrokenOutside text.toList →
        handled.answer.code = 400 ∧
          handled.answer.headers.map Dict.entries = some [("Content-Type", "text/plain")] ∧
        handled.relay.tally = { reached.tally with rejected := reached.tally.rejected + 1 } ∧
        handled.relay.calls = reached.calls) := by
  obtain ⟨text, ht, mem⟩ := lineText?_of_broken broken
  refine ⟨text, ht, mem, ?_⟩
  intro recorded reached handled run
  have requests : (Source.ofBytes bytes).requests = earlier.filterMap lineText? ++
    text :: later.filterMap lineText? := by
    rw [Source.requests_ofBytes, requestsOfText_eq_filterMap, split, List.filterMap_append, List.filterMap_cons, ht]
  have stands : Stands run recorded _ _ [] none := stands_of_accepts (Device.acceptsAll_reliable 0 _)
  rw [requests] at stands
  refine ⟨stands.fault, ?_, ?_, fun outside => ?_⟩
  · rw [stands.output, List.append_nil, answersTo_append, HookAnswer.render_append, answersTo_cons,
      HookAnswer.render_cons]
  · rw [stands.left, past_append, past_cons]
  · obtain ⟨detail, malformed⟩ := malformed_of_brokenOutside outside reached.endpoint
    have refused : handled = reached.refuse (.malformedRequest detail) := handle_of_error malformed
    rw [refused]
    exact ⟨rfl, rfl, rfl, rfl⟩

/-- The second line of an input, with one broken byte in a string and one behind it. -/
theorem run_refuses_line_broken_behind_string :
    let line := Utf8.encode "\x7b\"id\":\"".toList ++ 0xFF :: 34 :: 0xC3 :: Utf8.encode "\x7d".toList
    let relay := start ⟨"http://localhost:5985", .command⟩ Transport.scripted []
    let reached := (relay.recording []).past ["\x7b\x7d"]
    (123 :: 125 :: 10 :: line).splitOn 10 = [[123, 125], line] ∧ Utf8.decode? line = none ∧
    ∃ text, lineText? line = some text ∧ (reached.handle text).answer.code = 400 ∧
      (reached.handle text).relay.tally = ⟨0, 2, 0⟩ ∧ (reached.handle text).relay.calls = [] := by
  intro line relay reached
  have split : (123 :: 125 :: 10 :: line).splitOn 10 = [[123, 125]] ++ line :: [] := by decide
  have broken : Utf8.decode? line = none := by decide
  obtain ⟨text, ht, -, -, -, -, refused⟩ := run_refuses_broken_line relay split broken
  have known : lineText? line = some "\x7b\"id\":\"\uFFFD\"\uFFFD\x7d" := by decide +kernel
  rw [known, Option.some.injEq] at ht
  subst ht
  obtain ⟨code, -, tally, calls⟩ := refused ⟨"\x7b\"id\":\"\uFFFD\"".toList, ['\x7d'], by decide, by decide⟩
  refine ⟨split, broken, _, known, code, tally.trans ?_, calls.trans ?_⟩ <;> decide +kernel

/-- A broken byte in a string is forwarded as a replacement, and the line is answered like any other. -/
theorem line_broken_in_string_is_forwarded :
    let line := Utf8.encode "\x7b\"path\":[\"".toList ++
      0xFF :: Utf8.encode "\",\"_fti\",\"d\",\"i\"],\"query\":\x7b\x7d,\"headers\":\x7b\x7d\x7d".toList
    let relay := start ⟨"http://localhost:5985", .command⟩
      (Transport.ofFunction fun _ => .ok ⟨200, [], "found"⟩) ()
    let run := (relay.recording []).run (.ofBytes line) .reliable
    Utf8.decode? line = none ∧ run.relay.tally = ⟨1, 0, 0⟩ ∧
    run.relay.calls = [.execute ⟨.get, "http://localhost:5985/info/%EF%BF%BD/d/i", [], none⟩
      (.ok ⟨200, [], "found"⟩)] ∧
    run.output = Utf8.encode "\x7b\"code\":200,\"body\":\"found\"\x7d\n".toList := by
  intro line relay run
  let inbound : HookRequest := ⟨["\uFFFD", "_fti", "d", "i"], .empty, .empty, none, none, none⟩
  have known : lineText? line = some inbound.toLine := by decide +kernel
  have requests : (Source.ofBytes line).requests = [inbound.toLine] := by
    rw [Source.requests_ofBytes, requestsOfText_eq_filterMap, show line.splitOn 10 = [line] by decide,
      List.filterMap_cons, known]
    rfl
  have stands : Stands run (relay.recording []) _ _ [] none := stands_of_accepts (Device.acceptsAll_reliable 0 _)
  have accepted : relay.endpoint.requestOfLine inbound.toLine =
      .ok ⟨.get, "http://localhost:5985/info/%EF%BF%BD/d/i", [], none⟩ := by
    rw [Endpoint.requestOfLine, HookRequest.ofLine_written]
    change Endpoint.request ⟨"http://localhost:5985", .command⟩
      ⟨["\uFFFD", "_fti", "d", "i"], .empty, .empty, none, none, none⟩ = _
    decide +kernel
  have handled : (relay.recording []).handle inbound.toLine = (relay.recording []).forward _ := handle_of_ok accepted
  rw [requests] at stands
  refine ⟨by decide, ?_, ?_, ?_⟩
  · rw [stands.left, past_cons, handled]
    rfl
  · rw [stands.left, past_cons, handled]
    rfl
  · rw [stands.output, answersTo_cons, handled]
    decide +kernel

end Relay

end SearchRelay
