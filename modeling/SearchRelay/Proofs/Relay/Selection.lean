import SearchRelay.Proofs.Relay.Run

/-!
# Runs over some of the lines of another

A line that is blank or refused leaves a relay as it is, but for the count of
refusals. So a run without such lines makes the same calls, and answers the other
lines as before. If the outcome of a request depends on the request alone, the
answer to a line depends on the line alone.
-/

namespace SearchRelay

def select {α : Type} (xs : List α) (marks : List Bool) : List α := ((xs.zip marks).filter Prod.snd).map Prod.fst

section
variable {α : Type} (x : α) (xs : List α) (marks : List Bool)

theorem select_true : select (x :: xs) (true :: marks) = x :: select xs marks := rfl

theorem select_false : select (x :: xs) (false :: marks) = select xs marks := rfl

end

/-! ## The lines of an input -/

def requestsOf (lines : List (List UInt8)) : List String := lines.flatMap fun line => (lineText? line).toList

theorem requestsOf_cons (line : List UInt8) (lines : List (List UInt8)) :
    requestsOf (line :: lines) = (lineText? line).toList ++ requestsOf lines := List.flatMap_cons

namespace Source

def ofLines (lines : List (List UInt8)) : Source := .ofBytes (lines.flatMap (· ++ [10]))

theorem requests_ofLines {lines : List (List UInt8)} (whole : ∀ line ∈ lines, 10 ∉ line) :
    (ofLines lines).requests = requestsOf lines := by
  induction lines with
  | nil => exact requests_of_finished read_finished
  | cons line lines ih =>
    have rest := ih fun l hl => whole l (List.mem_cons_of_mem _ hl)
    have first := whole line List.mem_cons_self
    rw [requestsOf_cons, toList_lineText? first, ← rest, ofLines, List.flatMap_cons, List.append_assoc]
    exact requests_feed first _ none

end Source

namespace Relay

variable {σ : Type}

/-! ## Replies -/

/-- What a run writes for a line: the answer and a line feed, or nothing for a blank line. -/
def reply (relay : Relay σ) (line : List UInt8) : List UInt8 :=
  HookAnswer.render (relay.answersTo (lineText? line).toList)

def next (relay : Relay σ) (line : List UInt8) : Relay σ := relay.past (lineText? line).toList

def replies (relay : Relay σ) : List (List UInt8) → List (List UInt8)
  | [] => []
  | line :: lines => relay.reply line :: (relay.next line).replies lines

def IsReply (line reply : List UInt8) : Prop :=
  match lineText? line with
  | none => reply = []
  | some _ => ∃ answer : HookAnswer, reply = answer.bytes ++ [10]

theorem isReply_reply (relay : Relay σ) (line : List UInt8) : IsReply line (relay.reply line) := by
  unfold IsReply reply
  cases lineText? line with
  | none => rfl
  | some text => exact ⟨(relay.handle text).answer, List.append_nil _⟩

theorem forall_isReply (relay : Relay σ) (lines : List (List UInt8)) :
    List.Forall₂ IsReply lines (relay.replies lines) := by
  induction lines generalizing relay with
  | nil => exact .nil
  | cons line lines ih => exact .cons (relay.isReply_reply line) (ih _)

theorem render_requestsOf (relay : Relay σ) (lines : List (List UInt8)) :
    HookAnswer.render (relay.answersTo (requestsOf lines)) = (relay.replies lines).flatten := by
  induction lines generalizing relay with
  | nil => rfl
  | cons line lines ih =>
    rw [requestsOf_cons, answersTo_append, HookAnswer.render_append, replies, List.flatten_cons, ← ih]
    rfl

theorem run_ofLines (relay : Relay σ) {lines : List (List UInt8)} (whole : ∀ line ∈ lines, 10 ∉ line) :
    (relay.run (.ofLines lines) .reliable).fault = none ∧
    (relay.run (.ofLines lines) .reliable).output = (relay.replies lines).flatten ∧
    (relay.run (.ofLines lines) .reliable).relay = relay.past (requestsOf lines) := by
  have stands : Stands (relay.run (.ofLines lines) .reliable) relay (Source.ofLines lines).requests
      (Source.ofLines lines).requests [] (Source.ofLines lines).fault :=
        stands_of_accepts (Device.acceptsAll_reliable 0 _)
  rw [Source.requests_ofLines whole] at stands
  refine ⟨stands.fault, ?_, stands.left⟩
  rw [stands.output, List.append_nil, render_requestsOf]

/-! ## Lines that are not forwarded -/

/-- Whether a line is blank or refused. -/
def IsIdle (relay : Relay σ) (line : List UInt8) : Prop :=
  ∀ text ∈ lineText? line, ∃ refusal, relay.endpoint.requestOfLine text = .error refusal

/-- The relay with more refusals in its count. -/
def refusing (relay : Relay σ) (count : Nat) : Relay σ :=
  { relay with tally := { relay.tally with rejected := relay.tally.rejected + count } }

theorem refusing_refusing (relay : Relay σ) (m n : Nat) : (relay.refusing m).refusing n = relay.refusing (m + n) := by
  simp only [refusing, Nat.add_assoc]

theorem next_of_isIdle {relay : Relay σ} {line : List UInt8} (h : relay.IsIdle line) :
    relay.next line = relay.refusing (lineText? line).toList.length := by
  unfold next
  cases ht : lineText? line with
  | none => rfl
  | some text =>
    obtain ⟨refusal, refused⟩ := h text ht
    rw [Option.toList_some, past_cons, past_nil, handle_of_error refused]
    rfl

theorem handle_refusing (relay : Relay σ) (count : Nat) (text : String) :
    (relay.refusing count).handle text =
      ⟨(relay.handle text).answer, (relay.handle text).relay.refusing count, (relay.handle text).events⟩ := by
  rcases relay.handle_cases text with ⟨refusal, hr, hh, _⟩ | ⟨request, answer, state, notices, hr, he, hh, _⟩ |
    ⟨request, fault, state, notices, hr, he, hh, _⟩
  · have refused : (relay.refusing count).handle text = _ := handle_of_error hr
    rw [refused, hh]
    simp only [refuse, refusing, Nat.add_right_comm]
  · have forwarded : (relay.refusing count).handle text = (relay.refusing count).forward request := handle_of_ok hr
    have executed : (relay.refusing count).transport.execute (relay.refusing count).state request = _ := he
    rw [forwarded, hh, forward_of_ok he, forward_of_ok executed]
    rfl
  · have forwarded : (relay.refusing count).handle text = (relay.refusing count).forward request := handle_of_ok hr
    have executed : (relay.refusing count).transport.execute (relay.refusing count).state request = _ := he
    rw [forwarded, hh, forward_of_error he, forward_of_error executed]
    rfl

theorem past_refusing (relay : Relay σ) (count : Nat) (texts : List String) :
    (relay.refusing count).past texts = (relay.past texts).refusing count := by
  induction texts generalizing relay with
  | nil => rfl
  | cons text texts ih => rw [past_cons, past_cons, handle_refusing, ih]

theorem answersTo_refusing (relay : Relay σ) (count : Nat) (texts : List String) :
    (relay.refusing count).answersTo texts = relay.answersTo texts := by
  induction texts generalizing relay with
  | nil => rfl
  | cons text texts ih => rw [answersTo_cons, answersTo_cons, handle_refusing, ih]

theorem replies_refusing (relay : Relay σ) (count : Nat) (lines : List (List UInt8)) :
    (relay.refusing count).replies lines = relay.replies lines := by
  induction lines generalizing relay with
  | nil => rfl
  | cons line lines ih => rw [replies, replies, reply, reply, next, next, answersTo_refusing, past_refusing, ih]

/-! ## Selections -/

theorem past_requestsOf_cons (relay : Relay σ) (line : List UInt8) (lines : List (List UInt8)) :
    relay.past (requestsOf (line :: lines)) = (relay.next line).past (requestsOf lines) := by
  rw [requestsOf_cons, past_append, next]

theorem endpoint_next (relay : Relay σ) (line : List UInt8) : (relay.next line).endpoint = relay.endpoint :=
  (relay.kept_past _).1

/-- Lines that are idle may be left out: nothing is lost but their replies and their count. -/
theorem past_select : ∀ {lines : List (List UInt8)} {marks : List Bool} (relay : Relay σ),
    marks.length = lines.length → (∀ line, (line, false) ∈ lines.zip marks → relay.IsIdle line) →
    relay.past (requestsOf lines) = (relay.past (requestsOf (select lines marks))).refusing
      (requestsOf (select lines (marks.map (!·)))).length ∧
    relay.replies (select lines marks) = select (relay.replies lines) marks
  | [], [], relay, _, _ => ⟨rfl, rfl⟩
  | line :: lines, true :: marks, relay, same, idle => by
    have ih := past_select (relay.next line) (Nat.succ.inj same) fun l hl => by
      rw [IsIdle, endpoint_next]
      exact idle l (List.mem_cons_of_mem _ hl)
    rw [List.map_cons, Bool.not_true, select_true, select_false, past_requestsOf_cons, past_requestsOf_cons, replies,
      replies, select_true, ih.2]
    exact ⟨ih.1, rfl⟩
  | line :: lines, false :: marks, relay, same, idle => by
    have ih := past_select relay (Nat.succ.inj same) fun l hl => idle l (List.mem_cons_of_mem _ hl)
    have next := next_of_isIdle (idle line List.mem_cons_self)
    rw [List.map_cons, Bool.not_false, select_true, select_false, past_requestsOf_cons, requestsOf_cons, replies,
      select_false, next, past_refusing, replies_refusing, ih.1, refusing_refusing, List.length_append, Nat.add_comm]
    exact ⟨rfl, ih.2⟩

/-! ## Outcomes that depend on the request alone -/

section
variable {outcome : IndexerRequest → Outcome}

theorem answer_handle_eq {a b : Relay σ} (endpoint : a.endpoint = b.endpoint) (transport : a.transport = b.transport)
    (stateless : ∀ state request, (a.transport.execute state request).1 = outcome request) (text : String) :
    (a.handle text).answer = (b.handle text).answer := by
  cases hr : a.endpoint.requestOfLine text with
  | error refusal => rw [handle_of_error hr, handle_of_error (endpoint ▸ hr)]; rfl
  | ok request =>
    rw [handle_of_ok hr, handle_of_ok (endpoint ▸ hr)]
    have first := stateless a.state request
    have second := stateless b.state request
    rcases ha : a.transport.execute a.state request with ⟨oa, sa, na⟩
    rw [transport] at second
    rcases hb : b.transport.execute b.state request with ⟨ob, sb, nb⟩
    rw [ha] at first
    rw [hb] at second
    obtain rfl : oa = ob := first.trans second.symm
    cases oa with
    | ok answer => rw [forward_of_ok ha, forward_of_ok hb]
    | error fault => rw [forward_of_error ha, forward_of_error hb, endpoint]

theorem replies_eq_map : ∀ (lines : List (List UInt8)) {a b : Relay σ}, a.endpoint = b.endpoint →
    a.transport = b.transport → (∀ state request, (a.transport.execute state request).1 = outcome request) →
    a.replies lines = lines.map b.reply
  | [], _, _, _, _, _ => rfl
  | line :: lines, a, b, endpoint, transport, stateless => by
    have kept := a.kept_past (lineText? line).toList
    have rest := replies_eq_map lines (a := a.next line) (b := b) (kept.1.trans endpoint) (kept.2.trans transport)
      (by rw [next, kept.2]; exact stateless)
    rw [replies, rest, List.map_cons, reply, reply]
    cases lineText? line with
    | none => rfl
    | some text =>
      rw [Option.toList_some, answersTo_cons, answersTo_cons, answer_handle_eq endpoint transport stateless]
      rfl

end

/-- Lines that are blank or refused may be left out of a run: the same calls are made for the others, and the same
replies are written to them. If the outcome of a request depends on the request alone, lines may be rearranged and
repeated, and the replies are rearranged and repeated with them. -/
theorem run_without_idle_lines (relay : Relay σ) {lines : List (List UInt8)} {marks : List Bool}
    (whole : ∀ line ∈ lines, 10 ∉ line) (same : marks.length = lines.length)
    (idle : ∀ line, (line, false) ∈ lines.zip marks → relay.IsIdle line) :
    let left := select lines marks
    let removed := requestsOf (select lines (marks.map (!·)))
    let full := relay.run (.ofLines lines) .reliable
    let part := relay.run (.ofLines left) .reliable
    full.fault = none ∧ part.fault = none ∧
    ((relay.recording []).run (.ofLines lines) .reliable).relay.calls =
      ((relay.recording []).run (.ofLines left) .reliable).relay.calls ∧
    full.relay.tally = { part.relay.tally with rejected := part.relay.tally.rejected + removed.length } ∧
    full.relay.state = part.relay.state ∧
    List.Forall₂ IsReply lines (relay.replies lines) ∧
    full.output = (relay.replies lines).flatten ∧
    part.output = (select (relay.replies lines) marks).flatten ∧
    ∀ outcome : IndexerRequest → Outcome,
      (∀ state request, (relay.transport.execute state request).1 = outcome request) →
      ∀ picks : List (List UInt8 × List UInt8), (∀ pick ∈ picks, pick ∈ lines.zip (relay.replies lines)) →
        (relay.run (.ofLines (picks.map Prod.fst)) .reliable).output = (picks.map Prod.snd).flatten := by
  intro left removed full part
  have whole_left : ∀ line ∈ left, 10 ∉ line := by
    intro line hl
    obtain ⟨⟨line, mark⟩, hm, rfl⟩ := List.mem_map.1 hl
    exact whole line (List.of_mem_zip (List.mem_filter.1 hm).1).1
  obtain ⟨full_fault, full_output, full_relay⟩ := relay.run_ofLines whole
  obtain ⟨part_fault, part_output, part_relay⟩ := relay.run_ofLines whole_left
  obtain ⟨past, replies⟩ := past_select relay same idle
  refine ⟨full_fault, part_fault, ?_, ?_, ?_, relay.forall_isReply lines, full_output, ?_, ?_⟩
  · -- The calls are part of the state of a relay that records them, and idle lines leave its state alone.
    obtain ⟨-, -, full_calls⟩ := (relay.recording []).run_ofLines whole
    obtain ⟨-, -, part_calls⟩ := (relay.recording []).run_ofLines whole_left
    rw [full_calls, part_calls, (past_select (relay.recording []) same idle).1]
    rfl
  · rw [full_relay, past, part_relay]
    rfl
  · rw [full_relay, past, part_relay]
    rfl
  · rw [part_output, replies]
  · intro outcome stateless picks picked
    have each := replies_eq_map lines (a := relay) rfl rfl stateless
    have whole_picks : ∀ line ∈ picks.map Prod.fst, 10 ∉ line := by
      intro line hl
      obtain ⟨pick, hp, rfl⟩ := List.mem_map.1 hl
      exact whole _ (List.of_mem_zip (picked pick hp)).1
    rw [(relay.run_ofLines whole_picks).2.1, replies_eq_map _ rfl rfl stateless, List.map_map]
    congr 1
    refine List.map_congr_left fun pick hp => ?_
    have paired := picked pick hp
    rw [each, ← List.map_prod_left_eq_zip] at paired
    obtain ⟨line, -, rfl⟩ := List.mem_map.1 paired
    rfl

/-- A request between a line that is none and a blank one; then the request twice and the other line behind it. -/
theorem run_without_line_and_blank :
    let request := Utf8.encode "\x7b\"path\":[\"db\",\"_fti\",\"_design/a\",\"b\"]\x7d".toList
    let relay := start ⟨"http://localhost:5985", .command⟩
      (Transport.ofFunction fun _ => .ok ⟨200, [], "found"⟩) ()
    let lines := [[120], request, [32]]
    let full := relay.run (.ofLines lines) .reliable
    let part := relay.run (.ofLines [request]) .reliable
    (∀ line ∈ lines, 10 ∉ line) ∧
      (∀ line, (line, false) ∈ lines.zip [false, true, false] → relay.IsIdle line) ∧
    full.relay.tally = { part.relay.tally with rejected := part.relay.tally.rejected + 1 } ∧
    full.output = relay.reply [120] ++ relay.reply request ∧ part.output = relay.reply request ∧
    (relay.run (.ofLines [request, request, [120]]) .reliable).output =
      relay.reply request ++ relay.reply request ++ relay.reply [120] := by
  intro request relay lines full part
  have whole : ∀ line ∈ lines, 10 ∉ line := by decide
  obtain ⟨refusal, refused⟩ : ∃ refusal, relay.endpoint.requestOfLine "x" = .error refusal := ⟨_, rfl⟩
  have idle : ∀ line, (line, false) ∈ lines.zip [false, true, false] → relay.IsIdle line := by
    intro line hl text ht
    have known : line = [120] ∨ line = [32] := by simpa [lines] using hl
    rcases known with rfl | rfl
    · obtain rfl : "x" = text := Option.some.inj ht
      exact ⟨refusal, refused⟩
    · cases ht
  obtain ⟨-, -, -, tally, -, -, output, left, picked⟩ := run_without_idle_lines relay whole rfl idle
  have replies : relay.replies lines = [relay.reply [120], relay.reply request, []] :=
    replies_eq_map lines rfl rfl fun _ _ => rfl
  rw [replies] at output left picked
  refine ⟨whole, idle, tally, output.trans ?_, left.trans ?_, ?_⟩
  · simp
  · simp [select]
  · have again := picked _ (fun _ _ => rfl) [(request, relay.reply request), (request, relay.reply request),
      ([120], relay.reply [120])] (by simp [lines])
    simpa using again

end Relay

end SearchRelay
