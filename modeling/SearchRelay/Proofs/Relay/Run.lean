import SearchRelay.Proofs.Relay.Calls
import SearchRelay.Relay.Session

/-!
# What a run comes to

A run without faults is handling the requests of the whole input one after the
other. A fault of the output cuts it in the delivery of one answer, a fault of
the input after the last whole line; either way the relay is left as the
requests handled so far have made it.
-/

namespace SearchRelay

/-! ## Output in pieces -/

theorem HookAnswer.feed_not_mem_bytes (answer : HookAnswer) : 10 ∉ answer.bytes := fun h =>
  answer.feed_not_mem_toText (Utf8.feed_mem_of_mem_encode h)

theorem HookAnswer.read_bytes (answer : HookAnswer) :
    (Utf8.decode? answer.bytes).map ofText = some (.ok answer) := by
  rw [bytes, Utf8.decode?_encode, Option.map_some, ofText_toText]

theorem HookAnswer.splitOn_render (answers : List HookAnswer) :
    (render answers).splitOn 10 = answers.map HookAnswer.bytes ++ [[]] := by
  induction answers with
  | nil => rfl
  | cons answer answers ih =>
    rw [render_cons, List.append_assoc, List.singleton_append, List.splitOn_append_cons_self,
      List.splitOn_eq_singleton answer.feed_not_mem_bytes, ih]
    rfl

namespace Relay

variable {σ : Type}

/-! ## The end of a run -/

/-- How a run stands when it ends: the requests it has handled, those whose answers have been delivered, what it
has written after these, and the fault that ended it. -/
structure Stands (run : Run σ) (relay : Relay σ) (handled delivered : List String) (written : List UInt8)
    (fault : Option String) : Prop where
  fault : run.fault = fault
  output : run.output = HookAnswer.render (relay.answersTo delivered) ++ written
  flushed : run.flushed = (HookAnswer.render (relay.answersTo delivered)).length
  left : run.relay = relay.past handled

theorem stands_of_accepts {relay : Relay σ} {source : Source} {device : Device}
    (h : device.AcceptsAll 0 (relay.answersTo source.requests)) :
    Stands (relay.run source device) relay source.requests source.requests [] source.fault := by
  have served := serve_append source.fault [] h
  rw [List.append_nil] at served
  constructor <;> simp only [run, answerLines_eq_serve, served, serve_nil]
  rw [Nat.add_zero]

theorem stands_of_breaks {relay : Relay σ} {source : Source} {device : Device} {before later : List String}
    {line detail : String} {written : List UInt8} (split : source.requests = before ++ line :: later)
    (accepts : device.AcceptsAll 0 (relay.answersTo before))
    (breaks : device.Breaks (HookAnswer.render (relay.answersTo before)).length
      ((relay.past before).handle line).answer.bytes written detail) :
    Stands (relay.run source device) relay (before ++ [line]) before written (some detail) := by
  have served := serve_append source.fault (line :: later) accepts
  rw [← split, Nat.zero_add, serve_breaks later breaks] at served
  constructor <;> simp only [run, answerLines_eq_serve, served]
  · rw [Nat.add_zero]
  · rw [past_append, past_cons, past_nil]

/-- What a run comes to: how it stands, the calls that have been made, and that the relay goes on from there. -/
structure Comes (relay : Relay σ) (source : Source) (device : Device) (handled delivered : List String)
    (written : List UInt8) (fault : Option String) : Prop
    extends Stands (relay.run source device) relay handled delivered written fault where
  calls : ((relay.recording []).run source device).relay.calls = callsOf (relay.exchanges handled)
  executed : ((relay.recording []).run source device).relay.calls.filterMap Call.request? =
    handled.filterMap fun line => (relay.endpoint.requestOfLine line).toOption
  again : ∀ steps, (relay.perform (.run source device :: steps)).drop 1 = (relay.past handled).perform steps

theorem comes_of_stands {relay : Relay σ} {source : Source} {device : Device} {handled delivered : List String}
    {written : List UInt8} {fault : Option String}
    (plain : Stands (relay.run source device) relay handled delivered written fault)
    (recorded : Stands ((relay.recording []).run source device) (relay.recording []) handled delivered written fault) :
    relay.Comes source device handled delivered written fault := by
  have calls : ((relay.recording []).run source device).relay.calls = callsOf (relay.exchanges handled) := by
    rw [recorded.left, past_recording, calls_recording, List.nil_append]
  refine { plain with calls, executed := ?_, again := fun steps => ?_ }
  · rw [calls, requests_callsOf, map_fst_exchanges]
  · rw [← plain.left]
    rfl

theorem comes_of_accepts {relay : Relay σ} {source : Source} {device : Device}
    (h : device.AcceptsAll 0 (relay.answersTo source.requests)) :
    relay.Comes source device source.requests source.requests [] source.fault := by
  refine comes_of_stands (stands_of_accepts h) (stands_of_accepts ?_)
  rwa [answersTo_recording]

theorem comes_of_breaks {relay : Relay σ} {source : Source} {device : Device} {before later : List String}
    {line detail : String} {written : List UInt8} (split : source.requests = before ++ line :: later)
    (accepts : device.AcceptsAll 0 (relay.answersTo before))
    (breaks : device.Breaks (HookAnswer.render (relay.answersTo before)).length
      ((relay.past before).handle line).answer.bytes written detail) :
    relay.Comes source device (before ++ [line]) before written (some detail) := by
  refine comes_of_stands (stands_of_breaks split accepts breaks) (stands_of_breaks split ?_ ?_)
  · rwa [answersTo_recording]
  · rwa [answersTo_recording, past_recording, handle_recording]

/-! ## Runs without faults -/

/-- A run without faults handles the requests in the text of the whole input. The output has one line for each of
them, and each line reads back as the answer. -/
theorem run_answers_whole_input (relay : Relay σ) (bytes : List UInt8) :
    let lines := requestsOfText (Utf8.decodeLossy bytes)
    let run := relay.run (.ofBytes bytes) .reliable
    run.fault = none ∧
    run.output = HookAnswer.render (relay.answersTo lines) ∧
    run.flushed = run.output.length ∧
    run.relay = relay.past lines ∧
    ((relay.recording []).run (.ofBytes bytes) .reliable).relay.calls = ((relay.recording []).past lines).calls ∧
    ((relay.recording []).run (.ofBytes bytes) .reliable).relay.calls.filterMap Call.request? =
      lines.filterMap (fun line => (relay.endpoint.requestOfLine line).toOption) ∧
    ∃ pieces, run.output.splitOn 10 = pieces ++ [[]] ∧ pieces.length = lines.length ∧
      pieces.map (fun piece => (Utf8.decode? piece).map HookAnswer.ofText) =
        (relay.answersTo lines).map (fun answer => some (.ok answer)) := by
  intro lines run
  have requests : (Source.ofBytes bytes).requests = lines := Source.requests_ofBytes bytes
  have comes : relay.Comes (.ofBytes bytes) .reliable _ _ [] none := comes_of_accepts (Device.acceptsAll_reliable 0 _)
  rw [requests] at comes
  have output : run.output = HookAnswer.render (relay.answersTo lines) := by
    rw [comes.output, List.append_nil]
  refine ⟨comes.fault, output, ?_, comes.left, ?_, comes.executed, ?_⟩
  · rw [output]
    exact comes.flushed
  · rw [comes.calls, past_recording, calls_recording, List.nil_append]
  · refine ⟨(relay.answersTo lines).map HookAnswer.bytes, ?_, ?_, ?_⟩
    · rw [output, HookAnswer.splitOn_render]
    · rw [List.length_map, length_answersTo]
    · rw [List.map_map]
      exact List.map_congr_left fun answer _ => answer.read_bytes

/-! ## Runs that a fault cuts -/

/-- Either all answers go out, or there is a first delivery that fails. -/
theorem accepts_or_breaks (device : Device) : ∀ (relay : Relay σ) (taken : Nat) (lines : List String),
    device.AcceptsAll taken (relay.answersTo lines) ∨
    ∃ before line later written detail, lines = before ++ line :: later ∧
      device.AcceptsAll taken (relay.answersTo before) ∧
      device.Breaks (taken + (HookAnswer.render (relay.answersTo before)).length)
        ((relay.past before).handle line).answer.bytes written detail
  | relay, taken, [] => .inl trivial
  | relay, taken, line :: lines => by
    rcases device.accepts_or_breaks taken (relay.handle line).answer.bytes with first | ⟨written, detail, breaks⟩
    · rcases accepts_or_breaks device (relay.handle line).relay
          (taken + ((relay.handle line).answer.bytes ++ [10]).length) lines with
        rest | ⟨before, next, later, written, detail, rfl, accepts, breaks⟩
      · exact .inl ⟨first, rest⟩
      · refine .inr ⟨line :: before, next, later, written, detail, rfl, ⟨first, accepts⟩, ?_⟩
        rw [answersTo_cons, HookAnswer.render_cons, List.length_append, past_cons, ← Nat.add_assoc]
        exact breaks
    · exact .inr ⟨[], line, lines, written, detail, rfl, trivial, breaks⟩

theorem output_of_reliable (relay : Relay σ) (source : Source) :
    (relay.run source .reliable).output = HookAnswer.render (relay.answersTo source.requests) := by
  rw [(relay.stands_of_accepts (Device.acceptsAll_reliable 0 _)).output, List.append_nil]

/-- A fault of the output ends a run in the delivery of an answer, whose request is the last one that is handled.
A fault of the input ends it when all whole lines have been answered. There is no other end but that of the input. -/
theorem run_cut_by_fault (relay : Relay σ) (source : Source) (device : Device) :
    let lines := requestsOfText (Utf8.decodeLossy source.readable)
    (∀ before line later written detail, lines = before ++ line :: later →
      device.AcceptsAll 0 (relay.answersTo before) →
      device.Breaks (HookAnswer.render (relay.answersTo before)).length
        ((relay.past before).handle line).answer.bytes written detail →
      relay.Comes source device (before ++ [line]) before written (some detail) ∧
      (relay.run source device).output <+: (relay.run source .reliable).output) ∧
    (∀ detail, source.fault = some detail → device.AcceptsAll 0 (relay.answersTo lines) →
      relay.Comes source device lines lines [] (some detail) ∧
      ∀ more, (relay.run source device).output <+: (relay.run (.ofBytes (source.bytes ++ more)) .reliable).output) ∧
    (device.AcceptsAll 0 (relay.answersTo lines) ∨
      ∃ before line later written detail, lines = before ++ line :: later ∧
        device.AcceptsAll 0 (relay.answersTo before) ∧
        device.Breaks (HookAnswer.render (relay.answersTo before)).length
          ((relay.past before).handle line).answer.bytes written detail) := by
  intro lines
  have requests : source.requests = lines := source.requests_eq
  refine ⟨?_, ?_, ?_⟩
  · intro before line later written detail split accepts breaks
    have comes := comes_of_breaks (requests.trans split) accepts breaks
    refine ⟨comes, ?_⟩
    rw [comes.output, output_of_reliable, requests, split, answersTo_append, answersTo_cons, HookAnswer.render_append,
      HookAnswer.render_cons, List.prefix_append_right_inj]
    exact (Device.prefix_of_breaks breaks).trans (List.prefix_append _ _)
  · intro detail fault accepts
    rw [← requests] at accepts
    have comes := comes_of_accepts accepts
    rw [requests, fault] at comes
    refine ⟨comes, fun more => ?_⟩
    have whole : lines <+: (Source.ofBytes (source.bytes ++ more)).requests := by
      rw [Source.requests_ofBytes]
      show requestsOfText (Utf8.decodeLossy source.readable) <+: _
      rw [Source.readable, fault, Option.isSome_some, if_pos rfl]
      exact Source.requests_wholeLines_append source.bytes more
    obtain ⟨later, hl⟩ := whole
    rw [comes.output, output_of_reliable, ← hl, answersTo_append, HookAnswer.render_append, List.append_nil]
    exact List.prefix_append _ _
  · have split := accepts_or_breaks device relay 0 lines
    simp only [Nat.zero_add] at split
    exact split

/-- Two empty objects, the second without its line feed: the first flush fails, or reading does. -/
theorem run_cut_in_two_lines :
    let relay := start ⟨"http://localhost:5985", .command⟩ Transport.scripted []
    let answer := (relay.handle "\x7b\x7d").answer
    relay.Comes ⟨[123, 125, 10, 123, 125], none⟩ (Device.reliable.unflushed "closed") ["\x7b\x7d"] []
      (answer.bytes ++ [10]) (some "closed") ∧
    relay.Comes ⟨[123, 125, 10, 123, 125], some "lost"⟩ .reliable ["\x7b\x7d"] ["\x7b\x7d"] [] (some "lost") := by
  intro relay answer
  constructor
  · exact ((run_cut_by_fault relay ⟨[123, 125, 10, 123, 125], none⟩ (Device.reliable.unflushed "closed")).1
      [] "\x7b\x7d" ["\x7b\x7d"] _ _ (by rfl) trivial (.flush rfl rfl rfl)).1
  · exact ((run_cut_by_fault relay ⟨[123, 125, 10, 123, 125], some "lost"⟩ .reliable).2.1 "lost" rfl
      (Device.acceptsAll_reliable 0 _)).1

end Relay

end SearchRelay
