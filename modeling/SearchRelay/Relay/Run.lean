import SearchRelay.Relay.Basic
import SearchRelay.Relay.Journal
import SearchRelay.Relay.Stream

/-!
# Runs

A relay reads lines until the input ends. Blank lines are passed over; every
other is answered, and its answer is written and flushed before the next line is
read. Only a fault of the input or the output ends a run early, and the relay is
left as the lines handled so far have made it.
-/

namespace SearchRelay

/-- What has come of a run: the relay, the output, how many bytes of it have been flushed, the fault that ended
it, and the journal. -/
structure Run (σ : Type) where
  relay : Relay σ
  output : List UInt8
  flushed : Nat
  fault : Option String
  journal : List Entry

def HookAnswer.bytes (answer : HookAnswer) : List UInt8 := Utf8.encode answer.toText

namespace Relay

variable {σ : Type}

/-- Answers the lines of an input, when the output has taken some bytes. -/
def answerLines (device : Device) (relay : Relay σ) (taken : Nat) (source : Source) : Run σ :=
  match _h : source.read with
  | .finished => ⟨relay, [], 0, none, []⟩
  | .failed detail => ⟨relay, [], 0, some detail, []⟩
  | .line line rest =>
    match lineText? line with
    | none => relay.answerLines device taken rest
    | some text =>
      let handled := relay.handle text
      let entries := handled.events.map (Entry.mk true)
      match device.deliver taken handled.answer.bytes with
      | ⟨written, some detail⟩ => ⟨handled.relay, written, 0, some detail, entries⟩
      | ⟨written, none⟩ =>
        let run := handled.relay.answerLines device (taken + written.length) rest
        { run with
          output := written ++ run.output
          flushed := written.length + run.flushed
          journal := entries ++ run.journal }
termination_by source.bytes.length
decreasing_by all_goals exact Source.read_shorter _h

def ready (relay : Relay σ) : Entry := ⟨false, .ready relay.endpoint.baseUrl relay.endpoint.route⟩

def closed (relay : Relay σ) : Entry := ⟨false, .closed relay.tally⟩

def run (relay : Relay σ) (source : Source) (device : Device) : Run σ :=
  let answered := relay.answerLines device 0 source
  let closing := if answered.fault.isNone then [answered.relay.closed] else []
  { answered with journal := relay.ready :: answered.journal ++ closing }

end Relay

end SearchRelay
