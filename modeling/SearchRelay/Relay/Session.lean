import SearchRelay.Relay.Run

/-!
# Sessions

One relay may be used again and again: for single lines and for runs, also after
a run that ended early.
-/

namespace SearchRelay

inductive Step where
  | line (text : String)
  | run (source : Source) (device : Device)

/-- What a use of a relay gives: an answer, or the text that was written and the fault that ended the run. -/
inductive Reply where
  | line (answer : HookAnswer)
  | run (output : List Char) (fault : Option String)

structure Stepped (σ : Type) where
  reply : Reply
  relay : Relay σ
  journal : List Entry

namespace Relay

variable {σ : Type}

def step (relay : Relay σ) : Step → Stepped σ
  | .line text =>
    let handled := relay.handle text
    ⟨.line handled.answer, handled.relay, handled.events.map (Entry.mk false)⟩
  | .run source device =>
    let run := relay.run source device
    ⟨.run (Utf8.decodeLossy run.output) run.fault, run.relay, run.journal⟩

def perform (relay : Relay σ) : List Step → List (Stepped σ)
  | [] => []
  | step :: rest =>
    let stepped := relay.step step
    stepped :: stepped.relay.perform rest

def after (relay : Relay σ) (steps : List Step) : Relay σ :=
  steps.foldl (fun relay step => (relay.step step).relay) relay

end Relay

end SearchRelay
