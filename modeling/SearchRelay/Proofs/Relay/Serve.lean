import SearchRelay.Proofs.Answer
import SearchRelay.Proofs.Relay.Lines
import SearchRelay.Relay.Run

/-!
# Runs over requests

A run is first cut loose from the input: it is one recursion over the requests
that are read. What the output takes then splits it: as long as deliveries
succeed a run does what handling the requests does, and a delivery that fails is
its last step.
-/

namespace SearchRelay

/-! ## Handling requests in order -/

namespace Relay

variable {σ : Type}

def answersTo (relay : Relay σ) (texts : List String) : List HookAnswer := (relay.handleAll texts).1

def past (relay : Relay σ) (texts : List String) : Relay σ := (relay.handleAll texts).2.1

def entriesOf (relay : Relay σ) (texts : List String) : List Entry := (relay.handleAll texts).2.2.map (Entry.mk true)

@[simp] theorem answersTo_nil (relay : Relay σ) : relay.answersTo [] = [] := rfl

@[simp] theorem past_nil (relay : Relay σ) : relay.past [] = relay := rfl

@[simp] theorem entriesOf_nil (relay : Relay σ) : relay.entriesOf [] = [] := rfl

theorem answersTo_cons (relay : Relay σ) (text : String) (texts : List String) :
    relay.answersTo (text :: texts) = (relay.handle text).answer :: (relay.handle text).relay.answersTo texts := rfl

theorem past_cons (relay : Relay σ) (text : String) (texts : List String) :
    relay.past (text :: texts) = (relay.handle text).relay.past texts := rfl

theorem entriesOf_cons (relay : Relay σ) (text : String) (texts : List String) :
    relay.entriesOf (text :: texts) =
      (relay.handle text).events.map (Entry.mk true) ++ (relay.handle text).relay.entriesOf texts :=
  List.map_append

theorem past_append (relay : Relay σ) (a b : List String) : relay.past (a ++ b) = (relay.past a).past b := by
  induction a generalizing relay with
  | nil => rfl
  | cons text a ih => rw [List.cons_append, past_cons, past_cons, ih]

theorem answersTo_append (relay : Relay σ) (a b : List String) :
    relay.answersTo (a ++ b) = relay.answersTo a ++ (relay.past a).answersTo b := by
  induction a generalizing relay with
  | nil => rfl
  | cons text a ih => rw [List.cons_append, answersTo_cons, answersTo_cons, past_cons, ih, List.cons_append]

theorem length_answersTo (relay : Relay σ) (texts : List String) : (relay.answersTo texts).length = texts.length := by
  induction texts generalizing relay with
  | nil => rfl
  | cons text texts ih => rw [answersTo_cons, List.length_cons, ih, List.length_cons]

end Relay

/-! ## Deliveries -/

def HookAnswer.render (answers : List HookAnswer) : List UInt8 := answers.flatMap fun answer => answer.bytes ++ [10]

theorem HookAnswer.render_cons (answer : HookAnswer) (answers : List HookAnswer) :
    render (answer :: answers) = (answer.bytes ++ [10]) ++ render answers := List.flatMap_cons

theorem HookAnswer.render_append (a b : List HookAnswer) : render (a ++ b) = render a ++ render b :=
  List.flatMap_append

namespace Device

variable {device : Device} {taken : Nat} {line : List UInt8}

/-- Whether a line goes out whole, with its line feed, and is flushed. -/
structure Accepts (device : Device) (taken : Nat) (line : List UInt8) : Prop where
  content : device.writeFault taken line = none
  feed : device.writeFault (taken + line.length) [10] = none
  flush : device.flushFault (taken + line.length + 1) = none

/-- The three places where the delivery of a line can fail, with what has been written by then. -/
inductive Breaks (device : Device) (taken : Nat) (line : List UInt8) : List UInt8 → String → Prop where
  | content {count : Nat} {detail : String} : device.writeFault taken line = some (count, detail) →
      Breaks device taken line (line.take count) detail
  | feed {count : Nat} {detail : String} : device.writeFault taken line = none →
      device.writeFault (taken + line.length) [10] = some (count, detail) →
      Breaks device taken line (line ++ [10].take count) detail
  | flush {detail : String} : device.writeFault taken line = none →
      device.writeFault (taken + line.length) [10] = none →
      device.flushFault (taken + line.length + 1) = some detail → Breaks device taken line (line ++ [10]) detail

theorem write_of_none {bytes : List UInt8} (h : device.writeFault taken bytes = none) :
    device.write taken bytes = ⟨bytes, none⟩ := by
  simp only [write, h]

theorem write_of_some {bytes : List UInt8} {count : Nat} {detail : String}
    (h : device.writeFault taken bytes = some (count, detail)) :
    device.write taken bytes = ⟨bytes.take count, some detail⟩ := by
  simp only [write, h]

theorem deliver_of_accepts (h : device.Accepts taken line) : device.deliver taken line = ⟨line ++ [10], none⟩ := by
  simp only [deliver, write_of_none h.content, write_of_none h.feed, h.flush]

theorem deliver_of_breaks {written : List UInt8} {detail : String} (h : device.Breaks taken line written detail) :
    device.deliver taken line = ⟨written, some detail⟩ := by
  cases h with
  | content hl => simp only [deliver, write_of_some hl]
  | feed hl hf => simp only [deliver, write_of_none hl, write_of_some hf]
  | flush hl hf hd => simp only [deliver, write_of_none hl, write_of_none hf, hd]

theorem accepts_or_breaks (device : Device) (taken : Nat) (line : List UInt8) :
    device.Accepts taken line ∨ ∃ written detail, device.Breaks taken line written detail := by
  cases hl : device.writeFault taken line with
  | some fault => exact .inr ⟨_, _, .content hl⟩
  | none =>
    cases hf : device.writeFault (taken + line.length) [10] with
    | some fault => exact .inr ⟨_, _, .feed hl hf⟩
    | none =>
      cases hd : device.flushFault (taken + line.length + 1) with
      | some detail => exact .inr ⟨_, _, .flush hl hf hd⟩
      | none => exact .inl ⟨hl, hf, hd⟩

theorem prefix_of_breaks {written : List UInt8} {detail : String} (h : device.Breaks taken line written detail) :
    written <+: line ++ [10] := by
  cases h with
  | content => exact (List.take_prefix _ _).trans (List.prefix_append _ _)
  | feed => exact (List.prefix_append_right_inj _).2 (List.take_prefix _ _)
  | flush => exact List.prefix_rfl

def AcceptsAll (device : Device) : Nat → List HookAnswer → Prop
  | _, [] => True
  | taken, answer :: answers =>
    device.Accepts taken answer.bytes ∧ device.AcceptsAll (taken + (answer.bytes ++ [10]).length) answers

theorem acceptsAll_reliable : ∀ (taken : Nat) (answers : List HookAnswer), reliable.AcceptsAll taken answers
  | _, [] => trivial
  | taken, answer :: answers =>
    ⟨⟨rfl, rfl, rfl⟩, acceptsAll_reliable (taken + (answer.bytes ++ [10]).length) answers⟩

end Device

/-! ## A run without its input -/

namespace Relay

variable {σ : Type}

/-- A run over requests that have been read; `ending` is what reading on fails with, if it does. -/
def serve (device : Device) (ending : Option String) (relay : Relay σ) (taken : Nat) : List String → Run σ
  | [] => ⟨relay, [], 0, ending, []⟩
  | text :: texts =>
    let handled := relay.handle text
    let entries := handled.events.map (Entry.mk true)
    match device.deliver taken handled.answer.bytes with
    | ⟨written, some detail⟩ => ⟨handled.relay, written, 0, some detail, entries⟩
    | ⟨written, none⟩ =>
      let run := handled.relay.serve device ending (taken + written.length) texts
      { run with
        output := written ++ run.output
        flushed := written.length + run.flushed
        journal := entries ++ run.journal }

theorem answerLines_eq_serve (device : Device) (relay : Relay σ) (taken : Nat) (source : Source) :
    relay.answerLines device taken source = relay.serve device source.fault taken source.requests := by
  fun_induction answerLines device relay taken source with
  | case1 relay taken source h =>
    rw [Source.requests_of_finished h, Source.fault_of_finished h]
    rfl
  | case2 relay taken source detail h =>
    rw [Source.requests_of_failed h, Source.fault_of_failed h]
    rfl
  | case3 relay taken source line rest h blank ih =>
    rw [Source.requests_of_line h, blank, ih, Source.fault_of_line h]
    rfl
  | case4 relay taken source line rest h text ht handled entries written detail hd =>
    rw [Source.requests_of_line h, ht, Option.toList_some, List.singleton_append, serve]
    simp only [handled] at hd
    rw [hd]
  | case5 relay taken source line rest h text ht handled entries written hd run ih =>
    rw [Source.requests_of_line h, ht, Option.toList_some, List.singleton_append, serve, ← Source.fault_of_line h]
    simp only [handled] at hd
    simp only [hd, run, ih]
    rfl

/-! ## How a run goes -/

theorem serve_nil (device : Device) (ending : Option String) (relay : Relay σ) (taken : Nat) :
    relay.serve device ending taken [] = ⟨relay, [], 0, ending, []⟩ := rfl

theorem serve_append {device : Device} (ending : Option String) (later : List String) :
    ∀ {before : List String} {relay : Relay σ} {taken : Nat}, device.AcceptsAll taken (relay.answersTo before) →
      relay.serve device ending taken (before ++ later) =
        let run := (relay.past before).serve device ending
          (taken + (HookAnswer.render (relay.answersTo before)).length) later
        { run with
          output := HookAnswer.render (relay.answersTo before) ++ run.output
          flushed := (HookAnswer.render (relay.answersTo before)).length + run.flushed
          journal := relay.entriesOf before ++ run.journal }
  | [], relay, taken, _ => by
    simp [HookAnswer.render]
  | text :: before, relay, taken, h => by
    rw [answersTo_cons] at h ⊢
    obtain ⟨first, rest⟩ := h
    rw [List.cons_append, serve]
    simp only [Device.deliver_of_accepts first]
    rw [serve_append ending later rest]
    simp only [past_cons, entriesOf_cons, HookAnswer.render_cons, List.length_append, List.append_assoc, Nat.add_assoc]

theorem serve_breaks {device : Device} {ending : Option String} {relay : Relay σ} {taken : Nat} {text detail : String}
    {written : List UInt8} (later : List String)
    (h : device.Breaks taken (relay.handle text).answer.bytes written detail) :
    relay.serve device ending taken (text :: later) =
      ⟨(relay.handle text).relay, written, 0, some detail, (relay.handle text).events.map (Entry.mk true)⟩ := by
  simp only [serve, Device.deliver_of_breaks h]

end Relay

end SearchRelay
