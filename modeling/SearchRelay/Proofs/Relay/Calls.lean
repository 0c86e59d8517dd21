import SearchRelay.Proofs.Relay.Serve

/-!
# Calls on the transport

Handling a line does one of three things: it refuses the line, forwards the
request, or fails and resets the transport. A relay whose transport keeps its
calls does the same as one whose transport does not, and the calls are those of
the exchanges in order.
-/

namespace SearchRelay

/-- The calls of an exchange: an execution and, directly after one that failed, a reset. -/
def Call.ofExchange (request : IndexerRequest) : Outcome → List Call
  | .ok answer => [.execute request (.ok answer)]
  | .error fault => [.execute request (.error fault), .reset]

namespace Relay

variable {σ : Type}

/-! ## One line -/

def exchange? (relay : Relay σ) (line : String) : Option (IndexerRequest × Outcome) :=
  match relay.endpoint.requestOfLine line with
  | .ok request => some (request, (relay.transport.execute relay.state request).1)
  | .error _ => none

theorem handle_of_error {relay : Relay σ} {line : String} {refusal : Refusal}
    (h : relay.endpoint.requestOfLine line = .error refusal) : relay.handle line = relay.refuse refusal := by
  simp only [handle, h]

theorem handle_of_ok {relay : Relay σ} {line : String} {request : IndexerRequest}
    (h : relay.endpoint.requestOfLine line = .ok request) : relay.handle line = relay.forward request := by
  simp only [handle, h]

theorem forward_of_ok {relay : Relay σ} {request : IndexerRequest} {answer : IndexerAnswer} {state : σ}
    {notices : List Notice} (h : relay.transport.execute relay.state request = (.ok answer, state, notices)) :
    relay.forward request =
      ⟨Endpoint.report answer,
        { relay with state, tally := { relay.tally with forwarded := relay.tally.forwarded + 1 } },
        .forwarding request.method request.url :: notices.map .notice ++
          [.relayed (Endpoint.report answer).code request.url]⟩ := by
  simp only [forward, h]

theorem forward_of_error {relay : Relay σ} {request : IndexerRequest} {fault : ExchangeFault} {state : σ}
    {notices : List Notice} (h : relay.transport.execute relay.state request = (.error fault, state, notices)) :
    relay.forward request =
      ⟨.unreachable relay.endpoint.baseUrl fault.message,
        { relay with
          state := (relay.transport.reset state).1
          tally := { relay.tally with failed := relay.tally.failed + 1 } },
        .forwarding request.method request.url :: notices.map .notice ++
          .failed fault request.url :: (relay.transport.reset state).2.map .notice⟩ := by
  simp only [forward, h]

theorem handle_cases (relay : Relay σ) (line : String) :
    (∃ refusal, relay.endpoint.requestOfLine line = .error refusal ∧ relay.handle line = relay.refuse refusal ∧
      relay.exchange? line = none) ∨
    (∃ request answer state notices, relay.endpoint.requestOfLine line = .ok request ∧
      relay.transport.execute relay.state request = (.ok answer, state, notices) ∧
      relay.handle line = relay.forward request ∧ relay.exchange? line = some (request, .ok answer)) ∨
    (∃ request fault state notices, relay.endpoint.requestOfLine line = .ok request ∧
      relay.transport.execute relay.state request = (.error fault, state, notices) ∧
      relay.handle line = relay.forward request ∧ relay.exchange? line = some (request, .error fault)) := by
  cases h : relay.endpoint.requestOfLine line with
  | error refusal => exact .inl ⟨refusal, rfl, handle_of_error h, by simp only [exchange?, h]⟩
  | ok request =>
    rcases he : relay.transport.execute relay.state request with ⟨outcome, state, notices⟩
    have exchange : relay.exchange? line = some (request, outcome) := by simp only [exchange?, h, he]
    cases outcome with
    | ok answer => exact .inr (.inl ⟨request, answer, state, notices, rfl, he, handle_of_ok h, exchange⟩)
    | error fault => exact .inr (.inr ⟨request, fault, state, notices, rfl, he, handle_of_ok h, exchange⟩)

theorem kept_handle (relay : Relay σ) (line : String) :
    (relay.handle line).relay.endpoint = relay.endpoint ∧ (relay.handle line).relay.transport = relay.transport := by
  rcases relay.handle_cases line with ⟨_, _, h, _⟩ | ⟨_, _, _, _, _, he, h, _⟩ | ⟨_, _, _, _, _, he, h, _⟩
  · rw [h]
    exact ⟨rfl, rfl⟩
  · rw [h, forward_of_ok he]
    exact ⟨rfl, rfl⟩
  · rw [h, forward_of_error he]
    exact ⟨rfl, rfl⟩

/-! ## Lines in order -/

def exchanges (relay : Relay σ) : List String → List (IndexerRequest × Outcome)
  | [] => []
  | line :: lines => (relay.exchange? line).toList ++ (relay.handle line).relay.exchanges lines

theorem kept_past (relay : Relay σ) (lines : List String) :
    (relay.past lines).endpoint = relay.endpoint ∧ (relay.past lines).transport = relay.transport := by
  induction lines generalizing relay with
  | nil => exact ⟨rfl, rfl⟩
  | cons line lines ih =>
    rw [past_cons, (ih _).1, (ih _).2]
    exact relay.kept_handle line

theorem map_fst_exchange? (relay : Relay σ) (line : String) :
    (relay.exchange? line).map Prod.fst = (relay.endpoint.requestOfLine line).toOption := by
  rcases relay.handle_cases line with ⟨_, h, _, hx⟩ | ⟨_, _, _, _, h, _, _, hx⟩ | ⟨_, _, _, _, h, _, _, hx⟩
  all_goals rw [hx, h]; rfl

theorem map_fst_exchanges (relay : Relay σ) (lines : List String) :
    (relay.exchanges lines).map Prod.fst = lines.filterMap fun line =>
      (relay.endpoint.requestOfLine line).toOption := by
  induction lines generalizing relay with
  | nil => rfl
  | cons line lines ih =>
    rw [exchanges, List.map_append, ih, (kept_handle relay line).1, ← Option.toList_map, map_fst_exchange?,
      List.filterMap_cons]
    cases (relay.endpoint.requestOfLine line).toOption <;> rfl

/-! ## Recorded transports -/

/-- The relay with a transport that keeps its calls, some of which have been made. -/
def recording (relay : Relay σ) (calls : List Call) : Relay (σ × List Call) :=
  { relay with transport := relay.transport.recorded, state := (relay.state, calls.reverse) }

def calls (relay : Relay (σ × List Call)) : List Call := relay.state.2.reverse

@[simp] theorem calls_recording (relay : Relay σ) (calls : List Call) : (relay.recording calls).calls = calls :=
  List.reverse_reverse calls

def callsOf (exchanges : List (IndexerRequest × Outcome)) : List Call :=
  exchanges.flatMap fun (request, outcome) => Call.ofExchange request outcome

theorem callsOf_append (a b : List (IndexerRequest × Outcome)) : callsOf (a ++ b) = callsOf a ++ callsOf b :=
  List.flatMap_append

theorem execute_recorded {transport : Transport σ} {state next : σ} {request : IndexerRequest} {outcome : Outcome}
    {notices : List Notice} (h : transport.execute state request = (outcome, next, notices)) (calls : List Call) :
    transport.recorded.execute (state, calls) request =
      (outcome, (next, .execute request outcome :: calls), notices) := by
  simp only [Transport.recorded, h]

theorem handle_recording (relay : Relay σ) (calls : List Call) (line : String) :
    (relay.recording calls).handle line =
      ⟨(relay.handle line).answer,
        (relay.handle line).relay.recording (calls ++ callsOf (relay.exchange? line).toList),
        (relay.handle line).events⟩ := by
  rcases relay.handle_cases line with ⟨refusal, hr, h, hx⟩ | ⟨request, answer, state, notices, hr, he, h, hx⟩ |
    ⟨request, fault, state, notices, hr, he, h, hx⟩
  · have refused : (relay.recording calls).handle line = _ := handle_of_error hr
    rw [refused, h, hx]
    simp [refuse, recording, callsOf]
  · have forwarded : (relay.recording calls).handle line = (relay.recording calls).forward request := handle_of_ok hr
    have executed : (relay.recording calls).transport.execute (relay.recording calls).state request = _ :=
      execute_recorded he calls.reverse
    rw [forwarded, h, hx, forward_of_ok he, forward_of_ok executed]
    simp [recording, callsOf, Call.ofExchange]
  · have forwarded : (relay.recording calls).handle line = (relay.recording calls).forward request := handle_of_ok hr
    have executed : (relay.recording calls).transport.execute (relay.recording calls).state request = _ :=
      execute_recorded he calls.reverse
    rw [forwarded, h, hx, forward_of_error he, forward_of_error executed]
    simp [recording, callsOf, Call.ofExchange, Transport.recorded]

theorem answersTo_recording (relay : Relay σ) (calls : List Call) (lines : List String) :
    (relay.recording calls).answersTo lines = relay.answersTo lines := by
  induction lines generalizing relay calls with
  | nil => rfl
  | cons line lines ih => rw [answersTo_cons, answersTo_cons, handle_recording, ih]

theorem past_recording (relay : Relay σ) (calls : List Call) (lines : List String) :
    (relay.recording calls).past lines = (relay.past lines).recording (calls ++ callsOf (relay.exchanges lines)) := by
  induction lines generalizing relay calls with
  | nil => rw [past_nil, exchanges, callsOf, List.flatMap_nil, List.append_nil, past_nil]
  | cons line lines ih =>
    rw [past_cons, past_cons, handle_recording, ih, exchanges, callsOf_append, List.append_assoc]

theorem requests_callsOf (exchanges : List (IndexerRequest × Outcome)) :
    (callsOf exchanges).filterMap Call.request? = exchanges.map Prod.fst := by
  induction exchanges with
  | nil => rfl
  | cons exchange exchanges ih =>
    obtain ⟨request, outcome⟩ := exchange
    rw [callsOf, List.flatMap_cons, List.filterMap_append, ← callsOf, ih]
    cases outcome <;> rfl

end Relay

end SearchRelay
