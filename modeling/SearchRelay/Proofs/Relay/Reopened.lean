import SearchRelay.Connection
import SearchRelay.Proofs.Relay.Session

/-!
# When a connection is opened

A connection is opened for a request if none is open, and dropped when a request
fails. So all that were opened have failed but the one that is open, if there is
one, and whether there is one depends on the last exchange alone.
-/

namespace SearchRelay

variable {ν : Type}

namespace Connection

theorem opened_ensure (c : Connection ν) :
    c.ensure.1.opened = (if c.connected then c.opened else c.opened + 1) ∧ c.ensure.1.connected = true := by
  unfold ensure
  split
  · next h => exact ⟨rfl, h⟩
  · exact ⟨rfl, rfl⟩

theorem opened_execute {network : Network ν} {c next : Connection ν} {request : IndexerRequest} {outcome : Outcome}
    {notices : List Notice} (h : execute network c request = (outcome, next, notices)) :
    next.opened = (if c.connected then c.opened else c.opened + 1) ∧ next.connected = true := by
  cases h
  exact c.opened_ensure

theorem opened_reset (c : Connection ν) : c.reset.1.opened = c.opened ∧ c.reset.1.connected = false := by
  unfold reset
  split
  · exact ⟨rfl, rfl⟩
  · next h => exact ⟨rfl, Bool.not_eq_true _ ▸ h⟩

end Connection

namespace Relay

/-! ## One line -/

/-- What a line does to the connection: nothing, or one is open while its request is executed, and stays if the
exchange succeeds. -/
theorem connection_handle {relay : Relay (Connection ν)} {network : Network ν}
    (carries : relay.transport = Connection.transport network) (line : String) :
    match relay.exchange? line with
    | none => (relay.handle line).relay.state = relay.state ∧
        (relay.handle line).relay.tally.failed = relay.tally.failed
    | some exchange =>
        (relay.handle line).relay.state.opened =
          (if relay.state.connected then relay.state.opened else relay.state.opened + 1) ∧
        (relay.handle line).relay.state.connected = !isFailure exchange ∧
        (relay.handle line).relay.tally.failed = relay.tally.failed + (isFailure exchange).toNat := by
  rcases relay.handle_cases line with ⟨refusal, _, hh, hx⟩ | ⟨request, answer, state, notices, _, he, hh, hx⟩ |
    ⟨request, fault, state, notices, _, he, hh, hx⟩
  · rw [hx, hh]
    exact ⟨rfl, rfl⟩
  · have executed : Connection.execute network relay.state request = (.ok answer, state, notices) := by
      rw [carries] at he
      exact he
    rw [hx, hh, forward_of_ok he]
    exact ⟨(Connection.opened_execute executed).1, (Connection.opened_execute executed).2, rfl⟩
  · have executed : Connection.execute network relay.state request = (.error fault, state, notices) := by
      rw [carries] at he
      exact he
    rw [hx, hh, forward_of_error he, carries]
    refine ⟨?_, (Connection.opened_reset state).2, rfl⟩
    exact (Connection.opened_reset state).1.trans (Connection.opened_execute executed).1

/-! ## Lines in order -/

/-- Whether a relay has the connection that some exchanges leave. -/
structure Connected (relay : Relay (Connection ν)) (exchanges : List (IndexerRequest × Outcome)) : Prop where
  opened : relay.state.opened = relay.tally.failed + relay.state.connected.toNat
  last : relay.state.connected = exchanges.getLast?.any (!isFailure ·)

theorem connected_start (endpoint : Endpoint) (network : Network ν) (state : ν) :
    (start endpoint (Connection.transport network) (.fresh state)).Connected [] := ⟨rfl, rfl⟩

theorem connected_handle {relay : Relay (Connection ν)} {network : Network ν}
    (carries : relay.transport = Connection.transport network) {exchanges : List (IndexerRequest × Outcome)}
    (h : relay.Connected exchanges) (line : String) :
    (relay.handle line).relay.Connected (exchanges ++ (relay.exchange? line).toList) := by
  have step := connection_handle carries line
  cases hx : relay.exchange? line with
  | none =>
    simp only [hx] at step
    rw [Option.toList_none, List.append_nil]
    exact ⟨by rw [step.1, step.2, h.opened], by rw [step.1, h.last]⟩
  | some exchange =>
    simp only [hx] at step
    obtain ⟨opened, connected, failed⟩ := step
    refine ⟨?_, ?_⟩
    · -- If one was open it goes on being counted; if none was, the one that is opened now is counted.
      have before := h.opened
      rw [opened, connected, failed]
      cases isFailure exchange <;> cases hc : relay.state.connected <;> simp [hc] at before ⊢ <;> omega
    · rw [connected, Option.toList_some, List.getLast?_concat]
      rfl

theorem connected_past {relay : Relay (Connection ν)} {network : Network ν}
    (carries : relay.transport = Connection.transport network) {exchanges : List (IndexerRequest × Outcome)}
    (h : relay.Connected exchanges) (lines : List String) :
    (relay.past lines).Connected (exchanges ++ relay.exchanges lines) := by
  induction lines generalizing relay exchanges with
  | nil => simpa [Relay.exchanges] using h
  | cons line lines ih =>
    have next := ih ((kept_handle relay line).2.trans carries) (connected_handle carries h line)
    rw [List.append_assoc] at next
    exact next

theorem state_of_refused {relay : Relay (Connection ν)} {line : String} {refusal : Refusal}
    (hr : relay.endpoint.requestOfLine line = .error refusal) : (relay.handle line).relay.state = relay.state := by
  rw [handle_of_error hr]
  rfl

theorem opened_of_request {relay : Relay (Connection ν)} {network : Network ν}
    (carries : relay.transport = Connection.transport network) {exchanges : List (IndexerRequest × Outcome)}
    (h : relay.Connected exchanges) {line : String} {request : IndexerRequest}
    (hr : relay.endpoint.requestOfLine line = .ok request) : (relay.handle line).relay.state.opened =
      if exchanges.getLast?.any (!isFailure ·) then relay.state.opened else relay.state.opened + 1 := by
  have asked := relay.map_fst_exchange? line
  rw [hr] at asked
  obtain ⟨exchange, hx, -⟩ := Option.map_eq_some_iff.1 asked
  have step := connection_handle carries line
  rw [hx] at step
  rw [step.1, h.last]

theorem opened_of_no_exchange {endpoint : Endpoint} {network : Network ν} {state : ν} {lines : List String}
    (none : (start endpoint (Connection.transport network) (.fresh state)).exchanges lines = []) :
    ((start endpoint (Connection.transport network) (.fresh state)).past lines).state.opened = 0 := by
  have connected := connected_past rfl (connected_start endpoint network state) lines
  have accounts := accounts_past (accounts_start endpoint (Connection.transport network) (.fresh state)) lines
  rw [connected.opened, connected.last, accounts.failed, none]
  rfl

/-- Of the connections that a relay has opened since its start all but the open one have failed. One is open just
after an exchange that succeeded, and is opened for the first request and for the first one after a failure. -/
theorem connections_opened (endpoint : Endpoint) (network : Network ν) (state : ν) (lines : List String) :
    let relay := start endpoint (Connection.transport network) (.fresh state)
    let reached := relay.past lines
    let exchanges := relay.exchanges lines
    ((relay.recording []).past lines).calls = callsOf exchanges ∧
    reached.state.opened = (if reached.state.connected then reached.tally.failed + 1 else reached.tally.failed) ∧
    (reached.state.connected = true ↔ ∃ request answer, exchanges.getLast? = some (request, .ok answer)) ∧
    ∀ line,
      let next := (reached.handle line).relay
      match endpoint.requestOfLine line with
      | .error _ => next.state.opened = reached.state.opened ∧ next.state.connected = reached.state.connected
      | .ok _ =>
        match exchanges.getLast? with
        | none => reached.state.opened = 0 ∧ next.state.opened = 1
        | some (_, .error _) => next.state.opened = reached.state.opened + 1
        | some (_, .ok _) => next.state.opened = reached.state.opened := by
  intro relay reached exchanges
  have carries : reached.transport = Connection.transport network := (kept_past relay lines).2
  have connected : reached.Connected exchanges := connected_past rfl (connected_start endpoint network state) lines
  refine ⟨?_, ?_, ?_, fun line => ?_⟩
  · rw [past_recording, calls_recording, List.nil_append]
  · rw [connected.opened]
    cases reached.state.connected <;> rfl
  · rw [connected.last]
    rcases exchanges.getLast? with - | ⟨request, answer | fault⟩ <;> simp [isFailure]
  · have kept : reached.endpoint = endpoint := (kept_past relay lines).1
    cases hr : endpoint.requestOfLine line with
    | error refusal =>
      have same : (reached.handle line).relay.state = reached.state := state_of_refused (kept ▸ hr)
      exact ⟨congrArg Connection.opened same, congrArg Connection.connected same⟩
    | ok request =>
      have opened := opened_of_request carries connected (kept ▸ hr)
      rcases hl : exchanges.getLast? with - | ⟨_, _ | _⟩
      · have unopened : reached.state.opened = 0 := opened_of_no_exchange (List.getLast?_eq_none_iff.1 hl)
        rw [hl, unopened] at opened
        exact ⟨unopened, opened⟩
      · rw [hl] at opened
        exact opened
      · rw [hl] at opened
        exact opened

end Relay

end SearchRelay
