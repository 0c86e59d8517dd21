import SearchRelay.Proofs.Relay.Run
import SearchRelay.Proofs.Request

/-!
# The accounts of a session

However a relay is used, line by line or in runs that end in any way, it stands
where handling some lines in order leads. Each of them raises one count, and the
counts agree with the calls on the transport.
-/

namespace SearchRelay

namespace Relay

variable {σ : Type}

/-! ## The lines of a session -/

/-- The requests of a run that are handled: all of them, or those up to the first delivery that fails. -/
def served (device : Device) (relay : Relay σ) (taken : Nat) : List String → List String
  | [] => []
  | line :: lines =>
    match device.deliver taken (relay.handle line).answer.bytes with
    | ⟨_, some _⟩ => [line]
    | ⟨written, none⟩ => line :: (relay.handle line).relay.served device (taken + written.length) lines

def linesOf (relay : Relay σ) : Step → List String
  | .line text => [text]
  | .run source device => relay.served device 0 (requestsOfText (Utf8.decodeLossy source.readable))

def history (relay : Relay σ) : List Step → List String
  | [] => []
  | step :: steps => relay.linesOf step ++ (relay.step step).relay.history steps

theorem relay_serve (device : Device) (ending : Option String) : ∀ (relay : Relay σ) (taken : Nat)
    (lines : List String),
    (relay.serve device ending taken lines).relay = relay.past (relay.served device taken lines)
  | relay, taken, [] => rfl
  | relay, taken, line :: lines => by
    rcases hd : device.deliver taken (relay.handle line).answer.bytes with ⟨written, fault⟩
    cases fault with
    | some detail => simp only [serve, served, hd, past_cons, past_nil]
    | none => simp only [serve, served, hd, past_cons, relay_serve]

theorem relay_step (relay : Relay σ) (step : Step) : (relay.step step).relay = relay.past (relay.linesOf step) := by
  cases step with
  | line text => rfl
  | run source device =>
    show (relay.answerLines device 0 source).relay = _
    rw [answerLines_eq_serve, relay_serve, Source.requests_eq]
    rfl

theorem after_eq_past (relay : Relay σ) (steps : List Step) :
    relay.after steps = relay.past (relay.history steps) := by
  induction steps generalizing relay with
  | nil => rfl
  | cons step steps ih =>
    rw [history, past_append, ← relay_step, ← ih]
    rfl

/-! ## Counts -/

def isFailure (exchange : IndexerRequest × Outcome) : Bool :=
  match exchange.2 with
  | .ok _ => false
  | .error _ => true

/-- Whether the counts of a relay are those of some lines and of the exchanges these have led to. -/
structure Accounts (relay : Relay σ) (lines : List String) (exchanges : List (IndexerRequest × Outcome)) : Prop where
  total : relay.tally.total = lines.length
  executed : relay.tally.forwarded + relay.tally.failed = exchanges.length
  failed : relay.tally.failed = exchanges.countP isFailure

theorem accounts_start (endpoint : Endpoint) (transport : Transport σ) (state : σ) :
    (start endpoint transport state).Accounts [] [] := ⟨rfl, rfl, rfl⟩

theorem accounts_handle {relay : Relay σ} {lines : List String} {exchanges : List (IndexerRequest × Outcome)}
    (h : relay.Accounts lines exchanges) (line : String) :
    (relay.handle line).relay.Accounts (lines ++ [line]) (exchanges ++ (relay.exchange? line).toList) := by
  obtain ⟨total, executed, failed⟩ := h
  unfold Tally.total at total
  rcases relay.handle_cases line with
    ⟨_, _, hh, hx⟩ | ⟨_, _, _, _, _, he, hh, hx⟩ | ⟨_, _, _, _, _, he, hh, hx⟩
  · rw [hh, hx]
    constructor <;> simp [refuse, Tally.total] <;> omega
  · rw [hh, hx, forward_of_ok he]
    constructor <;> simp [Tally.total, isFailure] <;> omega
  · rw [hh, hx, forward_of_error he]
    constructor <;> simp [Tally.total, isFailure] <;> omega

theorem accounts_past {relay : Relay σ} {lines : List String} {exchanges : List (IndexerRequest × Outcome)}
    (h : relay.Accounts lines exchanges) (later : List String) :
    (relay.past later).Accounts (lines ++ later) (exchanges ++ relay.exchanges later) := by
  induction later generalizing relay lines exchanges with
  | nil => simpa [Relay.exchanges] using h
  | cons line later ih =>
    have next := ih (accounts_handle h line)
    rw [List.append_assoc, List.append_assoc] at next
    exact next

theorem countP_isReset (exchanges : List (IndexerRequest × Outcome)) :
    (callsOf exchanges).countP Call.isReset = exchanges.countP isFailure := by
  induction exchanges with
  | nil => rfl
  | cons exchange exchanges ih =>
    obtain ⟨request, outcome⟩ := exchange
    rw [callsOf, List.flatMap_cons, List.countP_append, ← callsOf, ih, List.countP_cons]
    cases outcome <;> simp [Call.ofExchange, Call.isReset, isFailure, Nat.add_comm]

/-- Every reset comes directly after the execution that failed. -/
theorem failure_before_reset : ∀ {exchanges : List (IndexerRequest × Outcome)} {before later : List Call},
    callsOf exchanges = before ++ .reset :: later →
      ∃ earlier request fault, before = earlier ++ [.execute request (.error fault)]
  | [], before, later, h => by
    cases before <;> cases h
  | (request, .ok answer) :: exchanges, before, later, h => by
    cases before with
    | nil => cases h
    | cons call before =>
      obtain ⟨earlier, failed, fault, rfl⟩ := failure_before_reset (List.cons.inj h).2
      exact ⟨call :: earlier, failed, fault, rfl⟩
  | (request, .error fault) :: exchanges, before, later, h => by
    match before, h with
    | [], h => cases h
    | [call], h => exact ⟨[], request, fault, by rw [← (List.cons.inj h).1]; rfl⟩
    | call :: next :: before, h =>
      obtain ⟨earlier, failed, detail, rfl⟩ := failure_before_reset (List.cons.inj (List.cons.inj h).2).2
      exact ⟨call :: next :: earlier, failed, detail, rfl⟩

theorem handle_books (relay : Relay σ) (calls : List Call) (line : String) :
    let handled := (relay.recording calls).handle line
    match relay.endpoint.requestOfLine line with
    | .error _ =>
      handled.relay.calls = calls ∧
      handled.relay.tally = { relay.tally with rejected := relay.tally.rejected + 1 } ∧
      (handled.answer.code = 400 ∨ handled.answer.code = 405) ∧
      handled.answer.headers.map Dict.entries = some [("Content-Type", "text/plain")]
    | .ok request =>
      match (relay.transport.execute relay.state request).1 with
      | .ok answer =>
        handled.relay.calls = calls ++ [.execute request (.ok answer)] ∧
        handled.relay.tally = { relay.tally with forwarded := relay.tally.forwarded + 1 } ∧
        handled.answer.code = answer.status ∧ handled.answer.body = answer.body
      | .error fault =>
        handled.relay.calls = calls ++ [.execute request (.error fault), .reset] ∧
        handled.relay.tally = { relay.tally with failed := relay.tally.failed + 1 } ∧
        handled.answer.code = 500 ∧
        handled.answer.headers.map Dict.entries = some [("Content-Type", "text/plain")] := by
  intro handled
  have recorded : handled = _ := handle_recording relay calls line
  rcases relay.handle_cases line with ⟨refusal, hr, h, hx⟩ | ⟨request, answer, state, notices, hr, he, h, hx⟩ |
    ⟨request, fault, state, notices, hr, he, h, hx⟩
  · rw [hr, recorded, h, hx]
    refine ⟨?_, rfl, Endpoint.status_of_requestOfLine hr, rfl⟩
    exact (calls_recording _ _).trans (List.append_nil calls)
  · rw [hr, recorded, h, hx, forward_of_ok he]
    simp only [he]
    exact ⟨calls_recording _ _, rfl, rfl, rfl⟩
  · rw [hr, recorded, h, hx, forward_of_error he]
    simp only [he]
    exact ⟨calls_recording _ _, rfl, rfl, rfl⟩

/-- However a relay is used from its start on, its counts are those of the lines that have been handled and of the
calls that have been made for them. -/
theorem session_accounts (endpoint : Endpoint) (transport : Transport σ) (state : σ) (steps : List Step) :
    let relay := start endpoint transport.recorded (state, [])
    let lines := relay.history steps
    let last := relay.after steps
    last = relay.past lines ∧
    last.tally.forwarded + last.tally.rejected + last.tally.failed = lines.length ∧
    (last.calls.filterMap Call.request?).length = last.tally.forwarded + last.tally.failed ∧
    last.calls.countP Call.isReset = last.tally.failed ∧
    (∀ before later, last.calls = before ++ .reset :: later →
      ∃ earlier request fault, before = earlier ++ [.execute request (.error fault)]) ∧
    ∀ before line later, lines = before ++ line :: later →
      let reached := relay.past before
      let handled := reached.handle line
      match endpoint.requestOfLine line with
      | .error _ =>
        handled.relay.calls = reached.calls ∧
        handled.relay.tally = { reached.tally with rejected := reached.tally.rejected + 1 } ∧
        (handled.answer.code = 400 ∨ handled.answer.code = 405) ∧
        handled.answer.headers.map Dict.entries = some [("Content-Type", "text/plain")]
      | .ok request =>
        match (transport.execute reached.state.1 request).1 with
        | .ok answer =>
          handled.relay.calls = reached.calls ++ [.execute request (.ok answer)] ∧
          handled.relay.tally = { reached.tally with forwarded := reached.tally.forwarded + 1 } ∧
          handled.answer.code = answer.status ∧ handled.answer.body = answer.body
        | .error fault =>
          handled.relay.calls = reached.calls ++ [.execute request (.error fault), .reset] ∧
          handled.relay.tally = { reached.tally with failed := reached.tally.failed + 1 } ∧
          handled.answer.code = 500 ∧
          handled.answer.headers.map Dict.entries = some [("Content-Type", "text/plain")] := by
  intro relay lines last
  -- The session is that of a relay whose transport keeps nothing, with the calls of its exchanges beside it.
  let plain := start endpoint transport state
  have past_eq : ∀ lines, relay.past lines = (plain.past lines).recording (callsOf (plain.exchanges lines)) :=
    fun lines => past_recording plain [] lines
  have left : last = relay.past lines := after_eq_past relay steps
  have accounts := accounts_past (accounts_start endpoint transport state) lines
  rw [List.nil_append, List.nil_append] at accounts
  have calls : last.calls = callsOf (plain.exchanges lines) := by rw [left, past_eq, calls_recording]
  have tally : last.tally = (plain.past lines).tally := by
    rw [left, past_eq]
    rfl
  refine ⟨left, ?_, ?_, ?_, ?_, ?_⟩
  · rw [tally]
    exact accounts.total
  · rw [tally, calls, requests_callsOf, List.length_map]
    exact accounts.executed.symm
  · rw [tally, calls, countP_isReset]
    exact accounts.failed.symm
  · intro before later h
    exact failure_before_reset (calls.symm.trans h)
  · intro before line later _ reached
    have books := handle_books (plain.past before) (callsOf (plain.exchanges before)) line
    rw [(kept_past plain before).1, (kept_past plain before).2] at books
    have reached_eq : reached = _ := past_eq before
    rw [reached_eq, calls_recording]
    exact books

/-- A request that fails, then a run that is cut when its first line, which is no request, has been answered. -/
theorem session_accounts_around_cut_run :
    let endpoint : Endpoint := ⟨"http://localhost:5985", .command⟩
    let line := "\x7b\"path\":[\"db\",\"_fti\",\"_design/a\",\"b\"]\x7d"
    let relay := start endpoint Transport.scripted.recorded ([], [])
    let steps := [.line line, .run (.ofBytes [120, 10, 120]) (Device.reliable.unflushed "closed")]
    relay.history steps = [line, "x"] ∧
    (relay.after steps).tally.forwarded + (relay.after steps).tally.rejected + (relay.after steps).tally.failed = 2 ∧
    (relay.handle line).relay.calls = [.execute ⟨.get, "http://localhost:5985/info/db/_design%2Fa/b", [], none⟩
      (.error (.report "unscripted request")), .reset] ∧
    (relay.handle line).answer.code = 500 ∧
    ((relay.past [line]).handle "x").relay.calls = (relay.past [line]).calls := by
  intro endpoint line relay steps
  have history : relay.history steps = [line, "x"] := rfl
  have accepted : endpoint.requestOfLine line =
      .ok ⟨.get, "http://localhost:5985/info/db/_design%2Fa/b", [], none⟩ := by decide +kernel
  obtain ⟨refusal, refused⟩ : ∃ refusal, endpoint.requestOfLine "x" = .error refusal := ⟨_, rfl⟩
  obtain ⟨-, total, -, -, -, books⟩ := session_accounts endpoint Transport.scripted [] steps
  have first := books [] line ["x"] history
  have second := books [line] "x" [] history
  rw [accepted] at first
  rw [refused] at second
  refine ⟨history, total, first.1, first.2.2.1, second.1⟩

end Relay

end SearchRelay
