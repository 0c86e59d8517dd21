import SearchRelay.Endpoint
import SearchRelay.Relay.Event

/-!
# Relays

A relay answers request lines one at a time. A line that cannot be made into a
request is refused without a call on the transport; any other is executed once,
and after a failure the transport is reset. Each line gets one answer and
raises one count.
-/

namespace SearchRelay

structure Relay (σ : Type) where
  endpoint : Endpoint
  transport : Transport σ
  state : σ
  tally : Tally

structure Handled (σ : Type) where
  answer : HookAnswer
  relay : Relay σ
  events : List Event

namespace Relay

variable {σ : Type}

def start (endpoint : Endpoint) (transport : Transport σ) (state : σ) : Relay σ :=
  ⟨endpoint, transport, state, .zero⟩

def refuse (relay : Relay σ) (refusal : Refusal) : Handled σ :=
  let tally := { relay.tally with rejected := relay.tally.rejected + 1 }
  ⟨.ofRefusal refusal, { relay with tally }, [.rejected refusal]⟩

def forward (relay : Relay σ) (request : IndexerRequest) : Handled σ :=
  let opening := Event.forwarding request.method request.url
  match relay.transport.execute relay.state request with
  | (.ok answer, state, notices) =>
    let tally := { relay.tally with forwarded := relay.tally.forwarded + 1 }
    let report := Endpoint.report answer
    ⟨report, { relay with state, tally },
      opening :: notices.map .notice ++ [.relayed report.code request.url]⟩
  | (.error fault, state, notices) =>
    let (state, more) := relay.transport.reset state
    let tally := { relay.tally with failed := relay.tally.failed + 1 }
    ⟨.unreachable relay.endpoint.baseUrl fault.message, { relay with state, tally },
      opening :: notices.map .notice ++ .failed fault request.url :: more.map .notice⟩

def handle (relay : Relay σ) (line : String) : Handled σ :=
  match relay.endpoint.requestOfLine line with
  | .ok request => relay.forward request
  | .error refusal => relay.refuse refusal

def handleAll (relay : Relay σ) : List String → List HookAnswer × Relay σ × List Event
  | [] => ([], relay, [])
  | line :: rest =>
    let handled := relay.handle line
    let (answers, last, events) := handled.relay.handleAll rest
    (handled.answer :: answers, last, handled.events ++ events)

end Relay

end SearchRelay
