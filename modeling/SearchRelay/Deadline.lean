import SearchRelay.Connection
import SearchRelay.Relay.Run

/-!
# Deadlines

An exchange with a time limit has to end by a second of the clock. If the clock
ends before that second, the program breaks off as soon as a request is to be
sent: the lines before that one have been answered, and this one never is.
-/

namespace SearchRelay

namespace Deadline

def lastSecond : Nat := 9223372036854775807

/-- Whether an exchange that begins at some second can have a deadline, if it needs one. -/
def isPossible (now : Nat) (timeout : Option Nat) : Bool := timeout.all fun seconds => now + seconds ≤ lastSecond

end Deadline

namespace Relay

variable {ν : Type}

def sent? (endpoint : Endpoint) (line : List UInt8) : Option IndexerRequest :=
  (lineText? line).bind fun text => (endpoint.requestOfLine text).toOption.filter Connection.canSend

/-- The lines before the first one for which a request is sent, and this request. -/
def linesBeforeSending (endpoint : Endpoint) (source : Source) : List (List UInt8) × Option IndexerRequest :=
  match _h : source.read with
  | .line line rest =>
    match sent? endpoint line with
    | some request => ([], some request)
    | none =>
      let (before, request) := linesBeforeSending endpoint rest
      (line :: before, request)
  | _ => ([], none)
termination_by source.bytes.length
decreasing_by exact Source.read_shorter _h

def entriesBeforeSending (relay : Relay (Connection ν)) (request : IndexerRequest) : List Entry :=
  (.forwarding request.method request.url :: relay.state.ensure.2.map .notice).map (Entry.mk true)

/-- Relays until a request is to be sent: what has come of it, and whether that is why it ended. -/
def runUntilSending (relay : Relay (Connection ν)) (source : Source) (device : Device) :
    Run (Connection ν) × Bool :=
  match linesBeforeSending relay.endpoint source with
  | (_, none) => (relay.run source device, false)
  | (before, some request) =>
    let run := relay.answerLines device 0 (.ofBytes before.flatten)
    ({ run with journal := relay.ready :: run.journal ++ run.relay.entriesBeforeSending request }, run.fault.isNone)

end Relay

end SearchRelay
