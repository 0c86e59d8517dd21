import SearchRelay.Exchange

/-!
# Transports

What carries a request to the indexer, as a machine with a state of its own. An
execution gives an answer or says what went wrong; after a failure the relay
resets the transport. A recorded transport also keeps the calls made on it.
-/

namespace SearchRelay

inductive Stage where
  | called
  | prepared
  | connecting
deriving DecidableEq, Repr

namespace Stage

def all : List Stage := [called, prepared, connecting]

def shown : Stage → String
  | called => "call"
  | prepared => "prepare"
  | connecting => "connect"

end Stage

inductive Notice where
  | opened (count : Nat)
  | sending (stage : Stage) (method : Method) (url : String)
  | dropped
deriving DecidableEq, Repr

structure Transport (σ : Type) where
  execute : σ → IndexerRequest → Outcome × σ × List Notice
  reset : σ → σ × List Notice

/-- A call on a transport, and what came of it. -/
inductive Call where
  | execute (request : IndexerRequest) (outcome : Outcome)
  | reset
deriving Repr

namespace Call

def request? : Call → Option IndexerRequest
  | execute request _ => some request
  | reset => none

def isReset : Call → Bool
  | execute _ _ => false
  | reset => true

end Call

namespace Transport

/-- The transport that keeps its calls, the last one first, beside its state. -/
def recorded {σ : Type} (transport : Transport σ) : Transport (σ × List Call) where
  execute state request :=
    let (outcome, next, notices) := transport.execute state.1 request
    (outcome, (next, .execute request outcome :: state.2), notices)
  reset state :=
    let (next, notices) := transport.reset state.1
    ((next, .reset :: state.2), notices)

/-- The transport that answers from a list of outcomes, and fails when none is left. -/
def scripted : Transport (List Outcome) where
  execute outcomes _ :=
    match outcomes with
    | [] => (.error (.report "unscripted request"), [], [])
    | outcome :: rest => (outcome, rest, [])
  reset outcomes := (outcomes, [])

/-- The transport without a state whose outcome depends on the request alone. -/
def ofFunction (outcome : IndexerRequest → Outcome) : Transport Unit where
  execute _ request := (outcome request, (), [])
  reset _ := ((), [])

end Transport

end SearchRelay
