import SearchRelay.Transport
import SearchRelay.Wire

/-!
# Connections

The connection to the indexer is opened for the first exchange and for the first
one after each reset, before anything about the request is checked. A request
that can be sent is reported at each stage.
-/

namespace SearchRelay

abbrev Network (ν : Type) := ν → IndexerRequest → Outcome × ν

/-- A connection and how often one was opened, a count of 64 bits that is taken to stay below `2 ^ 64`. -/
structure Connection (ν : Type) where
  opened : Nat
  connected : Bool
  network : ν
deriving Repr

namespace Connection

variable {ν : Type}

def fresh (network : ν) : Connection ν := ⟨0, false, network⟩

def ensure (c : Connection ν) : Connection ν × List Notice :=
  if c.connected then (c, []) else ({ c with opened := c.opened + 1, connected := true }, [.opened (c.opened + 1)])

def canSend (request : IndexerRequest) : Bool := (WireRequest.ofIndexerRequest request).isOk

def sendingNotices (request : IndexerRequest) : List Notice :=
  if canSend request then Stage.all.map fun stage => .sending stage request.method request.url else []

def execute (network : Network ν) (c : Connection ν) (request : IndexerRequest) :
    Outcome × Connection ν × List Notice :=
  let (c, notices) := c.ensure
  let (outcome, state) := network c.network request
  (outcome, { c with network := state }, notices ++ sendingNotices request)

def reset (c : Connection ν) : Connection ν × List Notice :=
  if c.connected then ({ c with connected := false }, [.dropped]) else (c, [])

def transport (network : Network ν) : Transport (Connection ν) := ⟨execute network, reset⟩

/-! ## Without a network -/

/-- Why a request fails where no host can be reached: it cannot be sent, or names no scheme of the web, or
the network is missing. -/
def offlineFault (request : IndexerRequest) : ExchangeFault :=
  match WireRequest.ofIndexerRequest request with
  | .error fault => .badRequest fault.message
  | .ok wire =>
    match wire.uri.scheme with
    | none => .badUri s!"{String.ofList wire.uri.write} is missing scheme"
    | some scheme =>
      if scheme = "http".toList || scheme = "https".toList then .noNetwork
      else .badUri s!"unknown scheme: {String.ofList scheme}"

def offline : Network Unit := fun _ request => (.error (offlineFault request), ())

end Connection

end SearchRelay
