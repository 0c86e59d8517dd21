import SearchRelay.Refusal
import SearchRelay.Route
import SearchRelay.Text.Quoted
import SearchRelay.Transport

/-!
# Events

What the relay reports about its work, beside the answers it writes: a level,
the part that speaks, a message and fields.
-/

namespace SearchRelay

/-- How many lines have come to which end. The counts are those of 64 bits, taken to stay below `2 ^ 64`. -/
structure Tally where
  forwarded : Nat
  rejected : Nat
  failed : Nat
deriving DecidableEq, Repr

def Tally.zero : Tally := ⟨0, 0, 0⟩

def Tally.total (t : Tally) : Nat := t.forwarded + t.rejected + t.failed

inductive Event where
  | starting (baseUrl : String) (route : Route) (timeout : Option Nat)
  | ready (baseUrl : String) (route : Route)
  | forwarding (method : Method) (url : String)
  | relayed (code : UInt16) (url : String)
  | rejected (refusal : Refusal)
  | failed (fault : ExchangeFault) (url : String)
  | notice (notice : Notice)
  | closed (tally : Tally)
deriving DecidableEq, Repr

inductive Level where
  | error
  | warn
  | info
  | debug
  | trace
deriving DecidableEq, Repr

namespace Level

def name : Level → String
  | error => "ERROR"
  | warn => "WARN"
  | info => "INFO"
  | debug => "DEBUG"
  | trace => "TRACE"

def rank : Level → Nat
  | error => 1
  | warn => 2
  | info => 3
  | debug => 4
  | trace => 5

end Level

def Route.shown : Route → String
  | .command => "Command"
  | .key name => s!"Key({Quoted.quote name})"
  | .address host port => s!"Local \x7b host: {Quoted.quote host}, port: {port.toNat} \x7d"

def Tally.shown (t : Tally) : String :=
  s!"RelayStats \x7b forwarded: {t.forwarded}, rejected: {t.rejected}, failed: {t.failed} \x7d"

namespace Event

def level : Event → Level
  | starting _ _ _ => .info
  | ready _ _ => .info
  | forwarding _ _ => .debug
  | relayed _ _ => .info
  | rejected _ => .warn
  | failed _ _ => .error
  | notice _ => .debug
  | closed _ => .info

def target : Event → String
  | starting _ _ _ => "couchdb_fti_hook"
  | notice (.sending _ _ _) => "ureq::run"
  | notice _ => "fti_hook::upstream"
  | _ => "fti_hook::relay"

def message : Event → String
  | starting _ _ _ => "couchdb-fti-hook v0.1.0 starting"
  | ready _ _ => "relay ready"
  | forwarding _ _ => "forwarding to search indexer"
  | relayed _ _ => "relayed"
  | rejected _ => "rejected request"
  | failed _ _ => "search indexer request failed; recreating connection"
  | notice (.opened _) => "opening connection to search indexer"
  | notice (.sending stage method url) => s!"{stage.shown} {method.name} {url}"
  | notice .dropped => "dropped connection to search indexer"
  | closed _ => "stdin closed, relay shutting down"

/-- The fields of an event in order. A field may have no value. -/
def fields : Event → List (String × Option String)
  | starting baseUrl route timeout =>
    [("base_url", some baseUrl), ("route", some route.shown), ("timeout_secs", timeout.map toString)]
  | ready baseUrl route => [("indexer", some (Quoted.quote baseUrl)), ("route", some route.shown)]
  | forwarding method url => [("method", some method.name), ("url", some url)]
  | relayed code url => [("code", some (toString code.toNat)), ("url", some url)]
  | rejected refusal => [("err", some refusal.message)]
  | failed fault url => [("err", some fault.message), ("url", some (Quoted.quote url))]
  | notice (.opened count) => [("opened", some (toString count))]
  | notice (.sending _ _ _) =>
    [("log.target", none), ("log.module_path", none), ("log.file", none), ("log.line", none)]
  | notice .dropped => []
  | closed tally => [("stats", some tally.shown)]

end Event

end SearchRelay
