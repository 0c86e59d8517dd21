import SearchRelay.Dict

/-!
# Routes

What stands before a request's own segments in the path of the indexer: the
command it asks for, a key for the database server that asks, or its address.
-/

namespace SearchRelay

inductive Route where
  | command
  | key (name : String)
  | address (host : String) (port : UInt16)
deriving DecidableEq, Repr

/-- The segments, not yet encoded, before those of a request with a query. A request without
parameters asks for information, one with parameters is a search. -/
def Route.leading (route : Route) (query : Dict) : List String :=
  match route with
  | .command => if query.isEmpty then ["info"] else ["search"]
  | .key name => [name]
  | .address host port => [host, toString port.toNat]

end SearchRelay
