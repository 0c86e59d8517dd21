import SearchRelay.Method

/-!
# Exchanges with the indexer

One request goes out and one answer comes back, unless the exchange fails: in
the operating system, at the connection, or because the request is not one that
can be sent.
-/

namespace SearchRelay

structure IndexerRequest where
  method : Method
  url : String
  headers : List (String × String)
  body : Option String
deriving DecidableEq, Repr

structure IndexerAnswer where
  status : UInt16
  headers : List (String × String)
  body : String
deriving DecidableEq, Repr

/-! ## Faults -/

inductive IoKind where
  | connectionRefused
  | connectionReset
  | connectionAborted
  | notConnected
  | brokenPipe
  | timedOut
  | unexpectedEnd
  | invalidData
  | permissionDenied
  | other
deriving DecidableEq, Repr

def IoKind.message : IoKind → String
  | connectionRefused => "connection refused"
  | connectionReset => "connection reset"
  | connectionAborted => "connection aborted"
  | notConnected => "not connected"
  | brokenPipe => "broken pipe"
  | timedOut => "timed out"
  | unexpectedEnd => "unexpected end of file"
  | invalidData => "invalid data"
  | permissionDenied => "permission denied"
  | other => "other error"

inductive ExchangeFault where
  | io (kind : IoKind)
  | report (text : String)
  | hostNotFound
  | connectionFailed
  | tooManyRedirects
  | redirectFailed
  | badUri (detail : String)
  | badRequest (detail : String)
  | noNetwork
deriving DecidableEq, Repr

def ExchangeFault.message : ExchangeFault → String
  | io kind => kind.message
  | report text => text
  | hostNotFound => "host not found"
  | connectionFailed => "connection failed"
  | tooManyRedirects => "too many redirects"
  | redirectFailed => "redirect failed"
  | badUri detail => s!"bad uri: {detail}"
  | badRequest detail => s!"http: {detail}"
  | noNetwork => "io: Network is unreachable (os error 101)"

abbrev Outcome := Except ExchangeFault IndexerAnswer

end SearchRelay
