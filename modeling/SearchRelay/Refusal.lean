/-!
# Refusals

What makes a request, or the address of the indexer, unusable before anything
is sent. The status is the one that is reported back.
-/

namespace SearchRelay

inductive Refusal where
  | malformedRequest (detail : String)
  | invalidPath (path : List String)
  | invalidHeader (name : String)
  | unsupportedMethod (name : String)
  | invalidBaseUrl (url reason : String)
deriving DecidableEq, Repr

namespace Refusal

def status : Refusal → UInt16
  | malformedRequest _ => 400
  | invalidPath _ => 400
  | invalidHeader _ => 400
  | unsupportedMethod _ => 405
  | invalidBaseUrl _ _ => 500

/-- The path as it is shown: its segments as they were given, each after a slash. -/
def showPath (path : List String) : String := "/" ++ String.intercalate "/" path

def message : Refusal → String
  | malformedRequest detail => s!"malformed request: {detail}"
  | invalidPath path => s!"invalid path: {showPath path}"
  | invalidHeader name => s!"invalid value for header {name}"
  | unsupportedMethod name => s!"unsupported method: {name}"
  | invalidBaseUrl url reason => s!"invalid indexer url {url}: {reason}"

end Refusal

end SearchRelay
