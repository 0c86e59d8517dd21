import SearchRelay.Exchange
import SearchRelay.Form
import SearchRelay.Header
import SearchRelay.HookAnswer
import SearchRelay.HookRequest
import SearchRelay.Route
import SearchRelay.Url.Parser

/-!
# Endpoints

The indexer as the relay addresses it: a base URL, to which segments are added,
and a route. From these alone follows what is sent for a request of the hook and
what is reported for an answer.
-/

namespace SearchRelay

structure Endpoint where
  baseUrl : String
  route : Route
deriving DecidableEq, Repr

namespace Endpoint

/-! ## The base URL -/

def trimSlashes (text : List Char) : List Char := (text.reverse.dropWhile (· == '/')).reverse

/-- The text of a URL without its query, its fragment and the slashes at its end. -/
def baseText (url : Url) : List Char := trimSlashes { url with query := none, fragment := none }.write

/-- The endpoint at a URL. It must be one that segments can be added to. -/
def ofUrl (url : String) (route : Route) (toAscii : Url.ToAscii := .limited) : Except Refusal Endpoint :=
  match Url.parse toAscii url.toList with
  | .error fault => .error (.invalidBaseUrl url fault.message)
  | .ok parsed =>
    if parsed.path?.isSome then .ok ⟨String.ofList (baseText parsed), route⟩
    else .error (.invalidBaseUrl url "cannot carry a path")

/-! ## Requests -/

/-- The segments of a request at the indexer, not yet encoded. The second segment of its path names the
hook and is left out. -/
def segments (endpoint : Endpoint) (query : Dict) (database design index : String) : List String :=
  endpoint.route.leading query ++ [database, design, index]

/-- What follows the base URL: each segment after a slash, then the query, if there is one. -/
def urlTail (segments : List String) (query : Dict) : List Char :=
  segments.flatMap (fun segment => '/' :: Percent.encodeSegment segment) ++
    if query.isEmpty then [] else '?' :: Form.encode query.entries

def url (endpoint : Endpoint) (segments : List String) (query : Dict) : String :=
  String.ofList (endpoint.baseUrl.toList ++ urlTail segments query)

def illegalHeader? (headers : List (String × String)) : Option String :=
  (headers.find? fun header => !Header.isValidValue header.2).map Prod.fst

def request (endpoint : Endpoint) (inbound : HookRequest) : Except Refusal IndexerRequest :=
  match inbound.path with
  | [database, _, design, index] => do
    let method ← inbound.method?
    let headers := Header.keep Header.requestNames inbound.headers.entries
    match illegalHeader? headers with
    | some name => .error (.invalidHeader name)
    | none =>
      .ok ⟨method, endpoint.url (endpoint.segments inbound.query database design index) inbound.query, headers,
        if method.hasBody then inbound.payload else none⟩
  | path => .error (.invalidPath path)

def requestOfLine (endpoint : Endpoint) (line : String) : Except Refusal IndexerRequest :=
  HookRequest.ofLine line >>= endpoint.request

/-! ## Answers -/

/-- The headers that go back: none with a status from 400 on. -/
def answerHeaders (answer : IndexerAnswer) : Option Dict :=
  if answer.status < 400 then
    match Header.keep Header.answerNames answer.headers with
    | [] => none
    | kept => some (Dict.ofList kept)
  else none

def report (answer : IndexerAnswer) : HookAnswer := ⟨answer.status, answerHeaders answer, answer.body⟩

end Endpoint

end SearchRelay
