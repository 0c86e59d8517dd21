import SearchRelay.Exchange
import SearchRelay.Text.Utf8
import SearchRelay.Uri

/-!
# Requests on the wire

A request that can be sent: its method, its target and its headers have been
checked, in this order. Header names are in small letters there.
-/

namespace SearchRelay

structure WireRequest where
  method : String
  uri : Uri
  headers : List (String × String)
  body : List UInt8
deriving DecidableEq

namespace WireRequest

inductive Fault where
  | method
  | uri (fault : Uri.Fault)
  | headerName
  | headerValue
deriving DecidableEq, Repr

def Fault.message : Fault → String
  | method => "invalid HTTP method"
  | uri fault => fault.message
  | headerName => "invalid HTTP header name"
  | headerValue => "failed to parse header value"

def isTokenChar (c : Char) : Bool :=
  Ascii.isAlphanumeric c || c == '!' || c == '#' || c == '$' || c == '%' || c == '&' || c == '\'' || c == '*' ||
    c == '+' || c == '-' || c == '.' || c == '^' || c == '_' || c == '\x60' || c == '|' || c == '~'

def isToken (text : String) : Bool := text != "" && text.toList.all isTokenChar

/-- The bytes that the value of a header is made of: tabs, and all but the controls. -/
def isValueByte (b : UInt8) : Bool := b == 9 || (0x20 ≤ b && b != 0x7F)

def checkHeader (header : String × String) : Except Fault (String × String) :=
  if !isToken header.1 then .error .headerName
  else if !(Utf8.encode header.2.toList).all isValueByte then .error .headerValue
  else .ok (String.ofList (header.1.toList.map Ascii.lower), header.2)

def build (method uri : String) (headers : List (String × String)) (body : List UInt8) :
    Except Fault WireRequest := do
  if !isToken method then .error .method
  let uri ← (Uri.parse uri.toList).mapError .uri
  return ⟨method, uri, ← headers.mapM checkHeader, body⟩

def ofIndexerRequest (request : IndexerRequest) : Except Fault WireRequest :=
  build request.method.name request.url request.headers (Utf8.encode (request.body.getD "").toList)

def header? (request : WireRequest) (name : String) : Option String := request.headers.lookup name

def visible? (value : String) : Option String :=
  if value.toList.all fun c => c == '\t' || (0x20 ≤ c.toNat && c.toNat < 0x7F) then some value else none

def visibleHeader? (request : WireRequest) (name : String) : Option String :=
  (request.header? name).bind visible?

end WireRequest

end SearchRelay
