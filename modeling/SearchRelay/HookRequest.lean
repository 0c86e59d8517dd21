import SearchRelay.Json.Record
import SearchRelay.Json.Writer
import SearchRelay.Method
import SearchRelay.Refusal

/-!
# Requests of the hook

The database server writes one request on a line, as JSON. What the relay does
not use is passed over. Older servers name the method `verb`, newer ones
`method`, and a request without a body says `undefined`.
-/

namespace SearchRelay

structure HookRequest where
  path : List String
  query : Dict
  headers : Dict
  method : Option String
  verb : Option String
  body : Option String
deriving DecidableEq

namespace HookRequest

structure Draft where
  path : Option (List String)
  query : Option Dict
  headers : Option Dict
  method : Option (Option String)
  verb : Option (Option String)
  body : Option (Option String)

def Draft.empty : Draft := ⟨none, none, none, none, none, none⟩

/-- The request of a draft; a field that was not there is empty. -/
def Draft.finish (d : Draft) : HookRequest :=
  ⟨d.path.getD [], d.query.getD .empty, d.headers.getD .empty, d.method.join, d.verb.join, d.body.join⟩

open Json in
def record : Record Draft where
  title := "struct InboundRequest"
  fields := [
    .of "path" false (.list .text) (·.path.isSome) fun d a => { d with path := some a },
    .of "query" false .dict (·.query.isSome) fun d a => { d with query := some a },
    .of "headers" false .dict (·.headers.isSome) fun d a => { d with headers := some a },
    .of "method" false (.orNull .text) (·.method.isSome) fun d a => { d with method := some a },
    .of "verb" false (.orNull .text) (·.verb.isSome) fun d a => { d with verb := some a },
    .of "body" false (.orNull .text) (·.body.isSome) fun d a => { d with body := some a }]

def ofText (text : List Char) : Except Json.Fault HookRequest :=
  ((record.reader .empty).readAll text).map Draft.finish

def ofLine (line : String) : Except Refusal HookRequest :=
  match ofText line.toList with
  | .ok request => .ok request
  | .error fault => .error (.malformedRequest (fault.message line.toList))

open Json in
/-- The request as compact JSON, without the fields that are not there. -/
def toText (request : HookRequest) : List Char :=
  writeObject <|
    [("path", writeTexts request.path), ("query", writeDict request.query),
      ("headers", writeDict request.headers)] ++
    optionalMember "method" writeText request.method ++ optionalMember "verb" writeText request.verb ++
    optionalMember "body" writeText request.body

def toLine (request : HookRequest) : String := String.ofList request.toText

def methodName (request : HookRequest) : Option String := request.method.or request.verb

def method? (request : HookRequest) : Except Refusal Method :=
  match request.methodName with
  | none => .ok .get
  | some name =>
    match Method.ofName? name with
    | some method => .ok method
    | none => .error (.unsupportedMethod name)

/-- What stands in `body` for no body. -/
def noBody : String := "undefined"

def payload (request : HookRequest) : Option String :=
  request.body.filter fun body => body != "" && body != noBody

end HookRequest

end SearchRelay
