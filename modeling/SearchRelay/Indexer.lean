import SearchRelay.Form
import SearchRelay.Json.Record
import SearchRelay.Json.Writer
import SearchRelay.Wire

/-!
# A stand-in for the indexer

It knows two indexes. `/search` finds the documents of an index whose title
holds a text, `/info` tells about an index, `/slow` answers late, and any other
request is told back to who sent it.
-/

namespace SearchRelay.Indexer

structure Document where
  id : String
  title : String
deriving DecidableEq, Repr

structure IndexName where
  database : String
  design : String
  index : String
deriving DecidableEq, Repr

def sample : List (IndexName × List Document) :=
  [(⟨"mydb", "mydoc", "myindex"⟩,
      [⟨"doc1", "foo fighters"⟩, ⟨"doc2", "bar none"⟩, ⟨"doc3", "foo bar"⟩]),
    (⟨"my db", "a/b", "what?"⟩, [⟨"odd", "foo in an oddly named index"⟩])]

def documents? (name : IndexName) : Option (List Document) := sample.lookup name

/-- The tag of an index: the sizes of its name, of its list of documents and of all their ids. -/
def tag (name : IndexName) (documents : List Document) : String :=
  let ids := Utf8.size (documents.flatMap (·.id.toList))
  s!"\"{name.index.utf8ByteSize}-{documents.length}-{ids}\""

/-! ## Answers -/

def plain (status : UInt16) (body : String) : IndexerAnswer :=
  ⟨status, [("content-type", "text/plain; charset=utf-8")], body⟩

def noSuchIndex : IndexerAnswer := ⟨404, [("content-type", "text/plain")], "no such index\n"⟩

def own : String × String := ("x-indexer", "mock")

def holds (text part : List Char) : Bool :=
  part.isPrefixOf text ||
    match text with
    | [] => false
    | _ :: rest => holds rest part

open Json in
def writeDocument (d : Document) : List Char := writeObject [("id", writeText d.id), ("title", writeText d.title)]

open Json in
def writeResult (q tag : String) (found : List Document) : String :=
  String.ofList <| writeObject
    [("q", writeText q), ("etag", writeText tag), ("total_rows", writeNat found.length),
      ("rows", writeList (found.map writeDocument))]

def matching (q : String) (documents : List Document) : List Document :=
  documents.filter fun d => holds d.title.toList q.toList

def wantsJson (request : WireRequest) : Bool :=
  ((request.visibleHeader? "accept").map fun value => holds value.toList "application/json".toList).getD false

/-- The values of the query; of equal names the last one counts. -/
def queryOf (request : WireRequest) : Dict := Dict.ofList (Form.decode (request.uri.query.getD []))

def search (name : IndexName) (request : WireRequest) : IndexerAnswer :=
  match documents? name with
  | none => noSuchIndex
  | some documents =>
    match (queryOf request).get? "q" with
    | none => plain 400 "missing q\n"
    | some q =>
      let tag := tag name documents
      if request.visibleHeader? "if-none-match" = some tag then ⟨304, [("etag", tag)], ""⟩
      else
        let type := if wantsJson request then "application/json" else "text/plain;charset=utf-8"
        ⟨200, [("content-type", type), ("etag", tag), own], writeResult q tag (matching q documents)⟩

open Json in
def writeInfo (name : IndexName) (documents : List Document) : String :=
  String.ofList <| writeObject
    [("db", writeText name.database), ("ddoc", writeText name.design), ("index", writeText name.index),
      ("doc_count", writeNat documents.length), ("etag", writeText (tag name documents))]

def info (name : IndexName) : IndexerAnswer :=
  match documents? name with
  | none => noSuchIndex
  | some documents =>
    ⟨200, [("content-type", "application/json"), ("etag", tag name documents), own], writeInfo name documents⟩

/-! ## Echoes -/

structure Echo where
  method : String
  path : String
  segments : List String
  query : Dict
  accept : Option String
  body : String
deriving DecidableEq

open Json in
def Echo.toText (e : Echo) : List Char :=
  writeObject
    [("method", writeText e.method), ("path", writeText e.path), ("segments", writeTexts e.segments),
      ("query", writeDict e.query), ("accept", (e.accept.map writeText).getD "null".toList),
      ("body", writeText e.body)]

/-- An echo as far as it has been read. -/
structure Echo.Draft where
  method : Option String
  path : Option String
  segments : Option (List String)
  query : Option Dict
  accept : Option (Option String)
  body : Option String

def Echo.Draft.empty : Echo.Draft := ⟨none, none, none, none, none, none⟩

def Echo.Draft.finish (d : Echo.Draft) : Echo :=
  ⟨d.method.getD "", d.path.getD "", d.segments.getD [], d.query.getD .empty, d.accept.join, d.body.getD ""⟩

open Json in
def Echo.record : Record Echo.Draft where
  title := "struct Echo"
  fields := [
    .of "method" true .text (·.method.isSome) fun d a => { d with method := some a },
    .of "path" true .text (·.path.isSome) fun d a => { d with path := some a },
    .of "segments" true (.list .text) (·.segments.isSome) fun d a => { d with segments := some a },
    .of "query" true .dict (·.query.isSome) fun d a => { d with query := some a },
    .of "accept" false (.orNull .text) (·.accept.isSome) fun d a => { d with accept := some a },
    .of "body" true .text (·.body.isSome) fun d a => { d with body := some a }]

def Echo.ofText (text : List Char) : Except Json.Fault Echo :=
  ((Echo.record.reader .empty).readAll text).map Echo.Draft.finish

def decodeSegment (segment : List Char) : String :=
  (Percent.decodeSegment? segment).getD (String.ofList segment)

def segments (path : List Char) : List String :=
  ((path.splitOn '/').filter (!·.isEmpty)).map decodeSegment

def bodyLimit : Nat := 2097152

def echo (request : WireRequest) : IndexerAnswer :=
  if bodyLimit < request.body.length then plain 413 "Failed to buffer the request body: length limit exceeded"
  else
    match Utf8.decodeStrict request.body with
    | .error fault => plain 400 s!"Request body didn't contain valid UTF-8: {fault.message}"
    | .ok body =>
      let path := request.uri.wholePath
      let e : Echo := ⟨request.method, String.ofList path, segments path, queryOf request,
        request.visibleHeader? "accept", String.ofList body⟩
      ⟨200, [("content-type", "application/json")], String.ofList e.toText⟩

/-! ## Routes -/

inductive Resource where
  | search (database design index : List Char)
  | info (database design index : List Char)
  | slow
  | other
deriving DecidableEq, Repr

/-- The last part of a path to an index, and the rest of a slow one, are not empty. -/
def Resource.ofPath (path : List Char) : Resource :=
  match path.splitOn '/' with
  | [[], command, database, design, index] =>
    if command = "search".toList && !index.isEmpty then search database design index
    else if command = "info".toList && !index.isEmpty then info database design index
    else if command = "slow".toList then slow
    else other
  | [] :: command :: rest => if command = "slow".toList && rest != [] && rest != [[]] then slow else other
  | _ => other

/-- The index that three segments name, unless one of them is not UTF-8: then the message says which. -/
def indexName (database design index : List Char) : Except IndexerAnswer IndexName := do
  let part (what : String) (segment : List Char) : Except IndexerAnswer String :=
    match Percent.decodeSegment? segment with
    | some text => .ok text
    | none => .error (plain 400 s!"Invalid URL: Invalid UTF-8 in `{what}`")
  return ⟨← part "db" database, ← part "ddoc" design, ← part "index" index⟩

def withIndex (name : Except IndexerAnswer IndexName) (answer : IndexName → IndexerAnswer) : IndexerAnswer :=
  match name with
  | .ok name => answer name
  | .error refusal => refusal

def read (request : WireRequest) : Resource → IndexerAnswer
  | .search database design index => withIndex (indexName database design index) (search · request)
  | .info database design index => withIndex (indexName database design index) info
  | .slow => plain 200 "finally\n"
  | .other => echo request

def notAllowed : IndexerAnswer := ⟨405, [("allow", "GET,HEAD")], ""⟩

/-- The answer as it is made, before its length is known. -/
def draft (request : WireRequest) : IndexerAnswer :=
  let resource := Resource.ofPath request.uri.wholePath
  if resource = .other || request.method = "GET" || request.method = "HEAD" then read request resource
  else notAllowed

/-- An answer as it is sent for a method. The length is that of the whole body, also where no body is sent. -/
def send (method : String) (answer : IndexerAnswer) : IndexerAnswer :=
  if method = "CONNECT" && 200 ≤ answer.status && answer.status < 300 then { answer with body := "" }
  else
    let size := ("content-length", toString answer.body.utf8ByteSize)
    { answer with headers := size :: answer.headers, body := if method = "HEAD" then "" else answer.body }

def answer (request : WireRequest) : IndexerAnswer := send request.method (draft request)

def exchange (request : IndexerRequest) : Outcome :=
  match WireRequest.ofIndexerRequest request with
  | .ok wire => .ok (answer wire)
  | .error fault => .error (.report fault.message)

end SearchRelay.Indexer
