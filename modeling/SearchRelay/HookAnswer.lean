import SearchRelay.Json.Record
import SearchRelay.Json.Writer
import SearchRelay.Refusal

/-!
# Answers of the hook

Every request is answered with one line: a status, headers if there are any,
and a body. What the relay itself has to say it says in plain text.
-/

namespace SearchRelay

structure HookAnswer where
  code : UInt16
  headers : Option Dict
  body : String
deriving DecidableEq

namespace HookAnswer

/-! ## The line -/

open Json in
/-- The answer as compact JSON, without the headers when there are none. -/
def toText (answer : HookAnswer) : List Char :=
  writeObject <|
    ("code", writeNat answer.code.toNat) :: optionalMember "headers" writeDict answer.headers ++
    [("body", writeText answer.body)]

def toLine (answer : HookAnswer) : String := String.ofList answer.toText

structure Draft where
  code : Option Nat
  headers : Option (Option Dict)
  body : Option String

def Draft.empty : Draft := ⟨none, none, none⟩

/-- The answer of a draft; only the code has to be there. -/
def Draft.finish (d : Draft) : HookAnswer := ⟨UInt16.ofNat (d.code.getD 0), d.headers.join, d.body.getD ""⟩

open Json in
def record : Record Draft where
  title := "struct HookResponse"
  fields := [
    .of "code" true .word16 (·.code.isSome) fun d a => { d with code := some a },
    .of "headers" false (.orNull .dict) (·.headers.isSome) fun d a => { d with headers := some a },
    .of "body" false .text (·.body.isSome) fun d a => { d with body := some a }]

def ofText (text : List Char) : Except Json.Fault HookAnswer :=
  ((record.reader .empty).readAll text).map Draft.finish

/-! ## What the relay says itself -/

def plainHeaders : Dict := Dict.empty.insert "Content-Type" "text/plain"

def plainText (code : UInt16) (body : String) : HookAnswer := ⟨code, some plainHeaders, body⟩

/-- How paths are made up, for one that is not; the second segment, if given, names the hook. -/
def usage (path : List String) : String :=
  let hook := path[1]?.getD "_fti"
  s!"Invalid path: {Refusal.showPath path}\n" ++
  s!"Paths should be: /db_name/{hook}/docid/index_name?q=...\n" ++
  "'docid' is from the '_design/docid' that defines index_name\n"

def ofRefusal (refusal : Refusal) : HookAnswer :=
  let body := match refusal with
    | .invalidPath path => usage path
    | refusal => s!"{refusal.message}\n"
  plainText refusal.status body

def unreachable (target detail : String) : HookAnswer :=
  plainText 500 s!"error contacting {target}: {detail}\nis the search indexer running?\n"

end HookAnswer

end SearchRelay
