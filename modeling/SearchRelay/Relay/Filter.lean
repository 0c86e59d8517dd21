import SearchRelay.Relay.Directive
import SearchRelay.Relay.Journal

/-!
# Filters

Which entries go into a journal. A filter is a list of directives between
commas. One that names a span or a field holds for all that is reported while a
request is handled, if it fits the request. Among the others the one that says
most about an event decides.
-/

namespace SearchRelay

abbrev Filter := List Directive

namespace Filter

/-! ## Reading -/

def sameScope (a b : Directive) : Bool := a.target = b.target && a.span = b.span && a.fields = b.fields

def put (filter : Filter) (directive : Directive) : Filter := directive :: filter.filter (!sameScope directive ·)

/-- The filter that a text states. An empty text lets nothing pass. -/
def ofText (text : String) : Except Directive.Fault Filter := do
  let directives ← ((text.toList.splitOn ',').filter (!·.isEmpty)).mapM Directive.ofText
  return directives.foldl put []

/-- The filter when none, or none that is well formed, is stated. -/
def standard : Filter :=
  [⟨some "fti_hook", none, [], some .info⟩, ⟨some "couchdb_fti_hook", none, [], some .info⟩]

/-! ## Requests -/

/-- The target, the name and the field of the span around what is reported while a request is handled. -/
def requestTarget : String := "fti_hook::relay"

def requestSpan : String := "request"

def requestField : String := "id"

/-- An id in the form that all of them have; they are random. -/
def sampleId : String := "5b0c7e52-9d3f-4a61-8f27-c0e94b1d8a36"

def coversTarget (directive : Directive) (target : String) : Bool :=
  directive.target.all fun start => start.toList.isPrefixOf target.toList

/-- Whether a directive names a span or a field and fits the request that has an id. -/
def coversRequest (id : String) (directive : Directive) : Bool :=
  (directive.span.isSome || !directive.fields.isEmpty) &&
    coversTarget directive requestTarget && directive.span.all (· = requestSpan) &&
    directive.fields.all fun field =>
      field.name = requestField && field.value.all (Directive.fits · id)

def requestRank (filter : Filter) (id : String) : Nat :=
  ((filter.filter (coversRequest id)).map fun directive => (directive.level.map Level.rank).getD 0).foldl max 0

/-! ## Events -/

/-- Whether a directive is about events by themselves, and about this one. -/
def coversEvent (event : Event) (directive : Directive) : Bool :=
  directive.span.isNone && directive.fields.all (·.value.isNone) && coversTarget directive event.target &&
    directive.fields.all fun field => field.name = "message" || event.fields.any (·.1 = field.name)

/-- How much a directive says: the length of its target, then the number of its fields, then their names. -/
def weight (directive : Directive) : Nat × Nat :=
  ((directive.target.map fun start => start.length + 1).getD 0, directive.fields.length)

def saysLess (a b : Directive) : Bool :=
  let (m, k) := weight a
  let (n, l) := weight b
  m < n || (m = n && (k < l || (k = l && a.fields.map FieldTest.name < b.fields.map FieldTest.name)))

def deciding? (filter : Filter) (event : Event) : Option Directive :=
  match filter.filter (coversEvent event) with
  | [] => none
  | first :: rest => some (rest.foldl (fun a b => if saysLess a b then b else a) first)

def eventRank (filter : Filter) (event : Event) : Nat :=
  (((filter.deciding? event).bind Directive.level).map Level.rank).getD 0

/-- Whether an entry goes into the journal; `id` is the id of the request that it is about, if it is about one. -/
def passes (filter : Filter) (entry : Entry) (id : String := sampleId) : Bool :=
  entry.event.level.rank ≤ filter.eventRank entry.event ||
    (entry.inRequest && entry.event.level.rank ≤ filter.requestRank id)

end Filter

end SearchRelay
