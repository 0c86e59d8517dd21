import Mathlib.Data.List.Nodup
import SearchRelay.HookRequest
import SearchRelay.Proofs.Json.Compact
import SearchRelay.Proofs.Json.Members

/-!
# The lines that are requests

A line is a request if it spells members: as an object, or as a list of the
first fields. The request is what the members of its fields say, so two lines
that spell the same of those are the same request.
-/

namespace SearchRelay.HookRequest

open Json

def fieldNames : List String := ["path", "query", "headers", "method", "verb", "body"]

/-- What one member says. Of a member that is no field only the name is kept. -/
inductive Member where
  | path (names : List String)
  | query (entries : Dict)
  | headers (entries : Dict)
  | method (name : Option String)
  | verb (name : Option String)
  | body (text : Option String)
  | other (name : String) (unknown : name ∉ fieldNames)

def Member.name : Member → String
  | .path _ => "path"
  | .query _ => "query"
  | .headers _ => "headers"
  | .method _ => "method"
  | .verb _ => "verb"
  | .body _ => "body"
  | .other name _ => name

def Member.isField : Member → Bool
  | .other _ _ => false
  | _ => true

def Member.Says : Member → List Char → Prop
  | .path names, v => ListText Literal names v
  | .query entries, v => DictText entries v
  | .headers entries, v => DictText entries v
  | .method name, v => NullOr Literal name v
  | .verb name, v => NullOr Literal name v
  | .body text, v => NullOr Literal text v
  | .other _ _, v => Value v

/-- An object of members in any order, in which no field comes twice. -/
def ObjectOf (members : List Member) (v : List Char) : Prop :=
  ObjectText (fun m => MemberText m.name m.Says) members v ∧
    ∀ name ∈ fieldNames, (members.map Member.name).count name ≤ 1

/-- A list of the values of the first fields, in their order. -/
def ListOf (members : List Member) (v : List Char) : Prop :=
  ListText Member.Says members v ∧ members.map Member.name <+: fieldNames

def Spelled (members : List Member) (line : List Char) : Prop :=
  ∃ before v after, Blank before ∧ Blank after ∧ (ObjectOf members v ∨ ListOf members v) ∧
    line = before ++ (v ++ after)

/-- What members give a field: what the one of its kind says, or what stands for a field that is not there. -/
def Given {α : Type} (kind : α → Member) (absent : α) (members : List Member) (a : α) : Prop :=
  kind a ∈ members ∨ a = absent ∧ ∀ b, kind b ∉ members

structure Of (request : HookRequest) (members : List Member) : Prop where
  path : Given .path [] members request.path
  query : Given .query .empty members request.query
  headers : Given .headers .empty members request.headers
  method : Given .method none members request.method
  verb : Given .verb none members request.verb
  body : Given .body none members request.body

/-! ## Members that enter a draft -/

def Draft.enter (d : Draft) : Member → Option Draft
  | .path a => if d.path.isSome then none else some { d with path := some a }
  | .query a => if d.query.isSome then none else some { d with query := some a }
  | .headers a => if d.headers.isSome then none else some { d with headers := some a }
  | .method a => if d.method.isSome then none else some { d with method := some a }
  | .verb a => if d.verb.isSome then none else some { d with verb := some a }
  | .body a => if d.body.isSome then none else some { d with body := some a }
  | .other _ _ => some d

def kinds : Kinds Draft Member := ⟨Member.name, Member.Says, Draft.enter⟩

theorem Member.name_eq_iff (m : Member) :
    (m.name = "path" ↔ ∃ a, m = .path a) ∧ (m.name = "query" ↔ ∃ a, m = .query a) ∧
      (m.name = "headers" ↔ ∃ a, m = .headers a) ∧ (m.name = "method" ↔ ∃ a, m = .method a) ∧
      (m.name = "verb" ↔ ∃ a, m = .verb a) ∧ (m.name = "body" ↔ ∃ a, m = .body a) := by
  cases m with
  | other key unknown =>
    simp only [fieldNames, List.mem_cons, List.not_mem_nil, or_false, not_or] at unknown
    simp [Member.name, unknown]
  | _ => simp [Member.name]

theorem Draft.enter_others {d e : Draft} {m : Member} (h : d.enter m = some e) :
    (m.name ≠ "path" → e.path = d.path) ∧ (m.name ≠ "query" → e.query = d.query) ∧
      (m.name ≠ "headers" → e.headers = d.headers) ∧ (m.name ≠ "method" → e.method = d.method) ∧
      (m.name ≠ "verb" → e.verb = d.verb) ∧ (m.name ≠ "body" → e.body = d.body) := by
  cases m with
  | other key unknown =>
    cases h
    simp
  | _ =>
    simp only [Draft.enter] at h
    split at h
    · cases h
    · cases h
      simp [Member.name]

theorem literal_not_null (text : String) (t : List Char) : ¬Literal text ('n' :: t) := by
  rintro ⟨body, _, h⟩
  cases h

theorem takes_record : record.Takes kinds where
  fields := by
    have text : Reads Reader.text.read Literal := reads_string
    have null := reads_orNull text literal_not_null
    intro field hf
    simp only [record, List.mem_cons, List.not_mem_nil, or_false] at hf
    rcases hf with rfl | rfl | rfl | rfl | rfl | rfl
    · exact Field.takes_of Member.path (reads_list text) (fun m => m.name_eq_iff.1)
        (fun _ => rfl) (fun _ _ => rfl) (fun _ _ => rfl)
        fun h hn => congrArg Option.isSome ((Draft.enter_others h).1 hn)
    · exact Field.takes_of Member.query reads_dict (fun m => m.name_eq_iff.2.1)
        (fun _ => rfl) (fun _ _ => rfl) (fun _ _ => rfl)
        fun h hn => congrArg Option.isSome ((Draft.enter_others h).2.1 hn)
    · exact Field.takes_of Member.headers reads_dict (fun m => m.name_eq_iff.2.2.1)
        (fun _ => rfl) (fun _ _ => rfl) (fun _ _ => rfl)
        fun h hn => congrArg Option.isSome ((Draft.enter_others h).2.2.1 hn)
    · exact Field.takes_of Member.method null (fun m => m.name_eq_iff.2.2.2.1)
        (fun _ => rfl) (fun _ _ => rfl) (fun _ _ => rfl)
        fun h hn => congrArg Option.isSome ((Draft.enter_others h).2.2.2.1 hn)
    · exact Field.takes_of Member.verb null (fun m => m.name_eq_iff.2.2.2.2.1)
        (fun _ => rfl) (fun _ _ => rfl) (fun _ _ => rfl)
        fun h hn => congrArg Option.isSome ((Draft.enter_others h).2.2.2.2.1 hn)
    · exact Field.takes_of Member.body null (fun m => m.name_eq_iff.2.2.2.2.2)
        (fun _ => rfl) (fun _ _ => rfl) (fun _ _ => rfl)
        fun h hn => congrArg Option.isSome ((Draft.enter_others h).2.2.2.2.2 hn)
  distinct := by decide
  passed := by
    intro key v unknown
    constructor
    · intro hv
      exact ⟨.other key unknown, rfl, hv⟩
    · rintro ⟨m, rfl, hv⟩
      cases m with
      | other key _ => exact hv
      | _ => simp [kinds, Member.name, record, Field.of] at unknown
  same := by
    intro x m unknown
    cases m with
    | other key _ => rfl
    | _ => simp [kinds, Member.name, record, Field.of] at unknown

/-! ## What a draft holds -/

def Draft.Holds (d : Draft) : Member → Prop
  | .path a => d.path = some a
  | .query a => d.query = some a
  | .headers a => d.headers = some a
  | .method a => d.method = some a
  | .verb a => d.verb = some a
  | .body a => d.body = some a
  | .other _ _ => False

theorem Draft.holds_enter {d e : Draft} {m : Member} (h : d.enter m = some e) {n : Member} (field : n.isField) :
    e.Holds n ↔ d.Holds n ∨ n = m := by
  cases m with
  | other key unknown =>
    cases h
    have : n ≠ .other key unknown := by
      rintro rfl
      cases field
    simp [this]
  | _ =>
    simp only [Draft.enter] at h
    split at h
    · cases h
    · next empty =>
      cases h
      rw [Option.not_isSome_iff_eq_none] at empty
      cases n <;> simp [Draft.Holds, empty, eq_comm]

theorem Draft.holds_foldlM {members : List Member} {d e : Draft}
    (h : members.foldlM Draft.enter d = some e) {n : Member}
    (field : n.isField) : e.Holds n ↔ d.Holds n ∨ n ∈ members := by
  induction members generalizing d with
  | nil =>
    cases h
    simp
  | cons m members ih =>
    rw [List.foldlM_cons] at h
    obtain ⟨f, hf, h⟩ := Option.bind_eq_some_iff.1 h
    rw [ih h, holds_enter hf field, List.mem_cons, or_assoc]

theorem Draft.holds_of_empty {members : List Member} {d : Draft} (h : members.foldlM Draft.enter .empty = some d)
    {n : Member} (field : n.isField) : d.Holds n ↔ n ∈ members := by
  rw [holds_foldlM h field, or_iff_right]
  cases n <;> simp [Draft.Holds, Draft.empty]

theorem given_getD {α : Type} {kind : α → Member} {members : List Member} {slot : Option α}
    (h : ∀ a, slot = some a ↔ kind a ∈ members) (absent : α) : Given kind absent members (slot.getD absent) := by
  cases slot with
  | none => exact .inr ⟨rfl, fun b hb => nomatch (h b).2 hb⟩
  | some a => exact .inl ((h a).1 rfl)

theorem Draft.finish_of {members : List Member} {d : Draft} (h : members.foldlM Draft.enter .empty = some d) :
    d.finish.Of members := by
  have join : ∀ {kind : Option String → Member} {slot : Option (Option String)},
      (∀ a, slot = some a ↔ kind a ∈ members) → Given kind none members slot.join := by
    intro kind slot hs
    have given := given_getD hs none
    cases slot <;> exact given
  have holds : ∀ n : Member, n.isField → (d.Holds n ↔ n ∈ members) := fun n => holds_of_empty h
  exact {
    path := given_getD (fun a => holds (.path a) rfl) []
    query := given_getD (fun a => holds (.query a) rfl) .empty
    headers := given_getD (fun a => holds (.headers a) rfl) .empty
    method := join fun a => holds (.method a) rfl
    verb := join fun a => holds (.verb a) rfl
    body := join fun a => holds (.body a) rfl }

theorem Given.unique {α : Type} {kind : α → Member} {absent a b : α} {members : List Member} {slot : Option α}
    (ha : Given kind absent members a) (hb : Given kind absent members b)
    (held : ∀ c, kind c ∈ members → slot = some c) : a = b := by
  rcases ha with ha | ⟨rfl, none⟩
  · rcases hb with hb | ⟨_, none⟩
    · exact Option.some.inj ((held a ha).symm.trans (held b hb))
    · exact absurd ha (none a)
  · rcases hb with hb | ⟨rfl, _⟩
    · exact absurd hb (none b)
    · rfl

theorem Draft.eq_finish {members : List Member} {d : Draft} (h : members.foldlM Draft.enter .empty = some d)
    {request : HookRequest} (of : request.Of members) : request = d.finish := by
  have finish := finish_of h
  have holds : ∀ n : Member, n.isField → n ∈ members → d.Holds n := fun _ field => (holds_of_empty h field).2
  obtain ⟨path, query, headers, method, verb, body⟩ := request
  simp only [Draft.finish, HookRequest.mk.injEq]
  exact ⟨of.path.unique finish.path fun a => holds (.path a) rfl,
    of.query.unique finish.query fun a => holds (.query a) rfl,
    of.headers.unique finish.headers fun a => holds (.headers a) rfl,
    of.method.unique finish.method fun a => holds (.method a) rfl,
    of.verb.unique finish.verb fun a => holds (.verb a) rfl,
    of.body.unique finish.body fun a => holds (.body a) rfl⟩

theorem Draft.eq_of_holds {d e : Draft} (h : ∀ n : Member, n.isField → (d.Holds n ↔ e.Holds n)) : d = e := by
  have slot : ∀ {α : Type} {s t : Option α}, (∀ a, s = some a ↔ t = some a) → s = t :=
    fun h => Option.ext fun a => by
    simpa [Option.mem_def] using h a
  obtain ⟨path, query, headers, method, verb, body⟩ := d
  obtain ⟨path', query', headers', method', verb', body'⟩ := e
  obtain rfl : path = path' := slot fun a => h (.path a) rfl
  obtain rfl : query = query' := slot fun a => h (.query a) rfl
  obtain rfl : headers = headers' := slot fun a => h (.headers a) rfl
  obtain rfl : method = method' := slot fun a => h (.method a) rfl
  obtain rfl : verb = verb' := slot fun a => h (.verb a) rfl
  obtain rfl : body = body' := slot fun a => h (.body a) rfl
  rfl

/-! ## Lines -/

theorem fieldNames_eq : record.fields.map (·.name) = fieldNames := rfl

theorem fresh_empty : ∀ field ∈ record.fields, field.filled Draft.empty = false := by decide

theorem optional : ∀ field ∈ record.fields, field.required = false := by decide

theorem exists_draft_iff {members : List Member} :
    (∃ d, members.foldlM Draft.enter .empty = some d) ↔
      ∀ name ∈ fieldNames, (members.map Member.name).count name ≤ 1 := by
  refine (takes_record.foldlM_iff).trans ?_
  rw [← fieldNames_eq, List.forall_mem_map]
  refine forall₂_congr fun field hf => ?_
  rw [fresh_empty field hf, if_neg Bool.false_ne_true, Nat.add_zero]
  rfl

theorem exists_draft_of_spelled {members : List Member} {line : List Char} (h : Spelled members line) :
    ∃ d, members.foldlM Draft.enter .empty = some d := by
  obtain ⟨_, _, _, _, _, ⟨_, once⟩ | ⟨_, names⟩, _⟩ := h
  · exact exists_draft_iff.2 once
  · have distinct : fieldNames.Nodup := by decide
    exact exists_draft_iff.2 fun name _ => List.nodup_iff_count_le_one.1 (distinct.sublist names.sublist) name

/-- The draft of a line is what the members enter that it spells. -/
theorem readAll_eq_ok_iff {line : List Char} {d : Draft} : (record.reader .empty).readAll line = .ok d ↔
    ∃ members, Spelled members line ∧ members.foldlM Draft.enter .empty = some d := by
  rw [Json.readAll_eq_ok_iff (reads_record takes_record fresh_empty)]
  constructor
  · rintro ⟨before, v, after, hb, ha, ⟨members, fold, ⟨text, _⟩ | ⟨text, names, _⟩⟩, rfl⟩
    · exact ⟨members, ⟨before, v, after, hb, ha, .inl ⟨text, exists_draft_iff.1 ⟨d, fold⟩⟩, rfl⟩, fold⟩
    · exact ⟨members, ⟨before, v, after, hb, ha, .inr ⟨text, names⟩, rfl⟩, fold⟩
  · rintro ⟨members, ⟨before, v, after, hb, ha, ⟨text, _⟩ | ⟨text, names⟩, rfl⟩, fold⟩
    · refine ⟨before, v, after, hb, ha, ⟨members, fold, .inl ⟨text, fun field hf required => ?_⟩⟩, rfl⟩
      rw [optional field hf] at required
      cases required
    · exact ⟨before, v, after, hb, ha,
        ⟨members, fold, .inr ⟨text, names, fun field hf => optional field (List.mem_of_mem_drop hf)⟩⟩, rfl⟩

theorem ofLine_eq_ok_iff {line : String} {request : HookRequest} : ofLine line = .ok request ↔
    ∃ d members, Spelled members line.toList ∧ members.foldlM Draft.enter .empty = some d ∧
      d.finish = request := by
  have text : ofLine line = .ok request ↔ ofText line.toList = .ok request := by
    unfold ofLine
    split
    · next h => rw [h, Except.ok.injEq, Except.ok.injEq]
    · next h => rw [h]; simp
  rw [text, ofText, Result.map_eq_ok]
  constructor
  · rintro ⟨d, hd, hr⟩
    obtain ⟨members, spelled, fold⟩ := readAll_eq_ok_iff.1 hd
    exact ⟨d, members, spelled, fold, hr⟩
  · rintro ⟨d, members, spelled, fold, hr⟩
    exact ⟨d, readAll_eq_ok_iff.2 ⟨members, spelled, fold⟩, hr⟩

theorem ofLine_of_spelled {line : String} {members : List Member} {request : HookRequest}
    (spelled : Spelled members line.toList) (of : request.Of members) : ofLine line = .ok request := by
  obtain ⟨d, fold⟩ := exists_draft_of_spelled spelled
  exact ofLine_eq_ok_iff.2 ⟨d, members, spelled, fold, (Draft.eq_finish fold of).symm⟩

/-- The lines that are requests are those that spell members, and the fields among those decide the request. -/
theorem ofLine_grammar (line : String) :
    ((∃ request, ofLine line = .ok request) ↔ ∃ members, Spelled members line.toList) ∧
    ∀ members, Spelled members line.toList → ∃ request, ofLine line = .ok request ∧ request.Of members ∧
      ∀ (line' : String) (members' : List Member), Spelled members' line'.toList →
        (∀ m : Member, m.isField → (m ∈ members ↔ m ∈ members')) → ofLine line' = .ok request := by
  have accepted : ∀ members, Spelled members line.toList → ∃ d : Draft,
      members.foldlM Draft.enter .empty = some d ∧ ofLine line = .ok d.finish := by
    intro members spelled
    obtain ⟨d, fold⟩ := exists_draft_of_spelled spelled
    exact ⟨d, fold, ofLine_eq_ok_iff.2 ⟨d, members, spelled, fold, rfl⟩⟩
  refine ⟨⟨?_, ?_⟩, ?_⟩
  · rintro ⟨request, h⟩
    obtain ⟨_, members, spelled, _⟩ := ofLine_eq_ok_iff.1 h
    exact ⟨members, spelled⟩
  · rintro ⟨members, spelled⟩
    obtain ⟨d, _, h⟩ := accepted members spelled
    exact ⟨d.finish, h⟩
  · intro members spelled
    obtain ⟨d, fold, h⟩ := accepted members spelled
    refine ⟨d.finish, h, Draft.finish_of fold, fun line' members' spelled' same => ?_⟩
    obtain ⟨e, fold'⟩ := exists_draft_of_spelled spelled'
    have : e = d := Draft.eq_of_holds fun n field => by
      rw [Draft.holds_of_empty fold' field, Draft.holds_of_empty fold field, same n field]
    rw [← this]
    exact ofLine_eq_ok_iff.2 ⟨e, members', spelled', fold', rfl⟩

/-- The same method under an escape, without a member that is no field, and between blanks. -/
theorem ofLine_grammar_verb : ∃ request, ofLine "\x7b\"verb\":\"GET\",\"id\":7\x7d" = .ok request ∧
    ofLine " \x7b\"verb\": \"G\\u0045T\"\x7d" = .ok request ∧ request.verb = some "GET" := by
  have seven : Value ['7'] :=
    .scalar (.number ⟨['7'], [], [], ⟨⟨by simp, by simp⟩, by decide⟩, .inl rfl, .inl rfl, rfl⟩)
  have verb : kinds.Part (.verb (some "GET")) "\"verb\":\"GET\"".toList :=
    memberText_writeMember (literal_writeText "GET")
  have id : kinds.Part (.other "id" (by decide)) "\"id\":7".toList := memberText_writeMember seven
  have escape : CodeUnit ['0', '0', '4', '5'] 'E'.toNat :=
    .digits (w := 0) (x := 0) (y := 4) (z := 5) (.inl rfl) (.inl rfl) (.inl rfl) (.inl rfl)
  have escaped : Literal "GET" "\"G\\u0045T\"".toList :=
    ⟨_, .cons (.plain (by decide) (by decide) (by decide)) (.cons (.unit escape)
      (.cons (.plain (by decide) (by decide) (by decide)) .nil)), by decide⟩
  have verb' : kinds.Part (.verb (some "GET")) "\"verb\": \"G\\u0045T\"".toList :=
    ⟨_, [], [' '], _, literal_writeText "verb", blank_nil, by simp [Blank], escaped, by decide⟩
  have close : Parts '}' kinds.Part false [] ['}'] := .close blank_nil
  have spelled : Spelled [.verb (some "GET"), .other "id" (by decide)] "\x7b\"verb\":\"GET\",\"id\":7\x7d".toList := by
    have parts := Parts.part (.first blank_nil) verb (.part (.comma blank_nil blank_nil) id close)
    exact ⟨[], _, [], blank_nil, blank_nil, .inl ⟨⟨_, parts, rfl⟩, by decide⟩, by decide⟩
  have spelled' : Spelled [.verb (some "GET")] " \x7b\"verb\": \"G\\u0045T\"\x7d".toList := by
    have parts := Parts.part (.first blank_nil) verb' close
    exact ⟨[' '], _, [], by simp [Blank], blank_nil, .inl ⟨⟨_, parts, rfl⟩, by decide⟩, by decide⟩
  obtain ⟨request, h, of, same⟩ := (ofLine_grammar _).2 _ spelled
  refine ⟨request, h, same _ _ spelled' fun m field => ?_, ?_⟩
  · cases m <;> simp_all [Member.isField]
  · rcases of.verb with hv | ⟨_, absent⟩
    · simpa using hv
    · exact absurd (by simp) (absent (some "GET"))

/-! ## Written requests -/

def members (request : HookRequest) : List Member :=
  [.path request.path, .query request.query, .headers request.headers] ++
    (request.method.map fun name => .method (some name)).toList ++
    (request.verb.map fun name => .verb (some name)).toList ++
    (request.body.map fun text => .body (some text)).toList

def Member.write : Member → List Char
  | .path names => writeTexts names
  | .query entries => writeDict entries
  | .headers entries => writeDict entries
  | .method name => (name.map writeText).getD []
  | .verb name => (name.map writeText).getD []
  | .body text => (text.map writeText).getD []
  | .other _ _ => []

theorem toText_eq (request : HookRequest) :
    request.toText = writeObject (request.members.map fun m => (m.name, m.write)) := by
  obtain ⟨path, query, headers, method, verb, body⟩ := request
  cases method <;> cases verb <;> cases body <;> rfl

theorem says_write {request : HookRequest} {m : Member} (h : m ∈ request.members) : m.Says m.write := by
  simp only [members, List.mem_append, List.mem_cons, List.not_mem_nil, or_false, Option.mem_toList,
    Option.map_eq_some_iff] at h
  rcases h with (((rfl | rfl | rfl) | ⟨name, _, rfl⟩) | ⟨name, _, rfl⟩) | ⟨text, _, rfl⟩
  · exact listText_writeList fun name _ => literal_writeText name
  · exact dictText_writeDict _
  · exact dictText_writeDict _
  all_goals exact literal_writeText _

theorem foldlM_members (request : HookRequest) :
    ∃ d, request.members.foldlM Draft.enter .empty = some d ∧ d.finish = request := by
  obtain ⟨path, query, headers, method, verb, body⟩ := request
  cases method <;> cases verb <;> cases body <;> exact ⟨_, rfl, rfl⟩

theorem spelled_toText (request : HookRequest) : Spelled request.members request.toText := by
  obtain ⟨d, fold, _⟩ := request.foldlM_members
  refine ⟨[], request.toText, [], blank_nil, blank_nil, .inl ⟨?_, exists_draft_iff.1 ⟨d, fold⟩⟩, by simp⟩
  rw [toText_eq]
  exact objectText_writeObject fun m hm => memberText_writeMember (says_write hm)

theorem ofLine_written (request : HookRequest) : ofLine request.toLine = .ok request := by
  obtain ⟨d, fold, finish⟩ := request.foldlM_members
  have spelled := request.spelled_toText
  rw [← String.toList_ofList (l := request.toText)] at spelled
  exact ofLine_eq_ok_iff.2 ⟨d, request.members, spelled, fold, finish⟩

end SearchRelay.HookRequest
