import SearchRelay.Proofs.HookLine
import SearchRelay.Proofs.Request
import SearchRelay.Proofs.Text.Order

/-!
# What a line leads to

The keys of a request's headers come in ascending order, so the last spelling of
a name is its greatest key and the first one its smallest. With this the outcome
of a line is told from the fields of its request: which refusal it meets, or what
is sent apart from the address.
-/

namespace SearchRelay

theorem rel_of_find? {α : Type} {R : α → α → Prop} {l : List α} (sorted : l.Pairwise R)
    {p : α → Bool} {a b : α}
    (found : l.find? p = some a) (hb : b ∈ l) (pb : p b = true) : b = a ∨ R a b := by
  obtain ⟨_, before, after, rfl, skipped⟩ := List.find?_eq_some_iff_append.1 found
  rcases List.mem_append.1 hb with hb | hb
  · have skip := skipped b hb
    rw [pb] at skip
    cases skip
  · rcases List.mem_cons.1 hb with rfl | hb
    · exact .inl rfl
    · exact .inr (List.rel_of_pairwise_cons (List.pairwise_append.1 sorted).2.1 hb)

namespace Header

variable {headers : Dict} {name : String}

/-! ## Keys that spell a name -/

/-- The value under the greatest key that spells a name, in the order of bytes. -/
def Carried (headers : Dict) (name value : String) : Prop :=
  ∃ key, (key, value) ∈ headers.entries ∧ Ascii.sameFold name key ∧ ∀ other ∈ headers.entries,
    Ascii.sameFold name other.1 → Utf8.encode other.1.toList ≤ Utf8.encode key.toList

def FirstKey (headers : Dict) (name key : String) : Prop :=
  key ∈ headers.entries.map Prod.fst ∧ Ascii.sameFold name key ∧ ∀ other ∈ headers.entries,
    Ascii.sameFold name other.1 → Utf8.encode key.toList ≤ Utf8.encode other.1.toList

/-- Whether the smallest key that spells one name comes before the smallest one that spells the other. -/
def Earlier (headers : Dict) (a b : String) : Prop :=
  ∃ k l, FirstKey headers a k ∧ FirstKey headers b l ∧ Utf8.encode k.toList < Utf8.encode l.toList

theorem carried_iff {value : String} :
    Carried headers name value ↔ ∃ key, headers.entries.reverse.find? (spells name) = some (key, value) := by
  have sorted : headers.entries.reverse.Pairwise fun a b => b.1 < a.1 := List.pairwise_reverse.2 headers.sorted
  constructor
  · intro ⟨key, mem, spelled, greatest⟩
    cases found : headers.entries.reverse.find? (spells name) with
    | none => exact absurd spelled (List.find?_eq_none.1 found _ (List.mem_reverse.2 mem))
    | some last =>
      refine ⟨key, congrArg some ?_⟩
      rcases rel_of_find? sorted found (List.mem_reverse.2 mem) spelled with same | lt
      · exact same.symm
      · have le := greatest last (List.mem_reverse.1 (List.mem_of_find?_eq_some found)) (sameFold_of_find? found)
        exact absurd lt (String.not_lt.2 (Utf8.encode_le_encode_iff.1 le))
  · intro ⟨key, found⟩
    refine ⟨key, List.mem_reverse.1 (List.mem_of_find?_eq_some found), sameFold_of_find? found, ?_⟩
    intro other ho spelled
    apply Utf8.encode_le_encode_iff.2
    rcases rel_of_find? sorted found (List.mem_reverse.2 ho) spelled with rfl | lt
    · exact String.le_refl _
    · exact Std.le_of_lt lt

theorem exists_firstKey (h : ∃ header ∈ headers.entries, spells name header = true) :
    ∃ key, FirstKey headers name key := by
  obtain ⟨header, hm, spelled⟩ := h
  cases found : headers.entries.find? (spells name) with
  | none => exact absurd spelled (List.find?_eq_none.1 found header hm)
  | some first =>
    refine ⟨first.1, List.mem_map_of_mem (List.mem_of_find?_eq_some found), sameFold_of_find? found, ?_⟩
    intro other ho spelled'
    apply Utf8.encode_le_encode_iff.2
    rcases rel_of_find? headers.sorted found ho spelled' with rfl | lt
    · exact String.le_refl _
    · exact Std.le_of_lt lt

theorem FirstKey.le {k l : String} (hk : FirstKey headers name k) (hl : FirstKey headers name l) : k ≤ l := by
  obtain ⟨entry, he, rfl⟩ := List.mem_map.1 hl.1
  exact Utf8.encode_le_encode_iff.1 (hk.2.2 entry he hl.2.1)

theorem Earlier.asymm {a b : String} (h : Earlier headers a b) : ¬Earlier headers b a := by
  intro ⟨l', k', hl', hk', lt'⟩
  obtain ⟨k, l, hk, hl, lt⟩ := h
  rw [Utf8.encode_lt_encode_iff] at lt lt'
  have up : k < l' := Std.lt_of_lt_of_le lt (hl.le hl')
  have down : l' < k := Std.lt_of_lt_of_le lt' (hk'.le hk)
  exact String.lt_asymm up down

theorem earlier_of_spelledBefore {a b : String} (h : SpelledBefore headers.entries a b)
    (hb : ∃ header ∈ headers.entries, spells b header = true) : Earlier headers a b := by
  obtain ⟨before, header, after, split, spelled, unspelled⟩ := h
  have mem : header ∈ headers.entries := by simp [split]
  obtain ⟨k, hk⟩ := exists_firstKey ⟨header, mem, spelled⟩
  obtain ⟨l, hl⟩ := exists_firstKey hb
  have le : k ≤ header.1 := Utf8.encode_le_encode_iff.1 (hk.2.2 header mem spelled)
  have lt : header.1 < l := by
    obtain ⟨entry, he, rfl⟩ := List.mem_map.1 hl.1
    have sorted := headers.sorted
    rw [split, List.append_cons] at he sorted
    rcases List.mem_append.1 he with early | late
    · have spelled' : spells b entry = true := hl.2.1
      rw [unspelled entry early] at spelled'
      cases spelled'
    · exact (List.pairwise_append.1 sorted).2.2 header (by simp) entry late
  exact ⟨k, l, hk, hl, Utf8.encode_lt_encode_iff.2 (Std.lt_of_le_of_lt le lt)⟩

/-! ## Headers that pass -/

def Illegal (headers : Dict) (name : String) : Prop :=
  name ∈ ["Accept", "If-None-Match"] ∧ ∃ value, Carried headers name value ∧
    ∃ b ∈ Utf8.encode value.toList, b < 0x20 ∧ b ≠ 9 ∨ b = 0x7F

theorem mem_kept_iff {value : String} : (name, value) ∈ keep requestNames headers.entries ↔
    name ∈ ["Accept", "If-None-Match"] ∧ Carried headers name value := by
  rw [mem_keep_iff apart_requestNames, gives_iff, carried_iff]
  rfl

theorem pairwise_earlier (headers : Dict) :
    ((keep requestNames headers.entries).map Prod.fst).Pairwise (Earlier headers) := by
  apply (pairwise_keep apart_requestNames headers.entries).imp_of_mem
  intro a b _ hb before
  exact earlier_of_spelledBefore before ((mem_names_keep apart_requestNames).1 hb).2

theorem isValidValue_eq_false_iff {value : String} :
    isValidValue value = false ↔ ∃ b ∈ Utf8.encode value.toList, b < 0x20 ∧ b ≠ 9 ∨ b = 0x7F := by
  rw [← Bool.not_eq_true, isValidValue_iff]
  simp only [IsValueByte, not_forall, not_and_or, not_or, UInt8.not_le, ne_eq, not_not, exists_prop,
    and_comm (b := _ < (0x20 : UInt8))]

theorem illegal_iff : Illegal headers name ↔
    ∃ value, (name, value) ∈ keep requestNames headers.entries ∧ isValidValue value = false := by
  simp only [Illegal, mem_kept_iff, isValidValue_eq_false_iff, and_assoc, exists_and_left]

end Header

namespace Endpoint

variable {inbound : HookRequest}

theorem refusedHeader?_eq_none_iff : refusedHeader? inbound = none ↔
    ∀ name, ¬Header.Illegal inbound.headers name := by
  rw [refusedHeader?, illegalHeader?, Option.map_eq_none_iff, List.find?_eq_none]
  simp only [Header.illegal_iff, not_exists, not_and, Prod.forall]
  simp

theorem first_of_refusedHeader? {name : String} (h : refusedHeader? inbound = some name) :
    Header.Illegal inbound.headers name ∧
      ∀ other, Header.Illegal inbound.headers other → other ≠ name →
        Header.Earlier inbound.headers name other := by
  obtain ⟨⟨name, value⟩, found, rfl⟩ := Option.map_eq_some_iff.1 h
  have invalid := List.find?_some found
  have order := List.pairwise_map.1 (Header.pairwise_earlier inbound.headers)
  constructor
  · exact Header.illegal_iff.2 ⟨value, List.mem_of_find?_eq_some found, by simpa using invalid⟩
  · intro other illegal differ
    obtain ⟨w, hm, invalid'⟩ := Header.illegal_iff.1 illegal
    rcases rel_of_find? order found hm (by simp [invalid']) with same | earlier
    · exact absurd (congrArg Prod.fst same) differ
    · exact earlier

/-- Of the names that carry what may not be sent the one that is spelled first is refused. -/
theorem refusedHeader?_eq_some_iff {name : String} : refusedHeader? inbound = some name ↔
    Header.Illegal inbound.headers name ∧
      ∀ other, Header.Illegal inbound.headers other → other ≠ name →
        Header.Earlier inbound.headers name other := by
  constructor
  · exact first_of_refusedHeader?
  · intro ⟨illegal, first⟩
    cases found : refusedHeader? inbound with
    | none => exact absurd illegal (refusedHeader?_eq_none_iff.1 found name)
    | some other =>
      obtain ⟨illegal', first'⟩ := first_of_refusedHeader? found
      by_cases same : other = name
      · rw [same]
      · exact absurd (first' name illegal (Ne.symm same)) (first other illegal' same).asymm

/-! ## What is sent -/

/-- What is sent for a request, apart from its address. -/
structure Forwards (inbound : HookRequest) (request : IndexerRequest) : Prop where
  method : inbound.AsksFor request.method
  headers : ∀ name value, (name, value) ∈ request.headers ↔
    name ∈ ["Accept", "If-None-Match"] ∧ Header.Carried inbound.headers name value
  once : (request.headers.map Prod.fst).Nodup
  order : (request.headers.map Prod.fst).Pairwise (Header.Earlier inbound.headers)
  body : ∀ text, request.body = some text ↔ (request.method = .post ∨ request.method = .put) ∧
    inbound.body = some text ∧ text ≠ "" ∧ text ≠ "undefined"

theorem forwards_of_request {endpoint : Endpoint} {request : IndexerRequest}
    (h : endpoint.request inbound = .ok request) : Forwards inbound request := by
  obtain ⟨_, _, _, _, method, _, hm, _, rfl⟩ := request_eq_ok h
  have carries : method.hasBody = true ↔ method = .post ∨ method = .put := by cases method <;> simp [Method.hasBody]
  exact {
    method := HookRequest.method?_eq_ok_iff.1 hm
    headers := fun _ _ => Header.mem_kept_iff
    once := (Header.kept_keep _ _).once
    order := Header.pairwise_earlier inbound.headers
    body := fun text => by
      rw [← carries, ← HookRequest.payload_eq_some_iff]
      simp }

/-! ## Refusals -/

theorem request_ne_malformed {endpoint : Endpoint} {detail : String} :
    endpoint.request inbound ≠ .error (.malformedRequest detail) := by
  rw [ne_eq, request_eq_error_iff, HookRequest.method?_eq_error_iff]
  simp

theorem request_eq_invalidPath_iff {endpoint : Endpoint} {path : List String} :
    endpoint.request inbound = .error (.invalidPath path) ↔ path = inbound.path ∧ path.length ≠ 4 := by
  rw [request_eq_error_iff, HookRequest.method?_eq_error_iff]
  constructor
  · intro h
    rcases h with ⟨short, same⟩ | ⟨_, ⟨_, same, _⟩ | ⟨_, _, _, same⟩⟩ <;> cases same
    exact ⟨rfl, short⟩
  · intro h
    obtain ⟨rfl, short⟩ := h
    exact .inl ⟨short, rfl⟩

theorem request_eq_unsupportedMethod_iff {endpoint : Endpoint} {name : String} :
    endpoint.request inbound = .error (.unsupportedMethod name) ↔ inbound.path.length = 4 ∧ inbound.Names name ∧
      ∀ method : Method, ¬Ascii.sameFold method.name name := by
  rw [request_eq_error_iff, HookRequest.method?_eq_error_iff]
  constructor
  · intro h
    rcases h with ⟨_, same⟩ | ⟨four, ⟨_, same, unsupported⟩ | ⟨_, _, _, same⟩⟩ <;> cases same
    exact ⟨four, unsupported⟩
  · intro h
    exact .inr ⟨h.1, .inl ⟨name, rfl, h.2⟩⟩

theorem request_eq_invalidHeader_iff {endpoint : Endpoint} {name : String} :
    endpoint.request inbound = .error (.invalidHeader name) ↔
      inbound.path.length = 4 ∧ (∃ method, inbound.method? = .ok method) ∧
        refusedHeader? inbound = some name := by
  rw [request_eq_error_iff, HookRequest.method?_eq_error_iff]
  constructor
  · intro h
    rcases h with ⟨_, same⟩ | ⟨four, ⟨_, same, _⟩ | ⟨supported, _, illegal, same⟩⟩ <;> cases same
    exact ⟨four, supported, illegal⟩
  · intro h
    exact .inr ⟨h.1, .inr ⟨h.2.1, name, h.2.2, rfl⟩⟩

/-! ## Lines -/

/-- What becomes of a line: the refusal it meets first, or what is sent for it. -/
theorem outcome_of_line (endpoint : Endpoint) (line : String) :
    ((∃ detail, endpoint.requestOfLine line = .error (.malformedRequest detail)) ↔
      ∀ inbound, HookRequest.ofLine line ≠ .ok inbound) ∧
    ∀ inbound, HookRequest.ofLine line = .ok inbound →
      (∀ path, endpoint.requestOfLine line = .error (.invalidPath path) ↔
        path = inbound.path ∧ path.length ≠ 4) ∧
      (∀ name, endpoint.requestOfLine line = .error (.unsupportedMethod name) ↔ inbound.path.length = 4 ∧
        inbound.Names name ∧ ∀ method : Method, ¬Ascii.sameFold method.name name) ∧
      (∀ name, endpoint.requestOfLine line = .error (.invalidHeader name) ↔ inbound.path.length = 4 ∧
        (∃ method, inbound.AsksFor method) ∧ Header.Illegal inbound.headers name ∧
          ∀ other, Header.Illegal inbound.headers other → other ≠ name →
            Header.Earlier inbound.headers name other) ∧
      ((∃ request, endpoint.requestOfLine line = .ok request) ↔ inbound.path.length = 4 ∧
        (∃ method, inbound.AsksFor method) ∧ ∀ name, ¬Header.Illegal inbound.headers name) ∧
      ∀ request, endpoint.requestOfLine line = .ok request → Forwards inbound request := by
  constructor
  · cases read : HookRequest.ofLine line with
    | error refusal =>
      obtain ⟨detail, rfl⟩ := HookRequest.malformed_of_ofLine read
      have malformed : endpoint.requestOfLine line = .error (.malformedRequest detail) := by
        rw [requestOfLine, read]
        rfl
      simp [malformed]
    | ok inbound =>
      rw [requestOfLine_of_ok endpoint read]
      simp [request_ne_malformed]
  · intro inbound read
    rw [requestOfLine_of_ok endpoint read]
    refine ⟨?_, ?_, ?_, ?_, ?_⟩
    · intro path
      exact request_eq_invalidPath_iff
    · intro name
      exact request_eq_unsupportedMethod_iff
    · intro name
      rw [request_eq_invalidHeader_iff, refusedHeader?_eq_some_iff]
      simp only [HookRequest.method?_eq_ok_iff]
    · simp only [request_eq_ok_iff, refusedHeader?_eq_none_iff, HookRequest.method?_eq_ok_iff]
    · intro request h
      exact forwards_of_request h

/-- Both names carry what may not be sent. The one on the list's second place is spelled first, by a key that does
not give its value. -/
theorem outcome_of_line_spelled_twice :
    let inbound : HookRequest := ⟨["db", "_fti", "d", "i"], .empty,
      Dict.ofList [("accept", "\r"), ("IF-NONE-MATCH", "*"), ("if-none-match", "\x7f")], none, some "get", none⟩
    Endpoint.requestOfLine ⟨"http://localhost:5985", .command⟩ inbound.toLine =
      .error (.invalidHeader "If-None-Match") := by
  intro inbound
  have asks : inbound.AsksFor .get := .inl ⟨"get", .inr ⟨rfl, rfl⟩, by decide⟩
  have carried : Header.Carried inbound.headers "If-None-Match" "\x7f" :=
    ⟨"if-none-match", by decide +kernel, by decide, by decide +kernel⟩
  have illegal : Header.Illegal inbound.headers "If-None-Match" :=
    ⟨by decide, "\x7f", carried, 0x7F, by decide, .inr rfl⟩
  have first : Header.FirstKey inbound.headers "If-None-Match" "IF-NONE-MATCH" :=
    ⟨by decide +kernel, by decide, by decide +kernel⟩
  have second : Header.FirstKey inbound.headers "Accept" "accept" :=
    ⟨by decide +kernel, by decide, by decide +kernel⟩
  have outcome :=
    (outcome_of_line ⟨"http://localhost:5985", .command⟩ inbound.toLine).2 inbound inbound.ofLine_written
  apply (outcome.2.2.1 "If-None-Match").2
  refine ⟨rfl, ⟨.get, asks⟩, illegal, ?_⟩
  intro other illegal' differ
  have accept : other = "Accept" := by simpa [differ] using illegal'.1
  rw [accept]
  exact ⟨_, _, first, second, by decide⟩

end Endpoint

end SearchRelay
