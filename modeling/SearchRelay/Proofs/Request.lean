import Mathlib.Data.List.Basic
import SearchRelay.Endpoint
import SearchRelay.Proofs.Header.Spelling
import SearchRelay.Proofs.Result

/-!
# Lines that are requests

What a request of the hook is sent as, and why one is refused. It is checked for
its path, then for its method, then for the values of the headers that pass, and
the first check that fails is the one it is refused for. The address of the
indexer has been checked before the first line, so no line is refused for it.
-/

namespace SearchRelay

namespace Method

theorem apart_name : ∀ a ∈ all, ∀ b ∈ all, Ascii.sameFold a.name b.name = true → a = b := by decide

theorem mem_all (method : Method) : method ∈ all := by cases method <;> decide

theorem ofName?_eq_some_iff {name : String} {method : Method} :
    ofName? name = some method ↔ Ascii.sameFold method.name name = true :=
  (Ascii.find?_sameFold apart_name).trans (and_iff_right method.mem_all)

theorem ofName?_eq_none_iff {name : String} :
    ofName? name = none ↔ ∀ method : Method, ¬Ascii.sameFold method.name name = true := by
  rw [ofName?, List.find?_eq_none]
  constructor
  · intro h method
    exact h method method.mem_all
  · intro h method _
    exact h method

end Method

namespace HookRequest

variable {inbound : HookRequest}

/-! ## Methods -/

/-- Whether a text names the method: the one under `method`, or the one under `verb` if there is none. -/
def Names (inbound : HookRequest) (name : String) : Prop :=
  inbound.method = some name ∨ inbound.method = none ∧ inbound.verb = some name

/-- Whether a request asks for a method. One that names none asks for GET. -/
def AsksFor (inbound : HookRequest) (method : Method) : Prop :=
  (∃ name, inbound.Names name ∧ Ascii.sameFold method.name name = true) ∨
    (∀ name, ¬inbound.Names name) ∧ method = .get

theorem methodName_eq_some_iff {name : String} : inbound.methodName = some name ↔ inbound.Names name :=
  Option.or_eq_some_iff

theorem methodName_eq_none_iff : inbound.methodName = none ↔ ∀ name, ¬inbound.Names name := by
  simp only [Option.eq_none_iff_forall_ne_some, ne_eq, methodName_eq_some_iff]

theorem method?_of_names {name : String} (h : inbound.Names name) :
    inbound.method? = match Method.ofName? name with
      | some method => .ok method
      | none => .error (.unsupportedMethod name) := by
  have named := methodName_eq_some_iff.2 h
  unfold method?
  split
  · next unnamed =>
    rw [named] at unnamed
    cases unnamed
  · next other known =>
    rw [named] at known
    cases known
    rfl

theorem method?_of_unnamed (h : ∀ name, ¬inbound.Names name) : inbound.method? = .ok .get := by
  simp only [method?, methodName_eq_none_iff.2 h]

theorem Names.unique {a b : String} (ha : inbound.Names a) (hb : inbound.Names b) : a = b := by
  rw [← methodName_eq_some_iff] at ha hb
  exact Option.some.inj (ha.symm.trans hb)

theorem method?_eq_ok_iff {method : Method} : inbound.method? = .ok method ↔ inbound.AsksFor method := by
  by_cases named : ∃ name, inbound.Names name
  · obtain ⟨name, h⟩ := named
    have only : inbound.AsksFor method ↔ Ascii.sameFold method.name name = true := by
      constructor
      · intro asks
        rcases asks with ⟨other, ho, spelled⟩ | ⟨unnamed, _⟩
        · rwa [h.unique ho]
        · exact absurd h (unnamed name)
      · intro spelled
        exact .inl ⟨name, h, spelled⟩
    rw [method?_of_names h, only, ← Method.ofName?_eq_some_iff]
    cases Method.ofName? name <;> simp
  · have unnamed := not_exists.1 named
    rw [method?_of_unnamed unnamed]
    constructor
    · intro h
      exact .inr ⟨unnamed, (Except.ok.inj h).symm⟩
    · intro asks
      rcases asks with ⟨name, h, _⟩ | ⟨_, rfl⟩
      · exact absurd h (unnamed name)
      · rfl

theorem method?_eq_error_iff {refusal : Refusal} : inbound.method? = .error refusal ↔
    ∃ name, refusal = .unsupportedMethod name ∧ inbound.Names name ∧
      ∀ method : Method, ¬Ascii.sameFold method.name name = true := by
  constructor
  · intro h
    by_cases named : ∃ name, inbound.Names name
    · obtain ⟨name, hn⟩ := named
      rw [method?_of_names hn] at h
      cases known : Method.ofName? name with
      | some method => rw [known] at h; cases h
      | none =>
        rw [known] at h
        exact ⟨name, (Except.error.inj h).symm, hn, Method.ofName?_eq_none_iff.1 known⟩
    · rw [method?_of_unnamed (not_exists.1 named)] at h
      cases h
  · rintro ⟨name, rfl, hn, unknown⟩
    rw [method?_of_names hn, Method.ofName?_eq_none_iff.2 unknown]

theorem methodName_of_hasBody {method : Method} (h : inbound.method? = .ok method) (body : method.hasBody = true) :
    ∃ name, inbound.methodName = some name ∧ (Ascii.sameFold "POST" name ∨ Ascii.sameFold "PUT" name) := by
  rcases method?_eq_ok_iff.1 h with ⟨name, named, spelled⟩ | ⟨_, rfl⟩
  · refine ⟨name, methodName_eq_some_iff.2 named, ?_⟩
    cases method
    case post => exact .inl spelled
    case put => exact .inr spelled
    all_goals cases body
  · cases body

theorem payload_eq_some_iff {text : String} :
    inbound.payload = some text ↔ inbound.body = some text ∧ text ≠ "" ∧ text ≠ "undefined" := by
  simp [payload, Option.filter_eq_some_iff, noBody]

theorem malformed_of_ofLine {line : String} {refusal : Refusal} (h : ofLine line = .error refusal) :
    ∃ detail, refusal = .malformedRequest detail := by
  unfold ofLine at h
  split at h
  · cases h
  · exact ⟨_, (Except.error.inj h).symm⟩

end HookRequest

namespace Endpoint

variable {endpoint : Endpoint} {inbound : HookRequest}

/-! ## Outcomes -/

theorem requestOfLine_of_ok (endpoint : Endpoint) {line : String} (h : HookRequest.ofLine line = .ok inbound) :
    endpoint.requestOfLine line = endpoint.request inbound := by
  rw [requestOfLine, h]
  rfl

theorem request_eq_ok {request : IndexerRequest} (h : endpoint.request inbound = .ok request) :
    ∃ database hook design index method,
      inbound.path = [database, hook, design, index] ∧ inbound.method? = .ok method ∧
      illegalHeader? (Header.keep Header.requestNames inbound.headers.entries) = none ∧
      request = ⟨method, endpoint.url (endpoint.segments inbound.query database design index) inbound.query,
        Header.keep Header.requestNames inbound.headers.entries,
        if method.hasBody then inbound.payload else none⟩ := by
  unfold Endpoint.request at h
  split at h
  · next database hook design index hp =>
    obtain ⟨method, hm, h⟩ := Result.bind_eq_ok.1 h
    dsimp only at h
    cases hi : illegalHeader? (Header.keep Header.requestNames inbound.headers.entries) with
    | some name => rw [hi] at h; cases h
    | none =>
      rw [hi] at h
      cases h
      exact ⟨database, hook, design, index, method, hp, hm, rfl, rfl⟩
  · cases h

theorem method_of_request {request : IndexerRequest} {method : Method}
    (h : endpoint.request inbound = .ok request) (hm : inbound.method? = .ok method) : request.method = method := by
  obtain ⟨_, _, _, _, _, _, resolved, _, rfl⟩ := request_eq_ok h
  rw [hm] at resolved
  exact (Except.ok.inj resolved).symm

def refusedHeader? (inbound : HookRequest) : Option String :=
  illegalHeader? (Header.keep Header.requestNames inbound.headers.entries)

theorem request_eq_error_iff {refusal : Refusal} : endpoint.request inbound = .error refusal ↔
    inbound.path.length ≠ 4 ∧ refusal = .invalidPath inbound.path ∨
    inbound.path.length = 4 ∧ (inbound.method? = .error refusal ∨
      (∃ method, inbound.method? = .ok method) ∧
        ∃ name, refusedHeader? inbound = some name ∧ refusal = .invalidHeader name) := by
  by_cases four : inbound.path.length = 4
  · obtain ⟨database, hook, design, index, hp⟩ := List.length_eq_four.1 four
    simp only [request, hp, refusedHeader?]
    cases inbound.method? with
    | error other => simp [bind, Except.bind]
    | ok method =>
      cases illegalHeader? (Header.keep Header.requestNames inbound.headers.entries) with
      | none => simp [bind, Except.bind]
      | some name => simp [bind, Except.bind, eq_comm (a := refusal)]
  · have short : endpoint.request inbound = .error (.invalidPath inbound.path) := by
      unfold request
      split
      · next hp => exact absurd (by simp [hp]) four
      · rfl
    simp [short, four, eq_comm (a := refusal)]

theorem request_eq_ok_iff : (∃ request, endpoint.request inbound = .ok request) ↔
    inbound.path.length = 4 ∧ (∃ method, inbound.method? = .ok method) ∧ refusedHeader? inbound = none := by
  constructor
  · intro ⟨request, h⟩
    obtain ⟨database, hook, design, index, method, hp, hm, legal, _⟩ := request_eq_ok h
    exact ⟨by simp [hp], ⟨method, hm⟩, legal⟩
  · intro ⟨four, ⟨method, hm⟩, legal⟩
    cases h : endpoint.request inbound with
    | ok request => exact ⟨request, rfl⟩
    | error refusal =>
      rcases request_eq_error_iff.1 h with ⟨short, _⟩ | ⟨_, unsupported | ⟨_, name, illegal, _⟩⟩
      · exact absurd four short
      · rw [hm] at unsupported; cases unsupported
      · rw [legal] at illegal; cases illegal

theorem status_of_requestOfLine {line : String} {refusal : Refusal} (h : endpoint.requestOfLine line = .error refusal) :
    refusal.status = 400 ∨ refusal.status = 405 := by
  rcases Result.bind_eq_error.1 h with h | ⟨inbound, _, h⟩
  · obtain ⟨detail, rfl⟩ := HookRequest.malformed_of_ofLine h
    exact .inl rfl
  · rw [request_eq_error_iff, HookRequest.method?_eq_error_iff] at h
    rcases h with ⟨_, rfl⟩ | ⟨_, ⟨_, rfl, _⟩ | ⟨_, _, _, rfl⟩⟩
    · exact .inl rfl
    · exact .inr rfl
    · exact .inl rfl

end Endpoint

end SearchRelay
