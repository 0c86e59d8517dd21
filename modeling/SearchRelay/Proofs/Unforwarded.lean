import SearchRelay.Proofs.Header
import SearchRelay.Proofs.Request

/-!
# What has no part in a request

Two requests of the hook that agree in what is forwarded lead to the same
request at the indexer, or to the same refusal: the segment that names the hook,
headers that do not pass, a name for the method that another one hides, and a
body that the method does not carry cannot be told from the result.
-/

namespace SearchRelay

def Header.isForwarded (header : String × String) : Bool :=
  Ascii.sameFold "Accept" header.1 || Ascii.sameFold "If-None-Match" header.1

theorem Header.isForwarded_eq (header : String × String) : isForwarded header = isListed requestNames header := by
  rw [isListed_eq]
  simp [isForwarded, requestNames]

theorem Header.keep_eq_of_forwarded {a b : List (String × String)} (h : a.filter isForwarded = b.filter isForwarded) :
    keep requestNames a = keep requestNames b := by
  have listed : isForwarded = isListed requestNames := funext isForwarded_eq
  rw [← keep_filter requestNames a, ← keep_filter requestNames b, ← listed, h]

namespace Endpoint

/-- Requests that agree in what is forwarded cannot be told apart. -/
theorem request_eq_of_forwarded (endpoint : Endpoint) {a b : HookRequest} {database hook hook' design index : String}
    (path : a.path = [database, hook, design, index]) (path' : b.path = [database, hook', design, index])
    (query : a.query = b.query) (method : a.methodName = b.methodName)
    (headers : a.headers.entries.filter Header.isForwarded = b.headers.entries.filter Header.isForwarded)
    (payload : ∀ name, a.methodName = some name → Ascii.sameFold "POST" name ∨ Ascii.sameFold "PUT" name →
      a.payload = b.payload) : endpoint.request a = endpoint.request b := by
  have kept := Header.keep_eq_of_forwarded headers
  have methods : a.method? = b.method? := by simp only [HookRequest.method?, method]
  have body : ∀ m, a.method? = .ok m →
      (if m.hasBody then a.payload else none) = if m.hasBody then b.payload else none := by
    intro m hm
    split
    · next carries =>
      obtain ⟨name, named, posted⟩ := HookRequest.methodName_of_hasBody hm carries
      exact payload name named posted
    · rfl
  simp only [request, path, path', ← query, ← kept, ← methods]
  cases hm : a.method? with
  | error refusal => rfl
  | ok m => simp only [bind, Except.bind, body m hm]

/-- A DELETE is the same under either name of the method, with any hook and body, and beside a header that could
not even be sent. -/
theorem request_eq_of_forwarded_delete :
    let endpoint : Endpoint := ⟨"http://localhost:5985", .command⟩
    let a : HookRequest := ⟨["db", "_fti", "d", "i"], .empty,
      Dict.ofList [("ACCEPT", "*"), ("Cookie", "\x01"), ("accept", "a")], some "delete", some "PATCH", some "left"⟩
    let b : HookRequest := ⟨["db", "?", "d", "i"], .empty,
      Dict.ofList [("ACCEPT", "*"), ("accept", "a")], none, some "delete", none⟩
    endpoint.request a = endpoint.request b ∧
      endpoint.request b = .ok ⟨.delete, "http://localhost:5985/info/db/d/i", [("Accept", "a")], none⟩ := by
  intro endpoint a b
  refine ⟨request_eq_of_forwarded endpoint rfl rfl rfl rfl (by decide) fun name named posted => ?_,
    by decide +kernel⟩
  have delete : name = "delete" := (Option.some.inj named).symm
  subst delete
  exact absurd posted (by decide)

end Endpoint

end SearchRelay
