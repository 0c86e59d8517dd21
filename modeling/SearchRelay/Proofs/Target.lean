import SearchRelay.Proofs.Readback
import SearchRelay.Proofs.Sendable

/-!
# Reading the address of a request as a target

On the wire the address of a request is no URL but a target, read without any
changes: what stands between the server and the query is the path, slashes and
escapes included.
-/

namespace SearchRelay

namespace Uri

/-! ## Targets with a server -/

def queryText (query : Option (List Char)) : List Char := (query.map ('?' :: ·)).getD []

theorem ends_queryText (query : Option (List Char)) : ∀ c ∈ (queryText query).head?, c = '?' := by
  cases query <;> simp [queryText]

theorem readPath_queryText {path : List Char} {query : Option (List Char)} (hp : ∀ c ∈ path, isPathChar c = true)
    (hq : ∀ q ∈ query, ∀ c ∈ q, isQueryChar c = true) :
    readPath (path ++ queryText query) = .ok (path, query) := by
  have inPath : ∀ c ∈ path, (c != '?' && c != '#') = true := by
    intro c hc
    simp only [Bool.and_eq_true, bne_iff_ne]
    constructor <;> rintro rfl <;> exact absurd (hp _ hc) (by decide)
  have cut := span_append (b := queryText query) inPath fun c hc => by rw [ends_queryText query c hc]; rfl
  simp only [readPath, cut, List.all_eq_true.2 hp, Bool.not_true, Bool.false_eq_true, if_false]
  cases query with
  | none => rfl
  | some q =>
    have inQuery : q.takeWhile (· != '#') = q := by
      rw [List.takeWhile_eq_self_iff]
      intro c hc
      rw [bne_iff_ne]
      rintro rfl
      exact absurd (hq q rfl _ hc) (by decide)
    simp only [queryText, Option.map_some, Option.getD_some, inQuery, List.all_eq_true.2 (hq q rfl), if_true]

theorem readScheme_http (rest : List Char) :
    readScheme ("http://".toList ++ rest) = .ok (some "http".toList, rest) := rfl

theorem readAuthority_append {authority rest : List Char} (ha : checkAuthority authority = .ok ())
    (inside : ∀ c ∈ authority, endsAuthority c = false) (ends : ∀ c ∈ rest.head?, endsAuthority c = true) :
    readAuthority (authority ++ rest) = .ok (authority, rest) := by
  have cut : (authority ++ rest).span (!endsAuthority ·) = (authority, rest) :=
    span_append (fun c hc => by rw [inside c hc]; rfl) fun c hc => by rw [ends c hc]; rfl
  simp only [readAuthority, cut, ha, bind, Except.bind, pure, Except.pure]

theorem readFull_http {text authority rest path : List Char} {query : Option (List Char)}
    (server : readAuthority text = .ok (authority, rest)) (content : text ≠ []) (full : authority ≠ [])
    (after : readPath rest = .ok (path, query)) :
    readFull ("http://".toList ++ text) = .ok ⟨some "http".toList, some authority, path, query⟩ := by
  simp only [readFull, readScheme_http, bind, Except.bind, List.isEmpty_iff, content, if_false, server,
    full, after, pure, Except.pure]

theorem parse_http {text authority path : List Char} {query : Option (List Char)}
    (ht : text = "http://".toList ++ (authority ++ ('/' :: path ++ queryText query))) (short : Utf8.size text ≤ 65534)
    (full : authority ≠ []) (ha : checkAuthority authority = .ok ())
    (inside : ∀ c ∈ authority, endsAuthority c = false) (hp : ∀ c ∈ '/' :: path, isPathChar c = true)
    (hq : ∀ q ∈ query, ∀ c ∈ q, isQueryChar c = true) :
    parse text = .ok ⟨some "http".toList, some authority, '/' :: path, query⟩ := by
  have server :
      readAuthority (authority ++ ('/' :: path ++ queryText query)) = .ok (authority, '/' :: path ++ queryText query) :=
    readAuthority_append ha inside fun c hc => by cases hc; rfl
  have whole : parse text = readFull text := by
    unfold parse
    rw [if_neg (Nat.not_lt.2 short), ht]
    rfl
  rw [whole, ht]
  exact readFull_http server (by simp) full (readPath_queryText hp hq)

end Uri

namespace Endpoint

open Url

/-! ## Addresses -/

theorem isPathChar_of_mem_joined {segments : List String} {c : Char} (h : c ∈ '/' :: joined segments) :
    Uri.isPathChar c = true := by
  by_cases slash : c = '/'
  · rw [slash]
    rfl
  · obtain ⟨segment, -, hc⟩ := mem_joined (List.mem_of_ne_of_mem slash h) slash
    rcases Percent.mem_encode hc with ⟨-, kept⟩ | escaping
    · exact of_isWritten (p := Percent.isUnreserved) (by decide) (isWritten_of_isUnreserved kept) kept
    · exact of_isWritten (p := Percent.isEscaping) (by decide) (isWritten_of_isEscaping escaping) escaping

theorem isQueryChar_of_mem_form {entries : List (String × String)} {c : Char} (h : c ∈ Form.encode entries) :
    Uri.isQueryChar c = true := by
  have marks : ∀ d ∈ ['&', '=', '+'], Uri.isQueryChar d = true := List.all_iff_forall_prop.1 (by decide)
  rcases Form.mem_encode h with mark | kept | escaping
  · exact marks c mark
  · exact of_isWritten (p := Form.isKept) (by decide) (isWritten_of_isKept kept) kept
  · exact of_isWritten (p := Percent.isEscaping) (by decide) (isWritten_of_isEscaping escaping) escaping

theorem queryPart_eq (query : Dict) : queryPart query = Uri.queryText (queryOf query) := by
  unfold queryPart queryOf
  split <;> rfl

/-- The target that the address of a request at a server says, if it is not too long for one. -/
theorem parse_address {endpoint : Endpoint} {authority : List Char} {segments : List String} {query : Dict}
    (base : endpoint.baseUrl.toList = "http://".toList ++ authority) (full : authority ≠ [])
    (ha : Uri.checkAuthority authority = .ok ()) (inside : ∀ c ∈ authority, Uri.endsAuthority c = false)
    (hs : segments ≠ []) (short : Utf8.size (endpoint.url segments query).toList ≤ 65534) :
    Uri.parse (endpoint.url segments query).toList =
      .ok ⟨some "http".toList, some authority, '/' :: joined segments, queryOf query⟩ := by
  have address : (endpoint.url segments query).toList =
      "http://".toList ++ (authority ++ ('/' :: joined segments ++ Uri.queryText (queryOf query))) := by
    rw [url, String.toList_ofList, base, urlTail_eq hs, queryPart_eq, List.append_assoc, List.cons_append]
  refine Uri.parse_http address short full ha inside (fun c => isPathChar_of_mem_joined) fun q hq c hc => ?_
  unfold queryOf at hq
  split at hq
  · cases hq
  · cases hq
    exact isQueryChar_of_mem_form hc

end Endpoint

end SearchRelay
