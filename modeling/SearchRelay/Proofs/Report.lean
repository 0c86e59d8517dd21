import Mathlib.Data.List.Forall2
import Mathlib.Data.List.Sort
import SearchRelay.Endpoint
import SearchRelay.Proofs.Header.Spelling
import SearchRelay.Proofs.Json.Compact
import SearchRelay.Proofs.RoundTrip

/-!
# What is reported for an answer

The line for an answer of the indexer has its status and its body, and of its
headers at most the type of the content and the tag, under these names and in
this order. It does not depend on other headers, nor on how the names of these
two are spelled.
-/

namespace SearchRelay

/-! ## The members of a line -/

namespace HookAnswer

open Json

inductive Member where
  | code (status : UInt16)
  | headers (entries : List (String × String))
  | body (text : String)

def Member.Says : Member → List Char → Prop
  | code status => MemberText "code" (Numeral status.toNat)
  | headers entries => MemberText "headers" (ObjectText (fun entry => MemberText entry.1 (Literal entry.2)) entries)
  | body text => MemberText "body" (Literal text)

def Member.write : Member → String × List Char
  | code status => ("code", writeNat status.toNat)
  | headers entries => ("headers", writeObject (entries.map fun (name, value) => (name, writeText value)))
  | body text => ("body", writeText text)

theorem Member.says_write : ∀ m : Member, m.Says (writeMember m.write)
  | code status => memberText_writeMember (numeral_writeNat status.toNat)
  | headers _ =>
    memberText_writeMember (objectText_writeObject fun (_, value) _ => memberText_writeMember (literal_writeText value))
  | body text => memberText_writeMember (literal_writeText text)

def members (answer : HookAnswer) : List Member :=
  .code answer.code :: (answer.headers.map fun headers => .headers headers.entries).toList ++ [.body answer.body]

theorem objectText_toText (answer : HookAnswer) : ObjectText Member.Says answer.members answer.toText := by
  have text : answer.toText = writeObject (answer.members.map Member.write) := by
    rw [toText, members]
    cases answer.headers <;> rfl
  rw [text]
  exact objectText_writeObject fun m _ => m.says_write

end HookAnswer

/-! ## Entries in order -/

namespace Dict

theorem mem_entries_ofList {pairs : List (String × String)} (once : (pairs.map Prod.fst).Nodup) {key value : String} :
    (key, value) ∈ (ofList pairs).entries ↔ (key, value) ∈ pairs := by
  have ascending : ((ofList pairs).entries.map Prod.fst).Pairwise (· < ·) := List.pairwise_map.2 (ofList pairs).sorted
  rw [mem_iff_lookup ascending.nodup, ← get?, get?_ofList_eq_some_iff once]

theorem sublist_of_subset {d : Dict} {keys : List String} (ascending : keys.Pairwise (· < ·))
    (h : d.entries.map Prod.fst ⊆ keys) : (d.entries.map Prod.fst).Sublist keys := by
  have own : (d.entries.map Prod.fst).Pairwise (· < ·) := List.pairwise_map.2 d.sorted
  exact List.sublist_of_subperm_of_pairwise (List.subperm_of_subset own.nodup h) own ascending

end Dict

/-! ## Spellings -/

namespace Header

def goesBack (header : String × String) : Bool := spells "Content-Type" header || spells "ETag" header

theorem goesBack_iff {header : String × String} :
    goesBack header = true ↔ ∃ name ∈ ["Content-Type", "ETag"], spells name header = true := by
  simp [goesBack]

theorem goesBack_eq (header : String × String) : goesBack header = isListed answerNames header := by
  rw [isListed_eq]
  simp [goesBack, spells, answerNames]

theorem exists_gives {headers : List (String × String)} {name : String} {header : String × String}
    (hm : header ∈ headers) (spelled : spells name header = true) : ∃ value, Gives headers name value := by
  cases found : headers.reverse.find? (spells name) with
  | none => exact absurd spelled (List.find?_eq_none.1 found header (List.mem_reverse.2 hm))
  | some last => exact ⟨last.2, gives_iff.2 ⟨last.1, found⟩⟩

/-- The same headers, but for the case of letters in their names. -/
def SameButCase (a b : List (String × String)) : Prop :=
  List.Forall₂ (fun x y => Ascii.sameFold x.1 y.1 = true ∧ x.2 = y.2) a b

theorem canonical?_congr (names : List String) {a b : String} (h : Ascii.sameFold a b = true) :
    canonical? names a = canonical? names b := by
  have same : ∀ name, Ascii.sameFold name a = Ascii.sameFold name b := by
    intro name
    rw [Bool.eq_iff_iff, Ascii.sameFold_iff, Ascii.sameFold_iff, Ascii.sameFold_iff.1 h]
  rw [canonical?, canonical?, funext same]

theorem foldl_take_of_sameButCase (names : List String) {a b : List (String × String)} (h : SameButCase a b) :
    ∀ kept : List (String × String), a.foldl (take names) kept = b.foldl (take names) kept := by
  induction h with
  | nil => exact fun _ => rfl
  | cons same _ ih =>
    intro kept
    rw [List.foldl_cons, List.foldl_cons, take, take, canonical?_congr names same.1, same.2]
    exact ih _

theorem keep_of_sameButCase {a b : List (String × String)} (h : SameButCase (a.filter goesBack) (b.filter goesBack)) :
    keep answerNames a = keep answerNames b := by
  have listed : goesBack = isListed answerNames := funext goesBack_eq
  rw [← keep_filter answerNames a, ← keep_filter answerNames b, ← listed]
  exact foldl_take_of_sameButCase answerNames h []

end Header

namespace Endpoint

/-! ## Headers that go back -/

def reported (answer : IndexerAnswer) : List (String × String) :=
  if answer.status < 400 then (Dict.ofList (Header.keep Header.answerNames answer.headers)).entries else []

variable {answer : IndexerAnswer}

theorem mem_reported_iff {name value : String} : (name, value) ∈ reported answer ↔
    answer.status < 400 ∧ name ∈ ["Content-Type", "ETag"] ∧ Header.Gives answer.headers name value := by
  have once := (Header.kept_keep Header.answerNames answer.headers).once
  unfold reported
  split
  · next passes =>
    rw [Dict.mem_entries_ofList once, Header.mem_keep_iff Header.apart_answerNames]
    simp [passes, Header.answerNames]
  · next fails => simp [fails]

theorem names_reported (answer : IndexerAnswer) :
    ((reported answer).map Prod.fst).Sublist ["Content-Type", "ETag"] := by
  have listed : (reported answer).map Prod.fst ⊆ ["Content-Type", "ETag"] := by
    intro name hn
    obtain ⟨⟨_, value⟩, hm, rfl⟩ := List.mem_map.1 hn
    exact (mem_reported_iff.1 hm).2.1
  unfold reported at listed ⊢
  split
  · next passes =>
    rw [if_pos passes] at listed
    exact Dict.sublist_of_subset (by decide) listed
  · exact List.nil_sublist _

theorem reported_ne_nil_iff :
    reported answer ≠ [] ↔
      answer.status < 400 ∧ ∃ header ∈ answer.headers, Header.goesBack header = true := by
  constructor
  · intro full
    obtain ⟨⟨name, value⟩, hm⟩ := List.exists_mem_of_ne_nil _ full
    obtain ⟨passes, listed, before, key, after, split, spelled, _⟩ := mem_reported_iff.1 hm
    refine ⟨passes, (key, value), by simp [split], ?_⟩
    exact Header.goesBack_iff.2 ⟨name, listed, spelled⟩
  · intro ⟨passes, header, hm, back⟩
    obtain ⟨name, listed, spelled⟩ := Header.goesBack_iff.1 back
    obtain ⟨value, gives⟩ := Header.exists_gives hm spelled
    exact List.ne_nil_of_mem (mem_reported_iff.2 ⟨passes, listed, gives⟩)

theorem reported_eq_nil_iff : reported answer = [] ↔
    400 ≤ answer.status ∨ ∀ header ∈ answer.headers, Header.goesBack header = false := by
  rw [← not_iff_not, ← ne_eq, reported_ne_nil_iff, not_or, UInt16.not_le]
  simp

theorem entries_answerHeaders (answer : IndexerAnswer) : (answerHeaders answer).map Dict.entries =
    if reported answer = [] then none else some (reported answer) := by
  have once := (Header.kept_keep Header.answerNames answer.headers).once
  unfold answerHeaders reported
  by_cases passes : answer.status < 400
  · rw [if_pos passes, if_pos passes]
    cases kept : Header.keep Header.answerNames answer.headers with
    | nil => rfl
    | cons first rest =>
      rw [kept] at once
      have full : (Dict.ofList (first :: rest)).entries ≠ [] :=
        List.ne_nil_of_mem ((Dict.mem_entries_ofList once).2 List.mem_cons_self)
      rw [if_neg full]
      rfl
  · simp [passes]

/-! ## Lines -/

open Json HookAnswer in
/-- What the line for an answer says, and which headers it has. -/
structure Reports (answer : IndexerAnswer) (line : List Char) (headers : List (String × String)) : Prop where
  names : (headers.map Prod.fst).Sublist ["Content-Type", "ETag"]
  values : ∀ name value, (name, value) ∈ headers ↔
    answer.status < 400 ∧ name ∈ ["Content-Type", "ETag"] ∧ Header.Gives answer.headers name value
  absent : headers = [] ↔ 400 ≤ answer.status ∨ ∀ header ∈ answer.headers, Header.goesBack header = false
  text : ObjectText Member.Says
    (.code answer.status :: (if headers = [] then [] else [.headers headers]) ++ [.body answer.body]) line
  read : ∃ read, ofText line = .ok read ∧ read.code = answer.status ∧ read.body = answer.body ∧
    read.headers.map Dict.entries = if headers = [] then none else some headers

theorem reports (answer : IndexerAnswer) : Reports answer (report answer).toLine.toList (reported answer) where
  names := names_reported answer
  values := fun _ _ => mem_reported_iff
  absent := reported_eq_nil_iff
  text := by
    have members : (report answer).members = .code answer.status ::
        (if reported answer = [] then [] else [.headers (reported answer)]) ++ [.body answer.body] := by
      have headers := entries_answerHeaders answer
      rw [HookAnswer.members, report]
      cases h : answerHeaders answer with
      | none =>
        rw [h] at headers
        split at headers
        · next none => simp [none]
        · cases headers
      | some d =>
        rw [h] at headers
        split at headers
        · cases headers
        · next full =>
          rw [if_neg full, ← Option.some.inj headers]
          rfl
    rw [HookAnswer.toLine, String.toList_ofList, ← members]
    exact (report answer).objectText_toText
  read := ⟨report answer, (report answer).ofText_toLine, rfl, rfl, entries_answerHeaders answer⟩

/-- The line for an answer has its status and its body, and the headers that go back, if there are any. Nothing else
about the headers can be told from it. -/
theorem line_of_report (answer : IndexerAnswer) :
    (∃ headers, Reports answer (report answer).toLine.toList headers) ∧
    ∀ other : IndexerAnswer, other.status = answer.status → other.body = answer.body →
      Header.SameButCase (other.headers.filter Header.goesBack) (answer.headers.filter Header.goesBack) →
        (report other).toLine = (report answer).toLine := by
  refine ⟨⟨reported answer, reports answer⟩, ?_⟩
  intro other status body headers
  rw [report, report, answerHeaders, answerHeaders, status, body, Header.keep_of_sameButCase headers]

/-- The last spelling of each name gives its value, and the type comes first. Other headers, wherever they stand, and
the case of the names make no difference. -/
theorem line_of_report_spelled_apart :
    let answer : IndexerAnswer :=
      ⟨203, [("etag", "a"), ("Server", "s"), ("CONTENT-TYPE", "t"), ("ETAG", "\"b")], "x\n"⟩
    let other : IndexerAnswer :=
      ⟨203, [("Age", "0"), ("ETag", "a"), ("content-type", "t"), ("Age", "1"), ("eTaG", "\"b")], "x\n"⟩
    Reports answer (report answer).toLine.toList [("Content-Type", "t"), ("ETag", "\"b")] ∧
      (report other).toLine = (report answer).toLine := by
  intro answer other
  obtain ⟨⟨headers, reports⟩, same⟩ := line_of_report answer
  refine ⟨?_, same other rfl rfl ?_⟩
  · obtain ⟨read, line, -, -, kept⟩ := reports.read
    have own := (report answer).ofText_toLine
    rw [line, Except.ok.injEq] at own
    have found : (report answer).headers.map Dict.entries = some [("Content-Type", "t"), ("ETag", "\"b")] := by
      decide +kernel
    rw [own, found] at kept
    split at kept
    · cases kept
    · rw [Option.some.inj kept]
      exact reports
  · have left : other.headers.filter Header.goesBack =
      [("ETag", "a"), ("content-type", "t"), ("eTaG", "\"b")] := by decide
    have right : answer.headers.filter Header.goesBack =
      [("etag", "a"), ("CONTENT-TYPE", "t"), ("ETAG", "\"b")] := by decide
    rw [left, right]
    exact .cons (by decide) (.cons (by decide) (.cons (by decide) .nil))

end Endpoint

end SearchRelay
