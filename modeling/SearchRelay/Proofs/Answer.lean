import SearchRelay.HookAnswer
import SearchRelay.Proofs.Json.Object
import SearchRelay.Proofs.Text.Utf8

/-!
# Answers read back

The line of an answer is the answer: whatever stands in its headers and its
body, reading the text gives it back. No character of the text is a control, so
neither is any byte of the line.
-/

namespace SearchRelay

namespace HookAnswer

open Json

theorem printable_toText {answer : HookAnswer} {x : Char} (h : x ∈ answer.toText) : 0x20 ≤ x.toNat := by
  refine printable_writeObject (fun member hm y hy => ?_) h
  simp only [List.cons_append, List.mem_cons, List.mem_append, List.not_mem_nil, or_false] at hm
  rcases hm with rfl | hm | rfl
  · exact printable_writeNat hy
  · cases hh : answer.headers with
    | none => rw [hh] at hm; cases hm
    | some d =>
      rw [hh, optionalMember, List.mem_singleton] at hm
      subst hm
      exact printable_writeDict hy
  · exact printable_writeText hy

/-! ## Reading an answer -/

theorem find_code : ∃ field, record.fields.find? (fun f => f.name == "code") = some field ∧
    (∀ x : Draft, field.filled x = x.code.isSome) ∧
    ∀ (code : UInt16) (x : Draft) (rest : List Char), EndsNumber rest →
      field.read x (writeNat code.toNat ++ rest) = .ok ({ x with code := some code.toNat }, rest) := by
  refine ⟨_, rfl, fun _ => rfl, fun code x rest h => ?_⟩
  exact Field.read_of (readWord16_writeNat code.toNat_lt h)

theorem find_headers : ∃ field, record.fields.find? (fun f => f.name == "headers") = some field ∧
    (∀ x : Draft, field.filled x = x.headers.isSome) ∧
    ∀ (d : Dict) (x : Draft) (rest : List Char),
      field.read x (writeDict d ++ rest) = .ok ({ x with headers := some (some d) }, rest) :=
  ⟨_, rfl, fun _ => rfl, fun d _ rest => Field.read_of (read_orNull_dict d rest)⟩

theorem find_body : ∃ field, record.fields.find? (fun f => f.name == "body") = some field ∧
    (∀ x : Draft, field.filled x = x.body.isSome) ∧
    ∀ (body : String) (x : Draft) (rest : List Char),
      field.read x (writeText body ++ rest) = .ok ({ x with body := some body }, rest) :=
  ⟨_, rfl, fun _ => rfl, fun body _ rest => Field.read_of (readString_writeText body rest)⟩

def Draft.ofAnswer (answer : HookAnswer) : Draft :=
  ⟨some answer.code.toNat, answer.headers.map some, some answer.body⟩

theorem finish_ofAnswer (answer : HookAnswer) : (Draft.ofAnswer answer).finish = answer := by
  cases answer with
  | mk code headers body => cases headers <;> simp [Draft.ofAnswer, Draft.finish]

theorem readMembers_toText (answer : HookAnswer) (rest : List Char) :
    record.readMembers true .empty (membersText true
      (("code", writeNat answer.code.toNat) :: optionalMember "headers" writeDict answer.headers ++
        [("body", writeText answer.body)]) ++ rest) = .ok (.ofAnswer answer, rest) := by
  obtain ⟨code, foundCode, filledCode, readCode⟩ := find_code
  obtain ⟨headers, foundHeaders, filledHeaders, readHeaders⟩ := find_headers
  obtain ⟨body, foundBody, filledBody, readBody⟩ := find_body
  have last : ∀ x : Draft, x.code.isSome = true → x.body = none →
      record.readMembers false x (membersText false [("body", writeText answer.body)] ++ rest) =
        .ok ({ x with body := some answer.body }, rest) := by
    intro x hc hb
    rw [Record.readMembers_membersText foundBody (by rw [filledBody, hb]; rfl) (readBody _ _ _)]
    refine Record.readMembers_stop (nextKey_stop false rest) ?_
    simp [record, Field.of, hc]
  rw [List.cons_append, Record.readMembers_membersText foundCode (by rw [filledCode]; rfl)
    (readCode _ _ _ (endsNumber_membersText rest))]
  cases h : answer.headers with
  | none =>
    rw [optionalMember, List.nil_append, last _ rfl rfl, Draft.ofAnswer, h]
    rfl
  | some d =>
    rw [optionalMember, List.singleton_append,
      Record.readMembers_membersText foundHeaders (by rw [filledHeaders]; rfl) (readHeaders _ _ _),
      last _ rfl rfl, Draft.ofAnswer, h]
    rfl

theorem ofText_toText (answer : HookAnswer) : ofText answer.toText = .ok answer := by
  have members := readMembers_toText answer []
  rw [List.append_nil] at members
  rw [toText, ofText, Record.readAll_writeObject members]
  exact congrArg Except.ok (finish_ofAnswer answer)

/-! ## The bytes of a line -/

theorem feed_not_mem_toText (answer : HookAnswer) : '\n' ∉ answer.toText := by
  intro h
  exact absurd (printable_toText h) (by decide)

end HookAnswer

end SearchRelay
