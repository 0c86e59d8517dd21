import SearchRelay.Proofs.Answer
import SearchRelay.Proofs.HookLine
import SearchRelay.Proofs.Request
import SearchRelay.Proofs.Text.Pieces

/-!
# Lines read back

Requests and answers are written without a control, so each of them is one line,
and a line reads back as what it was written for. To write down what was read and
to read it again makes no difference, however the first line was spelled.
-/

namespace SearchRelay

namespace Utf8

theorem le_of_mem_encode {text : List Char} (printable : ∀ c ∈ text, 0x20 ≤ c.toNat) {b : UInt8}
    (hb : b ∈ encode text) : 0x20 ≤ b := by
  obtain ⟨c, hc, hb⟩ := List.mem_flatMap.1 hb
  rw [UInt8.le_iff_toNat_le]
  show 0x20 ≤ b.toNat
  rcases Nat.lt_or_ge 0x7F c.toNat with wide | ascii
  · have high := high_of_mem_encodeChar wide hb
    omega
  · rw [encodeChar_of_ascii ascii, List.mem_singleton] at hb
    rw [hb, toNat_ofNat_byte (by omega)]
    exact printable c hc

end Utf8

/-! ## Answers -/

namespace HookAnswer

theorem ofText_toLine (answer : HookAnswer) : ofText answer.toLine.toList = .ok answer := by
  rw [toLine, String.toList_ofList]
  exact answer.ofText_toText

theorem toLine_inj {a b : HookAnswer} : a.toLine = b.toLine ↔ a = b := by
  constructor
  · intro same
    have read := a.ofText_toLine
    rw [same, ofText_toLine] at read
    exact (Except.ok.inj read).symm
  · rintro rfl
    rfl

/-- An answer is told by its line, which holds no control. Whether there are headers is told too: an answer without
them is not one with empty headers. -/
theorem answer_of_line :
    (∀ answer : HookAnswer, (∀ b ∈ Utf8.encode answer.toLine.toList, 0x20 ≤ b) ∧
      ofText answer.toLine.toList = .ok answer) ∧
    (∀ a b : HookAnswer, a.toLine = b.toLine ↔ a = b) ∧
    ∀ text : List Char, (ofText text >>= fun answer => ofText answer.toLine.toList) = ofText text := by
  refine ⟨?_, fun _ _ => toLine_inj, ?_⟩
  · intro answer
    refine ⟨fun b hb => ?_, answer.ofText_toLine⟩
    rw [toLine, String.toList_ofList] at hb
    exact Utf8.le_of_mem_encode (fun _ => printable_toText) hb
  · intro text
    calc (ofText text >>= fun answer => ofText answer.toLine.toList)
      _ = ofText text >>= pure := bind_congr ofText_toLine
      _ = ofText text := bind_pure _

-- empty headers are written, and no headers are not
example : (⟨304, some .empty, ""⟩ : HookAnswer).toLine =
    "\x7b\"code\":304,\"headers\":\x7b\x7d,\"body\":\"\"\x7d" ∧
    (⟨304, none, ""⟩ : HookAnswer).toLine = "\x7b\"code\":304,\"body\":\"\"\x7d" := ⟨rfl, rfl⟩

end HookAnswer

/-! ## Requests -/

namespace Json

theorem printable_writeTexts {texts : List String} {x : Char} (h : x ∈ writeTexts texts) : 0x20 ≤ x.toNat := by
  simp only [writeTexts, writeList, List.cons_append, List.mem_cons, List.mem_append, List.not_mem_nil, or_false] at h
  rcases h with rfl | h | rfl
  · decide
  · rcases mem_intercalate h with rfl | ⟨piece, hp, hx⟩
    · decide
    · obtain ⟨text, _, rfl⟩ := List.mem_map.1 hp
      exact printable_writeText hx
  · decide

end Json

namespace HookRequest

open Json

theorem Member.printable_write {m : Member} {x : Char} (h : x ∈ m.write) : 0x20 ≤ x.toNat := by
  have optional : ∀ text : Option String, x ∈ (text.map writeText).getD [] → 0x20 ≤ x.toNat := by
    intro text hx
    cases text with
    | none => cases hx
    | some text => exact printable_writeText hx
  cases m with
  | path names => exact printable_writeTexts h
  | query entries => exact printable_writeDict h
  | headers entries => exact printable_writeDict h
  | method name => exact optional name h
  | verb name => exact optional name h
  | body text => exact optional text h
  | other name unknown => cases h

theorem printable_toText {inbound : HookRequest} {x : Char} (h : x ∈ inbound.toText) : 0x20 ≤ x.toNat := by
  rw [toText_eq] at h
  apply printable_writeObject _ h
  intro member hm y hy
  obtain ⟨m, _, rfl⟩ := List.mem_map.1 hm
  exact Member.printable_write hy

/-- A request is told by its line, and a line may be replaced by the one that its request is written as. -/
theorem request_of_line :
    (∀ inbound : HookRequest, 10 ∉ Utf8.encode inbound.toLine.toList ∧ ofLine inbound.toLine = .ok inbound) ∧
    (∀ line : String, (ofLine line >>= fun inbound => ofLine inbound.toLine) = ofLine line) ∧
    ∀ (endpoint : Endpoint) (line : String),
      (ofLine line >>= fun inbound => endpoint.requestOfLine inbound.toLine) = endpoint.requestOfLine line := by
  refine ⟨?_, ?_, ?_⟩
  · intro inbound
    refine ⟨fun feed => ?_, inbound.ofLine_written⟩
    rw [toLine, String.toList_ofList] at feed
    exact absurd (Utf8.le_of_mem_encode (fun _ => printable_toText) feed) (by decide)
  · intro line
    calc (ofLine line >>= fun inbound => ofLine inbound.toLine)
      _ = ofLine line >>= pure := bind_congr ofLine_written
      _ = ofLine line := bind_pure _
  · intro endpoint line
    exact bind_congr fun inbound => endpoint.requestOfLine_of_ok inbound.ofLine_written

end HookRequest

end SearchRelay
