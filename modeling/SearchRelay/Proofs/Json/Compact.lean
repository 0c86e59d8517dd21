import SearchRelay.Proofs.Json.Grammar
import SearchRelay.Proofs.Json.Object

/-!
# Compact text is JSON

What is written without blanks says what it was written for: a string its text,
a number its value, a list its items, an object its members.
-/

namespace SearchRelay.Json

theorem hexDigit_hexLower : ∀ n < 16, HexDigit (Ascii.hexLower n) n := by
  intro n h
  have digits : ∀ n < 16, "0123456789abcdef".toList[n]? = some (Ascii.hexLower n) := by decide
  exact .inl (digits n h)

theorem charText_escapeChar (c : Char) : CharText c (escapeChar c) := by
  unfold escapeChar
  split
  iterate 7 exact .short (by decide)
  next quote slash _ _ _ _ _ =>
    split
    · next low =>
      have unit : CodeUnit ['0', '0', Ascii.hexLower (c.toNat / 16), Ascii.hexLower (c.toNat % 16)]
          (4096 * 0 + 256 * 0 + 16 * (c.toNat / 16) + c.toNat % 16) :=
        .digits (hexDigit_hexLower 0 (by decide)) (hexDigit_hexLower 0 (by decide))
          (hexDigit_hexLower _ (by omega)) (hexDigit_hexLower _ (by omega))
      rw [show 4096 * 0 + 256 * 0 + 16 * (c.toNat / 16) + c.toNat % 16 = c.toNat by omega] at unit
      exact .unit unit
    · exact .plain (by omega) quote slash

theorem spells_escaped : ∀ text : List Char, Spells text (text.flatMap escapeChar)
  | [] => .nil
  | c :: text => .cons (charText_escapeChar c) (spells_escaped text)

theorem literal_writeText (text : String) : Literal text (writeText text) := ⟨_, spells_escaped text.toList, rfl⟩

theorem digits_writeNat (n : Nat) : Digits (writeNat n) := by
  refine ⟨Nat.toDigits_ne_nil, fun c hc => ?_⟩
  have digit := Nat.isDigit_of_mem_toDigits (by decide) (by decide) hc
  simpa only [Ascii.isDigit, Bool.and_eq_true, decide_eq_true_eq] using isDigit_ascii digit

theorem numeral_writeNat (n : Nat) : Numeral n (writeNat n) := by
  refine ⟨⟨digits_writeNat n, fun zero => ?_⟩, Nat.ofDigitChars_ten_toDigits⟩
  rcases Nat.eq_zero_or_pos n with rfl | pos
  · rfl
  · obtain ⟨c, digits, hd, hc⟩ := toDigits_pos n pos
    rw [writeNat, hd] at zero
    exact absurd (Option.some.inj zero) hc

theorem blank_nil : Blank [] := List.nil_subset _

theorem parts_intercalate {α : Type} {close : Char} {Says : α → List Char → Prop} {write : α → List Char} :
    ∀ {as : List α}, (∀ a ∈ as, Says a (write a)) → ∀ {first : Bool} {lead : List Char}, Lead first lead →
      as ≠ [] → Parts close Says first as (lead ++ ([','].intercalate (as.map write) ++ [close]))
  | [], _, _, _, _, full => absurd rfl full
  | [a], each, _, _, hl, _ => by
    simpa using Parts.part hl (each a List.mem_cons_self) (.close blank_nil)
  | a :: b :: as, each, _, lead, hl, _ => by
    have rest : Parts close Says false (b :: as) _ := parts_intercalate (fun c hc => each c (List.mem_cons_of_mem a hc))
      (.comma blank_nil blank_nil) (List.cons_ne_nil b as)
    have whole := Parts.part hl (each a List.mem_cons_self) rest
    simpa [List.intercalate_cons_cons] using whole

theorem parts_written {α : Type} {close : Char} {Says : α → List Char → Prop} {write : α → List Char}
    {as : List α} (each : ∀ a ∈ as, Says a (write a)) :
    Parts close Says true as ([','].intercalate (as.map write) ++ [close]) := by
  cases as with
  | nil => exact .close blank_nil
  | cons a as => exact parts_intercalate each (.first blank_nil) (List.cons_ne_nil a as)

theorem listText_writeList {α : Type} {Says : α → List Char → Prop} {write : α → List Char} {as : List α}
    (each : ∀ a ∈ as, Says a (write a)) : ListText Says as (writeList (as.map write)) :=
      ⟨_, parts_written each, rfl⟩

theorem memberText_writeMember {name : String} {value : List Char} {Says : List Char → Prop} (hv : Says value) :
    MemberText name Says (writeMember (name, value)) :=
  ⟨_, [], [], _, literal_writeText name, blank_nil, blank_nil, hv, rfl⟩

theorem objectText_writeObject {α : Type} {Part : α → List Char → Prop}
    {member : α → String × List Char} {as : List α}
    (each : ∀ a ∈ as, Part a (writeMember (member a))) : ObjectText Part as (writeObject (as.map member)) := by
  refine ⟨_, parts_written each, ?_⟩
  rw [writeObject, List.map_map]
  rfl

theorem dictText_writeDict (d : Dict) : DictText d (writeDict d) :=
  ⟨d.entries, (Dict.ofList_entries d).symm,
    objectText_writeObject fun (_, value) _ => memberText_writeMember (literal_writeText value)⟩

end SearchRelay.Json
