import SearchRelay.Form
import SearchRelay.Proofs.Text.Pieces
import SearchRelay.Proofs.Text.Utf8

/-!
# Reading escaped text back

An escape is read as the byte that was written, whatever follows it, and a kept
character as itself. So a segment gives its text again, and a query its pairs:
no written character is the one that ends a name, a value or a pair.
-/

namespace SearchRelay

namespace Percent

/-! ## Escapes -/

theorem hexValue?_hexUpper {n : Nat} (h : n < 16) : Ascii.hexValue? (Ascii.hexUpper n) = some n := by
  interval_cases n <;> rfl

theorem byte?_hexUpper (b : UInt8) :
    byte? (Ascii.hexUpper (b.toNat / 16)) (Ascii.hexUpper (b.toNat % 16)) = some b := by
  have hb : b.toNat < 256 := b.toNat_lt
  rw [byte?, hexValue?_hexUpper (by omega), hexValue?_hexUpper (by omega)]
  show some (UInt8.ofNat (16 * (b.toNat / 16) + b.toNat % 16)) = some b
  rw [Nat.div_add_mod, UInt8.ofNat_toNat]

theorem decode_escape (b : UInt8) (rest : List Char) : decode (escape b ++ rest) = b :: decode rest := by
  rw [escape, List.cons_append, List.cons_append, List.cons_append, List.nil_append, decode, byte?_hexUpper]

theorem decode_escapes (rest : List Char) : ∀ bytes : List UInt8,
    decode (bytes.flatMap escape ++ rest) = bytes ++ decode rest
  | [] => rfl
  | b :: bytes => by rw [List.flatMap_cons, List.append_assoc, decode_escape, decode_escapes rest bytes]; rfl

theorem decode_cons {c : Char} (h : c ≠ '%') (rest : List Char) :
    decode (c :: rest) = String.utf8EncodeChar c ++ decode rest := by
  rw [decode]
  exact fun _ _ _ hc => absurd hc h

/-! ## Texts -/

theorem decode_encodeChar {keep : Char → Bool} (h : keep '%' = false) (c : Char) (rest : List Char) :
    decode (encodeChar keep c ++ rest) = String.utf8EncodeChar c ++ decode rest := by
  unfold encodeChar
  split
  · next hc =>
    refine decode_cons (fun he => ?_) rest
    rw [he, h] at hc
    cases hc
  · exact decode_escapes rest _

theorem decode_encode {keep : Char → Bool} (h : keep '%' = false) : ∀ text : List Char,
    decode (encode keep text) = Utf8.encode text
  | [] => rfl
  | c :: text => by
    have ih := decode_encode h text
    rw [encode] at ih ⊢
    rw [List.flatMap_cons, decode_encodeChar h, ih, Utf8.encode_cons]

theorem decodeSegment?_encodeSegment (text : String) : decodeSegment? (encodeSegment text) = some text := by
  rw [decodeSegment?, encodeSegment, decode_encode (by decide), Utf8.decode?_encode, Option.map_some,
    String.ofList_toList]

theorem encodeSegment_inj {a b : String} : encodeSegment a = encodeSegment b ↔ a = b := by
  refine ⟨fun h => ?_, congrArg encodeSegment⟩
  have same := decodeSegment?_encodeSegment a
  rw [h, decodeSegment?_encodeSegment] at same
  exact (Option.some.inj same).symm

/-! ## The characters that are written -/

def isEscaping (c : Char) : Bool := c == '%' || Ascii.isDigit c || ('A' ≤ c && c ≤ 'F')

theorem isEscaping_hexUpper {n : Nat} (h : n < 16) : isEscaping (Ascii.hexUpper n) = true := by
  interval_cases n <;> rfl

theorem isEscaping_of_mem_escape {b : UInt8} {c : Char} (h : c ∈ escape b) : isEscaping c = true := by
  have hb : b.toNat < 256 := b.toNat_lt
  simp only [escape, List.mem_cons, List.not_mem_nil, or_false] at h
  rcases h with rfl | rfl | rfl
  · rfl
  · exact isEscaping_hexUpper (by omega)
  · exact isEscaping_hexUpper (by omega)

theorem mem_encodeChar {keep : Char → Bool} {c x : Char} (h : x ∈ encodeChar keep c) :
    (x = c ∧ keep x = true) ∨ isEscaping x = true := by
  unfold encodeChar at h
  split at h
  · next hc =>
    rw [List.mem_singleton] at h
    subst h
    exact .inl ⟨rfl, hc⟩
  · obtain ⟨b, _, hx⟩ := List.mem_flatMap.1 h
    exact .inr (isEscaping_of_mem_escape hx)

theorem mem_encode {keep : Char → Bool} {text : List Char} {x : Char} (h : x ∈ encode keep text) :
    (x ∈ text ∧ keep x = true) ∨ isEscaping x = true := by
  obtain ⟨c, hc, hx⟩ := List.mem_flatMap.1 h
  rcases mem_encodeChar hx with ⟨rfl, hk⟩ | he
  · exact .inl ⟨hc, hk⟩
  · exact .inr he

theorem not_mem_encode {keep : Char → Bool} {x : Char} (hk : keep x = false) (he : isEscaping x = false)
    (text : List Char) : x ∉ encode keep text := by
  intro h
  rcases mem_encode h with ⟨_, h⟩ | h
  · rw [hk] at h; cases h
  · rw [he] at h; cases h

end Percent

namespace Form

theorem encodeText_cons (c : Char) (text : List Char) :
    encodeText (String.ofList (c :: text)) =
      (if c = ' ' then ['+'] else Percent.encodeChar isKept c) ++ encodeText (String.ofList text) := by
  simp [encodeText]

theorem mem_encodeText {text : String} {x : Char} (h : x ∈ encodeText text) :
    x = '+' ∨ isKept x = true ∨ Percent.isEscaping x = true := by
  obtain ⟨c, _, hx⟩ := List.mem_flatMap.1 h
  split at hx
  · exact .inl (List.mem_singleton.1 hx)
  · exact .inr ((Percent.mem_encodeChar hx).imp_left And.right)

theorem not_mem_encodeText {x : Char} (hp : x ≠ '+') (hk : isKept x = false) (he : Percent.isEscaping x = false)
    (text : String) : x ∉ encodeText text := by
  intro h
  rcases mem_encodeText h with h | h | h
  · exact hp h
  · rw [hk] at h; cases h
  · rw [he] at h; cases h

/-! ## Texts -/

theorem plusToSpace_eq_self {text : List Char} (h : '+' ∉ text) : plusToSpace text = text := by
  refine (List.map_congr_left fun c hc => ?_).trans (List.map_id text)
  show (if c = '+' then ' ' else c) = c
  rw [if_neg]
  rintro rfl
  exact h hc

theorem plusToSpace_append (a b : List Char) : plusToSpace (a ++ b) = plusToSpace a ++ plusToSpace b :=
  List.map_append

theorem decode_plusToSpace_char (c : Char) (rest : List Char) :
    Percent.decode (plusToSpace (if c = ' ' then ['+'] else Percent.encodeChar isKept c) ++ rest) =
      String.utf8EncodeChar c ++ Percent.decode rest := by
  split
  · next h =>
    subst h
    exact Percent.decode_cons (by decide) rest
  · rw [plusToSpace_eq_self, Percent.decode_encodeChar (by decide)]
    intro h
    rcases Percent.mem_encodeChar h with ⟨_, h⟩ | h <;> exact absurd h (by decide)

theorem decode_plusToSpace (text : List Char) :
    Percent.decode (plusToSpace (encodeText (String.ofList text))) = Utf8.encode text := by
  induction text with
  | nil => rfl
  | cons c text ih => rw [encodeText_cons, plusToSpace_append, decode_plusToSpace_char, ih, Utf8.encode_cons]

theorem decodeText_encodeText (text : String) : decodeText (encodeText text) = text := by
  have h := decode_plusToSpace text.toList
  rw [String.ofList_toList] at h
  rw [decodeText, h, Utf8.decodeLossy_encode, String.ofList_toList]

/-! ## Pairs -/

theorem decodePair_encodePair (pair : String × String) : decodePair (encodePair pair) = pair := by
  have name : ∀ c ∈ encodeText pair.1, (c != '=') = true := by
    intro c hc
    rw [bne_iff_ne]
    exact fun he => not_mem_encodeText (by decide) (by decide) (by decide) pair.1 (he ▸ hc)
  rw [decodePair, encodePair, span_append name (by simp)]
  simp [decodeText_encodeText]

theorem mem_encodePair {pair : String × String} {x : Char} (h : x ∈ encodePair pair) :
    x ∈ ['=', '+'] ∨ isKept x = true ∨ Percent.isEscaping x = true := by
  have text {text : String} (ht : x ∈ encodeText text) :
      x ∈ ['=', '+'] ∨ isKept x = true ∨ Percent.isEscaping x = true :=
    (mem_encodeText ht).imp_left fun plus => by simp [plus]
  rw [encodePair, List.mem_append, List.mem_cons] at h
  rcases h with h | rfl | h
  · exact text h
  · exact .inl List.mem_cons_self
  · exact text h

theorem mem_encode {pairs : List (String × String)} {x : Char} (h : x ∈ encode pairs) :
    x ∈ ['&', '=', '+'] ∨ isKept x = true ∨ Percent.isEscaping x = true := by
  rcases mem_intercalate h with rfl | ⟨piece, hp, hx⟩
  · exact .inl List.mem_cons_self
  · obtain ⟨pair, _, rfl⟩ := List.mem_map.1 hp
    exact (mem_encodePair hx).imp_left (List.mem_cons_of_mem _)

theorem not_mem_encode {x : Char} (hp : x ≠ '+') (he : x ≠ '=') (ha : x ≠ '&') (hk : isKept x = false)
    (hx : Percent.isEscaping x = false) (pairs : List (String × String)) : x ∉ encode pairs := by
  intro h
  rcases mem_encode h with h | h | h
  · simp [hp, he, ha] at h
  · rw [hk] at h; cases h
  · rw [hx] at h; cases h

theorem decode_encode (pairs : List (String × String)) : decode (encode pairs) = pairs := by
  have cut : ∀ piece ∈ pairs.map encodePair, '&' ∉ piece := by
    intro piece hp
    obtain ⟨pair, _, rfl⟩ := List.mem_map.1 hp
    intro h
    rcases mem_encodePair h with h | h | h <;> exact absurd h (by decide)
  have full : ∀ piece ∈ pairs.map encodePair, (!piece.isEmpty) = true := by
    intro piece hp
    obtain ⟨pair, _, rfl⟩ := List.mem_map.1 hp
    simp [encodePair]
  cases pairs with
  | nil => rfl
  | cons pair pairs =>
    rw [decode, encode, List.splitOn_intercalate '&' cut (by simp), List.filter_eq_self.2 full, List.map_map]
    exact List.map_id'' decodePair_encodePair _

end Form

end SearchRelay
