import Mathlib.Data.List.DropRight
import SearchRelay.Proofs.Text.Utf8
import SearchRelay.Relay.Stream

/-!
# The requests of an input

The relay cuts bytes at line feeds and decodes each piece; what is proved is
that decoding all of them first and cutting the text gives the same requests.
Of an input that fails only the bytes up to its last line feed count.
-/

namespace SearchRelay

/-! ## Requests of a text -/

def request? (text : List Char) : Option String :=
  let text := Blank.trim text
  if text.isEmpty then none else some (String.ofList text)

/-- The requests of a text: its lines without the blanks around them, where something is left. -/
def requestsOfText (text : List Char) : List String :=
  (((text.splitOn '\n').map Blank.trim).filter fun line => !line.isEmpty).map String.ofList

theorem lineText?_eq (line : List UInt8) : lineText? line = request? (Utf8.decodeLossy line) := rfl

theorem toList_request? (text : List Char) :
    (request? text).toList = ([Blank.trim text].filter fun line => !line.isEmpty).map String.ofList := by
  cases h : (Blank.trim text).isEmpty <;> simp [request?, h]

theorem requestsOfText_line {text : List Char} (h : '\n' ∉ text) :
    requestsOfText text = (request? text).toList := by
  rw [requestsOfText, List.splitOn_eq_singleton h, toList_request?]
  rfl

theorem requestsOfText_feed (a b : List Char) :
    requestsOfText (a ++ '\n' :: b) = requestsOfText a ++ requestsOfText b := by
  simp only [requestsOfText, List.splitOn_append_cons_self, List.map_append, List.filter_append]

theorem trim_feed (text : List Char) : Blank.trim (text ++ ['\n']) = Blank.trim text := by
  have blank : Blank.isBlank '\n' = true := rfl
  unfold Blank.trim Blank.trimStart
  rw [List.dropWhile_append]
  split
  · next h =>
    rw [List.isEmpty_iff] at h
    rw [h, List.dropWhile_cons, blank]
    rfl
  · rw [Blank.trimEnd, List.reverse_append, List.reverse_singleton, List.singleton_append, List.dropWhile_cons,
      blank]
    rfl

theorem request?_feed (text : List Char) : request? (text ++ ['\n']) = request? text := by
  simp only [request?, trim_feed]

theorem toList_lineText? {line : List UInt8} (h : 10 ∉ line) :
    (lineText? line).toList = requestsOfText (Utf8.decodeLossy line) := by
  rw [lineText?_eq, requestsOfText_line (Utf8.feed_not_mem_decodeLossy h)]

theorem lineText?_feed (line : List UInt8) : lineText? (line ++ [10]) = lineText? line := by
  rw [lineText?_eq, Utf8.decodeLossy_feed, lineText?_eq]
  exact request?_feed _

/-! ## Reading lines -/

namespace Source

theorem not_mem_iff_all {line : List UInt8} : 10 ∉ line ↔ ∀ b ∈ line, (b != 10) = true := by
  simp only [bne_iff_ne]
  exact ⟨fun h b hb hc => h (hc ▸ hb), fun h hm => h 10 hm rfl⟩

theorem read_feed {line : List UInt8} (h : 10 ∉ line) (rest : List UInt8) (fault : Option String) :
    (⟨line ++ 10 :: rest, fault⟩ : Source).read = .line (line ++ [10]) ⟨rest, fault⟩ := by
  have all := not_mem_iff_all.1 h
  simp only [read, List.takeWhile_append_of_pos all, List.dropWhile_append_of_pos all]
  simp

theorem read_failed {part : List UInt8} (h : 10 ∉ part) (detail : String) :
    (⟨part, some detail⟩ : Source).read = .failed detail := by
  simp only [read, List.dropWhile_eq_nil_iff.2 (not_mem_iff_all.1 h)]

theorem read_last {line : List UInt8} (h : 10 ∉ line) (hne : line ≠ []) :
    (ofBytes line).read = .line line (ofBytes []) := by
  have all := not_mem_iff_all.1 h
  have whole : line.takeWhile (· != 10) = line := List.takeWhile_eq_self_iff.2 all
  simp only [read, ofBytes, List.dropWhile_eq_nil_iff.2 all, whole]
  rw [if_neg (by simpa using hne)]

theorem read_finished : (ofBytes []).read = .finished := rfl

theorem fault_of_line {source rest : Source} {line : List UInt8} (h : source.read = .line line rest) :
    rest.fault = source.fault := by
  simp only [read] at h
  split at h
  · cases h
    rfl
  · cases h
  · next hf =>
    split at h
    · cases h
    · cases h
      exact hf.symm

theorem fault_of_finished {source : Source} (h : source.read = .finished) : source.fault = none := by
  simp only [read] at h
  split at h
  · cases h
  · cases h
  · assumption

theorem fault_of_failed {source : Source} {detail : String} (h : source.read = .failed detail) :
    source.fault = some detail := by
  simp only [read] at h
  split at h
  · cases h
  · next hf =>
    cases h
    exact hf
  · split at h <;> cases h

/-- Bytes are without a line feed, or a line with its feed and more. -/
@[elab_as_elim]
theorem feed_induction {motive : List UInt8 → Prop} (last : ∀ part, 10 ∉ part → motive part)
    (line : ∀ line rest, 10 ∉ line → motive rest → motive (line ++ 10 :: rest)) (bytes : List UInt8) :
    motive bytes := by
  by_cases h : 10 ∈ bytes
  · obtain ⟨first, rest, hb, hf⟩ := List.eq_append_cons_of_mem h
    have : rest.length < bytes.length := by
      rw [hb, List.length_append, List.length_cons]
      omega
    rw [hb]
    exact line first rest hf (feed_induction last line rest)
  · exact last bytes h
termination_by bytes.length

/-! ## The requests that are read -/

/-- The requests on the lines that are read, up to the end of the input or its fault. -/
def requests (source : Source) : List String :=
  match _h : source.read with
  | .line line rest => (lineText? line).toList ++ rest.requests
  | .finished => []
  | .failed _ => []
termination_by source.bytes.length
decreasing_by exact read_shorter _h

theorem requests_of_line {source rest : Source} {line : List UInt8} (h : source.read = .line line rest) :
    source.requests = (lineText? line).toList ++ rest.requests := by
  rw [requests]
  split
  · next h' => rw [h] at h'; cases h'; rfl
  · next h' => rw [h] at h'; cases h'
  · next h' => rw [h] at h'; cases h'

theorem requests_of_finished {source : Source} (h : source.read = .finished) : source.requests = [] := by
  rw [requests]
  split
  · next h' => rw [h] at h'; cases h'
  · rfl
  · rfl

theorem requests_of_failed {source : Source} {detail : String} (h : source.read = .failed detail) :
    source.requests = [] := by
  rw [requests]
  split
  · next h' => rw [h] at h'; cases h'
  · rfl
  · rfl

theorem requests_feed {line : List UInt8} (h : 10 ∉ line) (rest : List UInt8) (fault : Option String) :
    (⟨line ++ 10 :: rest, fault⟩ : Source).requests =
      requestsOfText (Utf8.decodeLossy line) ++ (⟨rest, fault⟩ : Source).requests := by
  rw [requests_of_line (read_feed h rest fault), lineText?_feed, toList_lineText? h]

theorem requests_ofBytes (bytes : List UInt8) : (ofBytes bytes).requests = requestsOfText (Utf8.decodeLossy bytes) := by
  induction bytes using feed_induction with
  | last part h =>
    by_cases hne : part = []
    · subst hne
      exact requests_of_finished read_finished
    · rw [requests_of_line (read_last h hne), requests_of_finished read_finished, List.append_nil, toList_lineText? h]
  | line line rest h ih =>
    rw [Utf8.decodeLossy_feed, requestsOfText_feed, ← ih]
    exact requests_feed h rest none

def wholeLines (bytes : List UInt8) : List UInt8 := bytes.rdropWhile (· != 10)

theorem wholeLines_of_not_mem {part : List UInt8} (h : 10 ∉ part) : wholeLines part = [] :=
  List.rdropWhile_eq_nil_iff.2 (not_mem_iff_all.1 h)

theorem wholeLines_feed (line rest : List UInt8) :
    wholeLines (line ++ 10 :: rest) = line ++ 10 :: wholeLines rest := by
  simp only [wholeLines, List.rdropWhile, List.reverse_append, List.reverse_cons, List.append_assoc,
    List.dropWhile_append]
  split
  · next h =>
    rw [List.isEmpty_iff] at h
    simp [h]
  · simp

/-- Of an input that fails the requests are those up to its last line feed. -/
theorem requests_of_fault (bytes : List UInt8) (detail : String) :
    (⟨bytes, some detail⟩ : Source).requests = requestsOfText (Utf8.decodeLossy (wholeLines bytes)) := by
  induction bytes using feed_induction with
  | last part h =>
    rw [requests_of_failed (read_failed h detail), wholeLines_of_not_mem h]
    rfl
  | line line rest h ih =>
    rw [requests_feed h, wholeLines_feed, Utf8.decodeLossy_feed, requestsOfText_feed, ih]

def readable (source : Source) : List UInt8 := if source.fault.isSome then wholeLines source.bytes else source.bytes

theorem requests_eq (source : Source) : source.requests = requestsOfText (Utf8.decodeLossy source.readable) := by
  obtain ⟨bytes, fault⟩ := source
  cases fault with
  | none => exact requests_ofBytes bytes
  | some detail => exact requests_of_fault bytes detail

theorem requests_wholeLines_append (bytes more : List UInt8) :
    requestsOfText (Utf8.decodeLossy (wholeLines bytes)) <+: requestsOfText (Utf8.decodeLossy (bytes ++ more)) := by
  induction bytes using feed_induction with
  | last part h =>
    rw [wholeLines_of_not_mem h]
    exact List.nil_prefix
  | line line rest h ih =>
    rw [wholeLines_feed, List.append_assoc, List.cons_append, Utf8.decodeLossy_feed, Utf8.decodeLossy_feed,
      requestsOfText_feed, requestsOfText_feed, List.prefix_append_right_inj]
    exact ih

end Source

end SearchRelay
