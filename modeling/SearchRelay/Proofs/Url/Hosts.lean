import SearchRelay.Proofs.Url.Addresses
import SearchRelay.Proofs.Url.Written

/-!
# Reading hosts back

A host of the web is written without escapes and without the marks of an address,
and is read as itself. Only the name may have become too long for that: the
characters of a label are counted when it is written and its digits when it is
read.
-/

namespace SearchRelay

namespace Percent

theorem decode_eq_encode {text : List Char} (h : '%' ∉ text) : decode text = Utf8.encode text := by
  induction text with
  | nil => rfl
  | cons c text ih =>
    rw [List.mem_cons, not_or] at h
    rw [decode_cons (Ne.symm h.1), ih h.2, Utf8.encode_cons]

end Percent

namespace Url

variable {toAscii : ToAscii}

namespace Host

/-! ## Names -/

section
variable (lawful : toAscii.Lawful) {bytes : List UInt8} {name : List Char} (h : toAscii bytes = some name)
include lawful h

theorem not_mem_domain {c : Char} (hc : Domain.isForbidden c = true) : c ∉ name := fun hm => by
  have allowed := (lawful.output h c hm).2
  rw [hc] at allowed
  cases allowed

theorem decode_domain : Percent.decode name = Utf8.encode name :=
  Percent.decode_eq_encode (not_mem_domain lawful h (by decide))

theorem domain_ne_bracket (rest : List Char) : name ≠ '[' :: rest := by
  rintro rfl
  exact not_mem_domain lawful h (by decide : Domain.isForbidden '[' = true) List.mem_cons_self

end

/-- A text in small ASCII letters stands for itself if no label of it can be in Punycode. -/
theorem domain_of_plain (lawful : toAscii.Lawful) {text : List Char}
    (plain : ∀ c ∈ text, Punycode.isBasic c = true ∧ Domain.isForbidden c = false ∧ Ascii.isUpper c = false)
    (unmarked : 'x' ∉ text) : toAscii (Percent.decode text) = some text := by
  have small : text.map Ascii.lower = text := Ascii.map_lower_eq_self fun c hc => (plain c hc).2.2
  have noPercent : '%' ∉ text := fun hc => absurd (plain _ hc).2.1 (by decide)
  rw [Percent.decode_eq_encode noPercent, lawful.ascii (fun c hc => ⟨(plain c hc).1, (plain c hc).2.1⟩), small]
  intro label hl
  rw [small] at hl
  rw [← Bool.not_eq_true]
  intro marked
  exact unmarked ((mem_splitOn hl).1 ((List.isPrefixOf_iff_prefix.1 marked).subset (by decide)))

/-! ## Hosts -/

/-- Whether a host is read again as it is written. -/
def Fits : Host → Prop
  | named name => Domain.Fits name
  | _ => True

theorem ofDomain_of_name {text name : List Char} (bracket : ∀ rest, text ≠ '[' :: rest)
    (h : toAscii (Percent.decode text) = some name) (full : name ≠ []) : ofDomain toAscii text =
      if Ipv4.endsInNumber name then
        match Ipv4.parse? name with
        | some address => .ok (.ipv4 address)
        | none => .error .badIpv4
      else .ok (.named name) := by
  unfold ofDomain
  split
  · next inner => exact absurd rfl (bracket inner)
  · rw [h]
    cases name with
    | nil => exact absurd rfl full
    | cons c name => rfl

theorem domain_ipv4 (lawful : toAscii.Lawful) (address : UInt32) :
    toAscii (Percent.decode (Ipv4.write address)) = some (Ipv4.write address) := by
  have digits : ∀ c ∈ Ipv4.write address, c = '.' ∨ ∃ d < 10, c = d.digitChar := by
    intro c hc
    rw [Ipv4.write_eq] at hc
    refine (mem_intercalate hc).imp_right ?_
    rintro ⟨label, hl, hc⟩
    obtain ⟨n, _, rfl⟩ := List.mem_map.1 hl
    exact mem_toDigits (by decide) hc
  refine domain_of_plain lawful (fun c hc => ?_) fun hx => ?_
  · rcases digits c hc with rfl | ⟨d, hd, rfl⟩
    · decide
    · interval_cases d <;> decide
  · rcases digits 'x' hx with he | ⟨d, hd, he⟩
    · exact absurd he (by decide)
    · interval_cases d <;> exact absurd he (by decide)

theorem ofDomain_ipv4 (lawful : toAscii.Lawful) (address : UInt32) :
    ofDomain toAscii (Ipv4.write address) = .ok (.ipv4 address) := by
  have domain := domain_ipv4 lawful address
  have full : Ipv4.write address ≠ [] := by simp [Ipv4.write]
  rw [ofDomain_of_name (domain_ne_bracket lawful domain) domain full, if_pos (Ipv4.endsInNumber_write address),
    Ipv4.parse?_write]

theorem bracketed_write (address : Ipv6.Address) : bracketed (Ipv6.write address ++ [']']) = .ok (.ipv6 address) := by
  simp only [bracketed, List.getLast?_concat, if_true, List.dropLast_concat, Ipv6.parse?_write]

theorem ofDomain_ipv6 (address : Ipv6.Address) :
    ofDomain toAscii ('[' :: (Ipv6.write address ++ [']'])) = .ok (.ipv6 address) := bracketed_write address

theorem domain_of_named {text name : List Char} (h : ofDomain toAscii text = .ok (.named name)) :
    toAscii (Percent.decode text) = some name ∧ name ≠ [] ∧ Ipv4.endsInNumber name = false := by
  unfold ofDomain at h
  split at h
  · unfold bracketed at h
    split at h
    · split at h <;> cases h
    · cases h
  split at h
  · cases h
  · cases h
  · next found full hd =>
    split at h
    · split at h <;> cases h
    · next ends =>
      cases h
      exact ⟨hd, full, by simpa using ends⟩

section
variable (lawful : toAscii.Lawful) {text : List Char} {host : Host} (h : ofDomain toAscii text = .ok host)
include lawful h

theorem ofDomain_write (fits : host.Fits) : ofDomain toAscii host.write = .ok host := by
  cases host with
  | named name =>
    obtain ⟨hd, full, ends⟩ := domain_of_named h
    have again : toAscii (Percent.decode name) = some name := by
      rw [decode_domain lawful hd]
      exact lawful.again hd fits
    rw [write, ofDomain_of_name (domain_ne_bracket lawful hd) again full, ends]
    rfl
  | ipv4 address => exact ofDomain_ipv4 lawful address
  | ipv6 address => exact ofDomain_ipv6 address

theorem ofDomain_long (long : ¬host.Fits) : ofDomain toAscii host.write = .error .badDomain := by
  cases host with
  | named name =>
    have hd := (domain_of_named h).1
    unfold ofDomain
    split
    · next inner he => exact absurd he (domain_ne_bracket lawful hd inner)
    · rw [write, decode_domain lawful hd, lawful.limit hd long]
  | ipv4 => exact absurd trivial long
  | ipv6 => exact absurd trivial long

end

end Host

end Url

end SearchRelay
