import SearchRelay.Endpoint
import SearchRelay.Proofs.Percent
import SearchRelay.Proofs.Result
import SearchRelay.Proofs.Url.Punycode

/-!
# The characters of a URL

A URL to which segments can be added is written in printable ASCII, whatever
text it was read from: each part escapes or refuses all else. Its scheme, its
authority and its path also hold no `?` and no `#`, so that what is added behind
them opens the query.
-/

namespace SearchRelay

namespace Ascii

theorem of_isBasic {q : Char → Prop} (all : ∀ n < 128, q (Char.ofNat n)) {c : Char}
    (h : Punycode.isBasic c = true) : q c := by
  rw [← Char.ofNat_toNat c]
  exact all c.toNat (of_decide_eq_true h)

theorem toNat_of_isUpper {c : Char} (h : isUpper c = true) : 0x41 ≤ c.toNat ∧ c.toNat ≤ 0x5A := by
  simp only [isUpper, Bool.and_eq_true, decide_eq_true_eq, Char.le_def, UInt32.le_iff_toNat_le] at h
  exact h

theorem isUpper_lower (c : Char) : isUpper (lower c) = false := by
  unfold lower
  split
  · next h =>
    have bounds := toNat_of_isUpper h
    have basic : Punycode.isBasic c = true := decide_eq_true (by omega)
    exact of_isBasic (q := fun c => isUpper c = true → isUpper (Char.ofNat (c.toNat + 32)) = false)
      (by decide) basic h
  · next h => simpa using h

theorem lower_eq_self {c : Char} (h : isUpper c = false) : lower c = c := by
  rw [lower, h]
  rfl

theorem map_lower_eq_self {text : List Char} (h : ∀ c ∈ text, isUpper c = false) : text.map lower = text :=
  (List.map_congr_left fun c hc => lower_eq_self (h c hc)).trans (List.map_id _)

end Ascii

namespace Url

variable {toAscii : ToAscii}

/-- A character that may stand before the query. -/
def isWritten (c : Char) : Bool := 0x21 ≤ c.toNat && c.toNat ≤ 0x7E && c != '?' && c != '#'

def AllWritten (text : List Char) : Prop := ∀ c ∈ text, isWritten c = true

@[simp] theorem allWritten_nil : AllWritten [] := by simp [AllWritten]

@[simp] theorem allWritten_cons {c : Char} {text : List Char} :
    AllWritten (c :: text) ↔ isWritten c = true ∧ AllWritten text := by simp [AllWritten]

@[simp] theorem allWritten_append {a b : List Char} : AllWritten (a ++ b) ↔ AllWritten a ∧ AllWritten b := by
  simp [AllWritten, or_imp, forall_and]

theorem AllWritten.subset {a b : List Char} (h : AllWritten b) (hs : a ⊆ b) : AllWritten a := fun c hc => h c (hs hc)

theorem AllWritten.intercalate {separator : Char} {texts : List (List Char)} (hs : isWritten separator = true)
    (h : ∀ text ∈ texts, AllWritten text) : AllWritten ([separator].intercalate texts) := by
  intro c hc
  rcases mem_intercalate hc with rfl | ⟨text, ht, hc⟩
  · exact hs
  · exact h text ht c hc

/-! ## Classes of characters -/

theorem toNat_ne_toNat {c d : Char} (h : c ≠ d) : c.toNat ≠ d.toNat :=
  fun he => h (Char.ext (UInt32.toNat_inj.1 he))

theorem isWritten_of_toNat {c : Char} (low : 0x21 ≤ c.toNat) (high : c.toNat ≤ 0x7E) (h1 : c.toNat ≠ 0x3F)
    (h2 : c.toNat ≠ 0x23) : isWritten c = true := by
  simp only [isWritten, Bool.and_eq_true, decide_eq_true_eq, bne_iff_ne]
  refine ⟨⟨⟨low, high⟩, ?_⟩, ?_⟩ <;> rintro rfl
  · exact h1 rfl
  · exact h2 rfl

theorem isWritten_of_isAlphanumeric {c : Char} (h : Ascii.isAlphanumeric c = true) : isWritten c = true := by
  simp only [Ascii.isAlphanumeric, Ascii.isLetter, Ascii.isUpper, Ascii.isLower, Ascii.isDigit, Bool.or_eq_true,
    Bool.and_eq_true, decide_eq_true_eq, Char.le_def, UInt32.le_iff_toNat_le] at h
  have value : c.val.toNat = c.toNat := rfl
  simp only [value] at h
  apply isWritten_of_toNat <;> simp at h <;> omega

theorem isWritten_of_isLetter {c : Char} (h : Ascii.isLetter c = true) : isWritten c = true := by
  refine isWritten_of_isAlphanumeric ?_
  rw [Ascii.isAlphanumeric, h, Bool.true_or]

theorem isWritten_of_isDigit {c : Char} (h : c.isDigit = true) : isWritten c = true := by
  refine isWritten_of_isAlphanumeric ?_
  rw [Ascii.isAlphanumeric, Bool.or_eq_true]
  right
  simpa [Ascii.isDigit, Char.isDigit, Char.le_def] using h

theorem isWritten_of_isEscaping {c : Char} (h : Percent.isEscaping c = true) : isWritten c = true := by
  simp only [Percent.isEscaping, Ascii.isDigit, Bool.or_eq_true, Bool.and_eq_true, decide_eq_true_eq, beq_iff_eq,
    Char.le_def, UInt32.le_iff_toNat_le] at h
  rcases h with (rfl | h) | h
  · rfl
  all_goals
    have value : c.val.toNat = c.toNat := rfl
    simp only [value] at h
    apply isWritten_of_toNat <;> simp at h <;> omega

theorem isWritten_of_isPlain {c : Char} (h : Host.isPlain c = true) (hs : c ≠ ' ') (hq : c ≠ '?') (hf : c ≠ '#') :
    isWritten c = true := by
  simp only [Host.isPlain, Bool.and_eq_true, decide_eq_true_eq] at h
  have := toNat_ne_toNat hs
  have := toNat_ne_toNat hq
  have := toNat_ne_toNat hf
  simp at *
  exact isWritten_of_toNat (by omega) (by omega) (by omega) (by omega)

theorem isWritten_of_isKeptInUser {c : Char} (h : isKeptInUser c = true) : isWritten c = true := by
  simp only [isKeptInUser, Bool.or_eq_true, beq_iff_eq] at h
  rcases h with (((((((((((((h | rfl) | rfl) | rfl) | rfl) | rfl) | rfl) | rfl) | rfl) | rfl) | rfl) | rfl) | rfl) |
    rfl) | rfl
  · exact isWritten_of_isAlphanumeric h
  all_goals rfl

theorem isWritten_of_isKeptInPath {c : Char} (h : isKeptInPath c = true) : isWritten c = true := by
  simp only [isKeptInPath, isKeptInFragment, Bool.and_eq_true, bne_iff_ne] at h
  obtain ⟨⟨⟨⟨⟨⟨⟨⟨⟨hp, hs⟩, _⟩, _⟩, _⟩, _⟩, hf⟩, hq⟩, _⟩, _⟩ := h
  exact isWritten_of_isPlain hp hs hq hf

theorem isWritten_lower {c : Char} (h : isWritten c = true) : isWritten (Ascii.lower c) = true := by
  unfold Ascii.lower
  split
  · next hu =>
    have bounds := Ascii.toNat_of_isUpper hu
    have small : (Char.ofNat (c.toNat + 32)).toNat = c.toNat + 32 := Utf8.toNat_ofNat_char (.inl (by omega))
    apply isWritten_of_toNat <;> rw [small] <;> omega
  · exact h

theorem isWritten_of_isSchemeChar {c : Char} (h : isSchemeChar c = true) : isWritten c = true := by
  simp only [isSchemeChar, Bool.or_eq_true, beq_iff_eq] at h
  rcases h with ((h | rfl) | rfl) | rfl
  · exact isWritten_of_isAlphanumeric h
  all_goals rfl

theorem allWritten_encode {keep : Char → Bool} {text : List Char}
    (h : ∀ c ∈ text, keep c = true → isWritten c = true) : AllWritten (Percent.encode keep text) := by
  intro c hc
  rcases Percent.mem_encode hc with ⟨hm, hk⟩ | he
  · exact h c hm hk
  · exact isWritten_of_isEscaping he

theorem allWritten_encodeUser (text : List Char) : AllWritten (Percent.encode isKeptInUser text) :=
  allWritten_encode fun _ _ => isWritten_of_isKeptInUser

theorem allWritten_escapeSegment (text : List Char) : AllWritten (escapeSegment text) :=
  allWritten_encode fun _ _ => isWritten_of_isKeptInPath

theorem isWritten_of_isUnreserved {c : Char} (h : Percent.isUnreserved c = true) : isWritten c = true := by
  simp only [Percent.isUnreserved, Bool.or_eq_true, beq_iff_eq] at h
  rcases h with (((h | rfl) | rfl) | rfl) | rfl
  · exact isWritten_of_isAlphanumeric h
  all_goals rfl

theorem allWritten_encodeSegment (text : String) : AllWritten (Percent.encodeSegment text) :=
  allWritten_encode fun _ _ => isWritten_of_isUnreserved

theorem isWritten_of_isKept {c : Char} (h : Form.isKept c = true) : isWritten c = true := by
  simp only [Form.isKept, Bool.or_eq_true, beq_iff_eq] at h
  rcases h with (((h | rfl) | rfl) | rfl) | rfl
  · exact isWritten_of_isAlphanumeric h
  all_goals rfl

theorem allWritten_form (entries : List (String × String)) : AllWritten (Form.encode entries) := by
  have marks : ∀ c ∈ ['&', '=', '+'], isWritten c = true := List.all_iff_forall_prop.1 (by decide)
  intro c hc
  rcases Form.mem_encode hc with h | h | h
  · exact marks c h
  · exact isWritten_of_isKept h
  · exact isWritten_of_isEscaping h

/-! ## Numbers and addresses -/

theorem allWritten_toDigits_ten (n : Nat) : AllWritten (Nat.toDigits 10 n) := fun _ hc =>
  isWritten_of_isDigit (Nat.isDigit_of_mem_toDigits (by decide) (by decide) hc)

theorem isWritten_digitChar {d : Nat} (h : d < 16) : isWritten d.digitChar = true := by
  interval_cases d <;> rfl

theorem allWritten_toDigits_sixteen (n : Nat) : AllWritten (Nat.toDigits 16 n) := by
  induction n using Nat.strongRecOn with
  | ind n ih =>
    rw [Nat.toDigits_eq_if (by decide)]
    split
    · next h => simpa using isWritten_digitChar h
    · next h =>
      rw [allWritten_append]
      refine ⟨ih _ (by omega), ?_⟩
      simpa using isWritten_digitChar (Nat.mod_lt n (by decide))

theorem allWritten_ipv4 (address : UInt32) : AllWritten (Ipv4.write address) := by
  simp only [Ipv4.write, Ipv4.decimal, allWritten_append, allWritten_cons]
  exact ⟨⟨⟨allWritten_toDigits_ten _, by decide, allWritten_toDigits_ten _⟩,
      by decide, allWritten_toDigits_ten _⟩,
    by decide, allWritten_toDigits_ten _⟩

theorem allWritten_writeWords (words : List UInt16) : AllWritten (Ipv6.writeWords words) := by
  refine AllWritten.intercalate (by decide) fun text ht => ?_
  obtain ⟨w, _, rfl⟩ := List.mem_map.1 ht
  exact allWritten_toDigits_sixteen _

theorem allWritten_ipv6 (address : Ipv6.Address) : AllWritten (Ipv6.write address) := by
  simp only [Ipv6.write]
  split
  · exact allWritten_writeWords _
  · simp only [allWritten_append, allWritten_cons]
    exact ⟨allWritten_writeWords _, by decide, by decide, allWritten_writeWords _⟩

/-! ## Hosts -/

theorem isWritten_of_isBasic {c : Char} (h : Punycode.isBasic c = true) (hf : Domain.isForbidden c = false) :
    isWritten c = true :=
  Ascii.of_isBasic (q := fun c => Domain.isForbidden c = false → isWritten c = true) (by decide) h hf

theorem allWritten_domain (lawful : toAscii.Lawful) {bytes : List UInt8} {name : List Char}
    (h : toAscii bytes = some name) : AllWritten name := fun c hc =>
  isWritten_of_isBasic (lawful.output h c hc).1 (lawful.output h c hc).2

theorem allWritten_bracketed {inner : List Char} {host : Host} (h : Host.bracketed inner = .ok host) :
    AllWritten host.write := by
  unfold Host.bracketed at h
  split at h
  · split at h
    · cases h
      simp only [Host.write, allWritten_cons, allWritten_append]
      exact ⟨⟨by decide, allWritten_ipv6 _⟩, by decide, allWritten_nil⟩
    · cases h
  · cases h

theorem allWritten_ofDomain (lawful : toAscii.Lawful) {text : List Char} {host : Host}
    (h : Host.ofDomain toAscii text = .ok host) : AllWritten host.write := by
  unfold Host.ofDomain at h
  split at h
  · exact allWritten_bracketed h
  split at h
  · cases h
  · cases h
  next name _ hd =>
  split at h
  · split at h
    · cases h
      exact allWritten_ipv4 _
    · cases h
  · cases h
    exact allWritten_domain lawful hd

theorem allWritten_ofName {text : List Char} {host : Host} (h : Host.ofName text = .ok (some host)) :
    AllWritten host.write := by
  unfold Host.ofName at h
  split at h
  · cases h
  · next inner =>
    obtain ⟨found, hb, he⟩ := Result.map_eq_ok.1 h
    cases he
    exact allWritten_bracketed hb
  split at h
  · cases h
  · next hn =>
    cases h
    rw [Bool.not_eq_true, List.any_eq_false] at hn
    refine allWritten_encode fun c hc hp => ?_
    have hf := hn c hc
    simp only [Host.isForbiddenInName, Bool.or_eq_true, beq_iff_eq, not_or] at hf
    exact isWritten_of_isPlain hp (by tauto) (by tauto) (by tauto)

/-! ## Authorities -/

structure Authority.Written (authority : Authority) : Prop where
  user : AllWritten authority.user
  password : ∀ password ∈ authority.password, AllWritten password
  host : ∀ host ∈ authority.host, AllWritten host.write

theorem Authority.Written.write {authority : Authority} (h : authority.Written) : AllWritten authority.write := by
  obtain ⟨user, password, host, port⟩ := authority
  obtain ⟨hu, hp, hh⟩ := h
  simp only [Authority.write, Authority.writeCredentials, allWritten_append]
  refine ⟨⟨?_, ?_⟩, ?_⟩
  · split
    · rw [allWritten_append, allWritten_append]
      refine ⟨⟨hu, ?_⟩, by simp; decide⟩
      cases password with
      | none => exact allWritten_nil
      | some password => exact allWritten_cons.2 ⟨by decide, hp password rfl⟩
    · exact allWritten_nil
  · cases host with
    | none => exact allWritten_nil
    | some host => exact hh host rfl
  · cases port with
    | none => exact allWritten_nil
    | some port => exact allWritten_cons.2 ⟨by decide, allWritten_toDigits_ten port⟩

theorem allWritten_readCredentials (text : List Char) : AllWritten (readCredentials text).1 ∧
    ∀ password ∈ (readCredentials text).2, AllWritten password := by
  unfold readCredentials
  dsimp only
  split
  · exact ⟨allWritten_encodeUser _, fun _ h => by cases h; exact allWritten_encodeUser _⟩
  · exact ⟨allWritten_encodeUser _, fun _ h => by cases h⟩

theorem allWritten_readHost (lawful : toAscii.Lawful) {kind : Kind} {text rest : List Char} {host : Option Host}
    (h : readHost toAscii kind text rest = .ok host) : ∀ found ∈ host, AllWritten found.write := by
  have domain (h : (if text.isEmpty then Except.error Fault.emptyHost
      else (Host.ofDomain toAscii text).map some) = .ok host) : ∀ found ∈ host, AllWritten found.write := by
    split at h
    · cases h
    · obtain ⟨found, hd, rfl⟩ := Result.map_eq_ok.1 h
      rintro _ ⟨⟩
      exact allWritten_ofDomain lawful hd
  unfold readHost at h
  split at h
  · split at h
    · cases h
    · rintro found ⟨⟩
      exact allWritten_ofName h
  · exact domain h

theorem written_readAuthority (lawful : toAscii.Lawful) {kind : Kind} {text rest : List Char} {authority : Authority}
    (h : readAuthority toAscii kind text = .ok (authority, rest)) : authority.Written := by
  simp only [readAuthority, bind, Except.bind] at h
  split at h
  · cases h
  split at h
  · cases h
  next host hh =>
  split at h
  · cases h
  split at h
  · cases h
  · cases h
    have credentials := allWritten_readCredentials
      ((cutLastAt (text.span (!endsAuthority kind ·)).1).getD ([], (text.span (!endsAuthority kind ·)).1)).1
    exact ⟨credentials.1, credentials.2, allWritten_readHost lawful hh⟩

/-! ## Paths -/

def Path.Written (path : Path) : Prop := ∀ segment ∈ path, AllWritten segment

theorem Path.Written.write {path : Path} (h : path.Written) : AllWritten path.write := by
  intro c hc
  obtain ⟨segment, hs, hc⟩ := List.mem_flatMap.1 hc
  rcases List.mem_cons.1 hc with rfl | hc
  · rfl
  · exact h segment hs c hc

theorem Path.Written.subset {a b : Path} (h : b.Written) (hs : a ⊆ b) : a.Written := fun s hm => h s (hs hm)

theorem parent_subset (path : Path) : Path.parent path ⊆ path := by
  unfold Path.parent
  split
  · split
    · exact List.Subset.refl path
    · exact List.dropLast_subset path
  · exact List.nil_subset path

theorem settled_of_mem_steps {piece : List Char} : ∀ {pieces : List (List Char)}, some piece ∈ Path.steps pieces →
    piece = [] ∨ piece ∈ pieces ∧ Path.isHere piece = false ∧ Path.isParent piece = false
  | [], h => by simp [Path.steps] at h
  | [last], h => by
    simp only [Path.steps] at h
    split at h
    · simp at h
      exact .inl h
    split at h
    · simp at h
      exact .inl h
    · next parent here =>
      simp at h
      subst h
      exact .inr ⟨List.mem_cons_self, by simpa using here, by simpa using parent⟩
  | first :: next :: rest, h => by
    have later : some piece ∈ Path.steps (next :: rest) → piece = [] ∨
        piece ∈ first :: next :: rest ∧ Path.isHere piece = false ∧ Path.isParent piece = false := fun h =>
      (settled_of_mem_steps h).imp_right fun found => ⟨List.mem_cons_of_mem _ found.1, found.2⟩
    simp only [Path.steps] at h
    split at h
    · exact later (by simpa using h)
    next parent =>
    split at h
    · exact later h
    next here =>
    rcases List.mem_cons.1 h with h | h
    · cases h
      exact .inr ⟨List.mem_cons_self, by simpa using here, by simpa using parent⟩
    · exact later h

theorem mem_walks : ∀ {steps : List (Option (List Char))} {path : Path} {segment : List Char},
    segment ∈ steps.foldl Path.walk path → segment ∈ path ∨ some segment ∈ steps
  | [], _, _, h => .inl h
  | step :: steps, path, segment, h => by
    rw [List.foldl_cons] at h
    rcases mem_walks h with h | h
    · cases step with
      | none => exact .inl (parent_subset path h)
      | some entered =>
        rcases List.mem_append.1 h with h | h
        · exact .inl h
        · rw [List.mem_singleton.1 h]
          exact .inr List.mem_cons_self
    · exact .inr (List.mem_cons_of_mem _ h)

theorem written_readPath (kind : Kind) (text : List Char) : (readPath kind text).Written := by
  intro segment hs
  rcases settled_of_mem_steps ((mem_walks hs).resolve_left List.not_mem_nil) with rfl | ⟨hm, -⟩
  · exact allWritten_nil
  · obtain ⟨piece, _, rfl⟩ := List.mem_map.1 hm
    exact allWritten_escapeSegment piece

/-! ## Files -/

structure FilePlace.Written (place : FilePlace) : Prop where
  host : ∀ host ∈ place.host, AllWritten host.write
  path : place.path.Written

theorem allWritten_drive {drive : List Char} (h : Path.isDrive drive = true) : AllWritten drive := by
  unfold Path.isDrive at h
  split at h
  · simp only [Bool.and_eq_true, Bool.or_eq_true, beq_iff_eq] at h
    simp only [allWritten_cons]
    refine ⟨isWritten_of_isLetter h.1, ?_, allWritten_nil⟩
    rcases h.2 with rfl | rfl <;> rfl
  · cases h

theorem cutDrive?_eq_some {piece drive rest : List Char} (h : Path.cutDrive? piece = some (drive, rest)) :
    Path.isDrive drive = true ∧ rest ⊆ piece := by
  unfold Path.cutDrive? at h
  split at h
  · next letter colon mark after cut =>
    dsimp only at h
    split at h
    · next hd =>
      simp only [Bool.and_eq_true] at hd
      cases h
      refine ⟨hd.1.2, fun c hc => ?_⟩
      have inside := (List.mem_filter.1 hc).1
      rw [(append_of_span cut).1]
      exact List.mem_append_right _ (List.mem_cons_of_mem _ (List.mem_cons_of_mem _ inside))
    · cases h
  · cases h

theorem isDrive_take {segment : List Char} (h : Path.isDrive segment = true) :
    Path.isDrive (segment.take 1 ++ [':']) = true := by
  unfold Path.isDrive at h
  split at h
  · rw [Bool.and_eq_true] at h
    simp [Path.isDrive, h.1]
  · cases h

theorem mem_enter {place : FilePlace} {piece segment : List Char} (h : segment ∈ (place.enter piece).path) :
    segment ∈ place.path ∨ Path.isDrive segment = true ∨ ∃ text, text ⊆ piece ∧
      segment = escapeSegment text := by
  have own : escapeSegment (unbroken piece) = segment → ∃ text, text ⊆ piece ∧
    segment = escapeSegment text := fun he =>
    ⟨unbroken piece, List.filter_sublist.subset, he.symm⟩
  simp only [FilePlace.enter] at h
  split at h
  · rcases List.mem_append.1 h with h | h
    · exact .inl h
    · exact .inr (.inr (own (List.mem_singleton.1 h).symm))
  split at h
  · next drive rest hd =>
    simp only [List.mem_cons, List.not_mem_nil, or_false] at h
    rcases h with rfl | rfl
    · exact .inr (.inl (cutDrive?_eq_some hd).1)
    · exact .inr (.inr ⟨rest, (cutDrive?_eq_some hd).2, rfl⟩)
  split at h
  · next drive =>
    rw [List.mem_singleton.1 h]
    exact .inr (.inl (isDrive_take drive))
  · exact .inr (.inr (own (List.mem_singleton.1 h).symm))

theorem host_enter {place : FilePlace} {piece : List Char} {host : Host} (h : host ∈ (place.enter piece).host) :
    host ∈ place.host := by
  simp only [FilePlace.enter] at h
  split at h
  · exact h
  split at h
  · exact h
  split at h
  · cases h
  · exact h

theorem mem_fileWalks : ∀ {steps : List (Option (List Char))} {place : FilePlace} {segment : List Char},
    segment ∈ (steps.foldl FilePlace.walk place).path → segment ∈ place.path ∨ Path.isDrive segment = true ∨
      ∃ piece text, some piece ∈ steps ∧ text ⊆ piece ∧ segment = escapeSegment text
  | [], _, _, h => .inl h
  | step :: steps, place, segment, h => by
    rw [List.foldl_cons] at h
    rcases mem_fileWalks h with h | drive | ⟨piece, text, hm, written⟩
    · cases step with
      | none => exact .inl (parent_subset place.path h)
      | some piece =>
        refine (mem_enter h).imp_right (Or.imp_right ?_)
        rintro ⟨text, written⟩
        exact ⟨piece, text, List.mem_cons_self, written⟩
    · exact .inr (.inl drive)
    · exact .inr (.inr ⟨piece, text, List.mem_cons_of_mem _ hm, written⟩)

theorem host_fileWalks : ∀ {steps : List (Option (List Char))} {place : FilePlace} {host : Host},
    host ∈ (steps.foldl FilePlace.walk place).host → host ∈ place.host
  | [], _, _, h => h
  | step :: steps, place, host, h => by
    have h : host ∈ (place.walk step).host := host_fileWalks h
    cases step with
    | none => exact h
    | some piece => exact host_enter h

theorem written_fileWalks (steps : List (Option (List Char))) {place : FilePlace} (h : place.Written) :
    (steps.foldl FilePlace.walk place).Written := by
  refine ⟨fun host hh => h.host host (host_fileWalks hh), fun segment hs => ?_⟩
  rcases mem_fileWalks hs with hs | drive | ⟨_, text, _, _, rfl⟩
  · exact h.path segment hs
  · exact allWritten_drive drive
  · exact allWritten_escapeSegment text

theorem written_dropEmpty {path : Path} (h : path.Written) : (Path.dropEmpty path).Written := by
  unfold Path.dropEmpty
  split
  · simp [Path.Written]
  · exact h.subset (List.dropWhile_sublist _).subset

/-! ## Whole URLs -/

def Target.Written : Target → Prop
  | segments authority path => (∀ found ∈ authority, found.Written) ∧ path.Written
  | bare _ => True

theorem written_segments {authority : Option Authority} {path : Path} (ha : ∀ found ∈ authority, found.Written)
    (hp : path.Written) : (Target.segments authority path).Written := ⟨ha, hp⟩

structure Written (url : Url) : Prop where
  scheme : AllWritten url.scheme
  target : url.target.Written

theorem Target.Written.write {authority : Option Authority} {path : Path}
    (h : (Target.segments authority path).Written) : AllWritten (Target.segments authority path).write := by
  have hp := h.2.write
  cases authority with
  | some authority =>
    simp only [Target.write, allWritten_cons, allWritten_append]
    exact ⟨⟨by decide, by decide, (h.1 authority rfl).write⟩, hp⟩
  | none =>
    unfold Target.write
    split
    · next he => cases he
    · next he =>
      cases he
      exact allWritten_cons.2 ⟨by decide, allWritten_cons.2 ⟨by decide, hp⟩⟩
    · next he => cases he; exact hp
    · next he => cases he

theorem written_withTail {scheme : List Char} {target : Target} (hs : AllWritten scheme) (ht : target.Written)
    (tail : List Char) : (withTail scheme target tail).Written := ⟨hs, ht⟩

theorem written_fileUrl {host : Option Host} (h : ∀ found ∈ host, AllWritten found.write) (text tail : List Char) :
    (fileUrl host text tail).Written := by
  have start : FilePlace.Written ⟨host, []⟩ := ⟨h, fun _ hm => absurd hm List.not_mem_nil⟩
  have place := written_fileWalks (Path.steps (pieces .file text)) start
  refine written_withTail (by simp; decide) (written_segments ?_ (written_dropEmpty place.path)) _
  rintro _ ⟨⟩
  exact ⟨allWritten_nil, fun _ hm => (by cases hm), place.host⟩

theorem written_readWeb (lawful : toAscii.Lawful) {scheme text : List Char} {kind : Kind} {url : Url}
    (hs : AllWritten scheme) (h : readWeb toAscii scheme kind text = .ok url) : url.Written := by
  obtain ⟨⟨authority, rest⟩, ha, h⟩ := Result.bind_eq_ok.1 h
  cases h
  refine written_withTail hs (written_segments ?_ (written_readPath kind _)) _
  rintro _ ⟨⟩
  exact written_readAuthority lawful ha

theorem written_readOtherAuthority (lawful : toAscii.Lawful) {scheme text : List Char} {url : Url}
    (hs : AllWritten scheme) (h : readOtherAuthority toAscii scheme text = .ok url) : url.Written := by
  obtain ⟨⟨authority, rest⟩, ha, h⟩ := Result.bind_eq_ok.1 h
  cases h
  refine written_withTail hs (written_segments ?_ ?_) _
  · rintro _ ⟨⟩
    exact written_readAuthority lawful ha
  · split
    · exact fun _ hm => absurd hm List.not_mem_nil
    · exact written_readPath _ _

theorem written_readOther (lawful : toAscii.Lawful) {scheme text : List Char} {url : Url} (hs : AllWritten scheme)
    (h : readOther toAscii scheme text = .ok url) : url.Written := by
  unfold readOther at h
  split at h
  · exact written_readOtherAuthority lawful hs h
  · cases h
    exact written_withTail hs (written_segments (fun _ hm => (by cases hm)) (written_readPath _ _)) _
  · cases h
    have bare (text : List Char) : (Target.bare text).Written := trivial
    exact written_withTail hs (bare _) _

theorem allWritten_readFileHost (lawful : toAscii.Lawful) {text : List Char} {host : Option Host}
    (h : readFileHost toAscii text = .ok host) :
    ∀ found ∈ host, AllWritten found.write := by
  unfold readFileHost at h
  split at h
  · cases h
    exact fun _ hm => (by cases hm)
  · obtain ⟨found, hd, rfl⟩ := Result.map_eq_ok.1 h
    intro host hm
    split at hm
    · cases hm
    · cases hm
      exact allWritten_ofDomain lawful hd

theorem written_readFile (lawful : toAscii.Lawful) {text : List Char} {url : Url}
    (h : readFile toAscii text = .ok url) : url.Written := by
  have here (text tail : List Char) : (fileUrl none text tail).Written :=
    written_fileUrl (fun _ hm => (by cases hm)) _ _
  unfold readFile at h
  split at h
  · cases h
    exact here _ _
  split at h
  · cases h
    exact here _ _
  unfold readFileAuthority at h
  dsimp only at h
  split at h
  · cases h
    exact here _ _
  · obtain ⟨host, hh, h⟩ := Result.bind_eq_ok.1 h
    split at h
    · cases h
      exact here _ _
    · cases h
      exact written_fileUrl (allWritten_readFileHost lawful hh) _ _

theorem allWritten_cutScheme? {text scheme rest : List Char} (h : cutScheme? text = some (scheme, rest)) :
    AllWritten scheme := by
  unfold cutScheme? at h
  split at h
  · dsimp only at h
    split at h
    · next hc =>
      simp only [Bool.and_eq_true, List.all_eq_true] at hc
      cases h
      intro c hm
      obtain ⟨d, hd, rfl⟩ := List.mem_map.1 hm
      exact isWritten_lower (isWritten_of_isSchemeChar (hc.2 d hd))
    · cases h
  · cases h

/-- What was read from a text is written in the characters that may stand before a query. -/
theorem written_parse (lawful : toAscii.Lawful) {text : List Char} {url : Url}
    (h : Url.parse toAscii text = .ok url) : url.Written := by
  unfold Url.parse at h
  split at h
  · cases h
  next scheme rest hs =>
  have scheme := allWritten_cutScheme? hs
  split at h
  · exact written_readFile lawful h
  · exact written_readOther lawful scheme h
  · exact written_readWeb lawful scheme h

end Url

namespace Endpoint

theorem trimSlashes_subset (text : List Char) : trimSlashes text ⊆ text := by
  intro c hc
  rw [trimSlashes, List.mem_reverse] at hc
  exact List.mem_reverse.1 ((List.dropWhile_sublist _).subset hc)

theorem allWritten_baseText {url : Url} (h : url.Written) (hp : url.path?.isSome = true) :
    Url.AllWritten (baseText url) := by
  obtain ⟨scheme, target, query, fragment⟩ := url
  refine Url.AllWritten.subset ?_ (trimSlashes_subset _)
  cases target with
  | bare text => cases hp
  | segments authority path =>
    simp only [Url.write, Url.allWritten_append, Url.allWritten_cons]
    exact ⟨⟨⟨h.scheme, by decide, h.target.write⟩, by simp⟩, by simp⟩

theorem allWritten_ofUrl {toAscii : Url.ToAscii} (lawful : toAscii.Lawful) {text : String} {route : Route}
    {endpoint : Endpoint} (h : ofUrl text route toAscii = .ok endpoint) : Url.AllWritten endpoint.baseUrl.toList := by
  unfold ofUrl at h
  split at h
  · cases h
  next url hu =>
  split at h
  · next hp =>
    cases h
    rw [String.toList_ofList]
    exact allWritten_baseText (Url.written_parse lawful hu) hp
  · cases h

end Endpoint

end SearchRelay
