import SearchRelay.Program
import SearchRelay.Proofs.Readback
import SearchRelay.Proofs.Url.Files
import SearchRelay.Proofs.Url.OtherSchemes

/-!
# Base URLs of base URLs

A base URL is read as a URL again, with the same scheme, the same authority, and
the path up to its last segment that has a text; so its own base is the same.
This fails where nothing but slashes stood behind the scheme, and where a reader
does not take back what is written: a host that is too long, and the drive of a
file that was parted from dots or stands behind a host.
-/

namespace SearchRelay

open Url

namespace Endpoint

/-! ## Paths without their last empty segments -/

section
variable {path : Path}

theorem head?_rdropWhile (full : path.rdropWhile List.isEmpty ≠ []) :
    (path.rdropWhile List.isEmpty).head? = path.head? := by
  obtain ⟨rest, hr⟩ := List.rdropWhile_prefix List.isEmpty (l := path)
  obtain ⟨first, more, hf⟩ := List.exists_cons_of_ne_nil full
  rw [hf] at hr ⊢
  rw [← hr]
  rfl

theorem rdropWhile_ne_nil {segment : List Char} (hs : segment ∈ path) (text : segment ≠ []) :
    path.rdropWhile List.isEmpty ≠ [] := fun none =>
  text (List.isEmpty_iff.1 (List.rdropWhile_eq_nil_iff.1 none segment hs))

theorem front_rdropWhile (full : path.rdropWhile List.isEmpty ≠ []) (authority : Option Authority) :
    front authority (path.rdropWhile List.isEmpty) = front authority path := by
  obtain ⟨rest, hr⟩ := List.rdropWhile_prefix List.isEmpty (l := path)
  have last := List.rdropWhile_last_not List.isEmpty path full
  cases authority with
  | some found => rfl
  | none =>
    match hp : path.rdropWhile List.isEmpty, full with
    | [[]], _ => simp [hp] at last
    | [c :: first], _ =>
      rw [hp] at hr
      rw [← hr]
      cases rest <;> rfl
    | [] :: next :: more, _ =>
      rw [hp] at hr
      rw [← hr]
      rfl
    | (c :: first) :: next :: more, _ =>
      rw [hp] at hr
      rw [← hr]
      rfl

end

/-! ## Reading a base -/

def Recurs (toAscii : ToAscii) (base : Url) : Prop :=
  ∃ again, Url.parse toAscii (baseText base) = .ok again ∧ again.path?.isSome = true ∧
    baseText again = baseText base

section
variable {toAscii : ToAscii} {base : Url} {authority : Option Authority} {path : Path}

theorem recurs_of_parse (kept : Path) (ht : base.target = .segments authority path)
    (read : Url.parse toAscii (baseText base) = .ok ⟨base.scheme, .segments authority kept, none, none⟩)
    (cut : kept.rdropWhile List.isEmpty = path.rdropWhile List.isEmpty)
    (marks : front authority kept = front authority path) :
    Recurs toAscii base := by
  refine ⟨_, read, rfl, ?_⟩
  rw [baseText_eq ht, baseText_eq rfl, marks, trimSlashes_append_write, cut, ← trimSlashes_append_write]

theorem write_bare (scheme : List Char) (authority : Option Authority) (path : Path) :
    Url.write ⟨scheme, .segments authority path, none, none⟩ =
      scheme ++ ':' :: (front authority path ++ path.write) := by
  simp [Url.write, write_eq_front]

theorem recurs_other (h : base.ParsedOther authority path)
    (rest : (∃ found host, authority = some found ∧ found.host = some host) ∨
      path.rdropWhile List.isEmpty ≠ []) :
    Recurs toAscii base := by
  have slashes : ∀ segment ∈ path, '/' ∉ segment := fun segment hs hc =>
    absurd ((h.settled segment hs).slash _ hc) (by decide)
  have settled : ∀ segment ∈ path.rdropWhile List.isEmpty, SettledIn .other segment := fun segment hs =>
    h.settled segment ((List.rdropWhile_prefix _ _).subset hs)
  have marks : front authority (path.rdropWhile List.isEmpty) = front authority path := by
    rcases rest with ⟨found, _, rfl, _⟩ | full
    · rfl
    · exact front_rdropWhile full authority
  have text : baseText base =
      Url.write ⟨base.scheme, .segments authority (path.rdropWhile List.isEmpty), none, none⟩ := by
    rw [write_bare, marks]
    rcases rest with ⟨found, host, rfl, hf⟩ | full
    · cases h.authority found rfl with
      | none => cases hf
      | @named _ name regular found' isName =>
        cases hf.symm.trans found'
        rw [baseText_of_host h.target hf regular isName.text slashes, front]
        simp [Authority.write, Authority.text, portText, hf]
    · exact baseText_of_full h.target full slashes
  have again :
      Url.ParsedOther ⟨base.scheme, .segments authority (path.rdropWhile List.isEmpty), none, none⟩ authority
      (path.rdropWhile List.isEmpty) := ⟨h.scheme, h.kind, rfl, h.authority, settled⟩
  refine recurs_of_parse (path.rdropWhile List.isEmpty) h.target ?_ (List.rdropWhile_idempotent _ _) marks
  rw [text]
  refine parse_write_other again (fun none => ?_) ⟨rfl, rfl⟩
  rcases rest with ⟨found, _, rfl, _⟩ | full
  · cases none
  · exact full

end

section
variable {toAscii : ToAscii} (lawful : toAscii.Lawful) {base : Url} {n : Nat} {authority : Authority} {host : Host}
  {path : Path}
include lawful

/-- The base of a URL of the web read as a URL: its host is read again, and a path without a segment that has a text is
one empty segment. -/
theorem parse_baseText (hs : IsScheme base.scheme) (h : base.Parsed toAscii n authority host path) :
    Url.parse toAscii (baseText base) = (Host.ofDomain toAscii host.write).map fun host =>
      ⟨base.scheme, .segments (some { authority with host := some host })
        (if path.rdropWhile List.isEmpty = [] then [[]] else path.rdropWhile List.isEmpty), none, none⟩ := by
  obtain ⟨source, domain⟩ := h.domain
  have name := hostText_write lawful domain
  have visible := (allWritten_ofDomain lawful domain).visible
  rw [baseText_of_parsed lawful h]
  split
  · next none =>
    have empty : Path.write [] = [] := rfl
    rw [none, empty, List.append_nil, parse_authorityText hs h.kind h.regular name visible]
  · next full =>
    have settled : ∀ segment ∈ path.rdropWhile List.isEmpty, Settled segment := fun segment hs =>
      h.settled segment ((List.rdropWhile_prefix _ _).subset hs)
    have written : AllWritten (['/'].intercalate (path.rdropWhile List.isEmpty)) :=
      AllWritten.intercalate (by decide) (written_of_settled fun segment hs => (settled segment hs).within (.web n))
    have text : base.scheme ++ ':' :: '/' :: '/' :: (authority.text host.write ++
        Path.write (path.rdropWhile List.isEmpty)) =
        webText base.scheme authority host.write (['/'].intercalate (path.rdropWhile List.isEmpty)) none := by
      simp [webText, Path.write_eq full, queryText]
    rw [text, parse_webText hs h.kind h.regular name visible written (by simp), readPath_intercalate full settled]

theorem recurs_web (hs : IsScheme base.scheme) (h : base.Parsed toAscii n authority host path) (fits : HostFits base) :
    Recurs toAscii base := by
  obtain ⟨source, domain⟩ := h.domain
  have same : { authority with host := some host } = authority := by rw [← h.found]
  have read := parse_baseText lawful hs h
  rw [Host.ofDomain_write lawful domain ((hostFits_of_parsed h).1 fits), Except.map, same] at read
  refine recurs_of_parse _ h.target read ?_ rfl
  split
  · next none => rw [none]; rfl
  · exact List.rdropWhile_idempotent _ _

theorem parse_baseText_long (hs : IsScheme base.scheme) (h : base.Parsed toAscii n authority host path)
    (long : ¬HostFits base) :
    Url.parse toAscii (baseText base) = .error .badDomain := by
  obtain ⟨source, domain⟩ := h.domain
  rw [parse_baseText lawful hs h, Host.ofDomain_long lawful domain (mt (hostFits_of_parsed h).2 long)]
  rfl

end

section
variable {toAscii : ToAscii} {base : Url} {host : Option Host} {path : Path}

theorem dropEmpty_of_head? (full : path ≠ []) (first : path.head? ≠ some []) : Path.dropEmpty path = path := by
  match path, full with
  | [] :: rest, _ => exact absurd rfl first
  | (c :: segment) :: rest, _ => rfl

theorem rdropWhile_dropEmpty (h : base.ParsedFile toAscii host path) :
    (Path.dropEmpty (path.rdropWhile List.isEmpty)).rdropWhile List.isEmpty = path.rdropWhile List.isEmpty := by
  by_cases full : path.rdropWhile List.isEmpty = []
  · rw [full]
    rfl
  · rw [dropEmpty_of_head? full, List.rdropWhile_idempotent]
    rw [head?_rdropWhile full]
    rcases h.first with rfl | ⟨first, rest, rfl, text⟩
    · exact absurd rfl full
    · simpa using text

section
variable (h : base.ParsedFile toAscii host path)
  (settled : ∀ segment ∈ path.rdropWhile List.isEmpty, SettledIn .file segment)
include h settled

theorem recurs_here (here : host = none) : Recurs toAscii base := by
  subst here
  have slashes : ∀ segment ∈ path, '/' ∉ segment :=
    fun segment hs hc => absurd (h.cut segment hs _ hc).2 (by decide)
  by_cases full : path.rdropWhile List.isEmpty = []
  · -- Both slashes before the path are dropped too.
    have text : baseText base = "file:".toList := by
      rw [baseText_eq h.target, trimSlashes_append_write, full, h.scheme]
      rfl
    refine recurs_of_parse [[]] h.target ?_ (by rw [full]; rfl) rfl
    rw [text, h.scheme]
    rfl
  · have text : baseText base = Url.write ⟨"file".toList, .segments (some ⟨[], none, none, none⟩)
        (path.rdropWhile List.isEmpty), none, none⟩ := by
      rw [baseText_of_full h.target full slashes, write_bare, h.scheme]
      rfl
    refine recurs_of_parse (Path.dropEmpty (path.rdropWhile List.isEmpty)) h.target ?_ (rdropWhile_dropEmpty h) rfl
    rw [text, h.scheme]
    exact parse_write_here full settled

theorem recurs_there (lawful : toAscii.Lawful) {found : Host} (there : host = some found) (fits : found.Fits)
    (drive : ∀ first ∈ path.head?, Path.isDrive first = false) : Recurs toAscii base := by
  subst there
  have slashes : ∀ segment ∈ path, '/' ∉ segment :=
    fun segment hs hc => absurd (h.cut segment hs _ hc).2 (by decide)
  obtain ⟨other, source, domain⟩ := h.host found rfl
  have regular : Authority.Regular .file ⟨[], none, some found, none⟩ := ⟨by simp, by simp, by simp⟩
  have text : baseText base = Url.write ⟨"file".toList, .segments (some ⟨[], none, some found, none⟩)
      (path.rdropWhile List.isEmpty), none, none⟩ := by
    rw [baseText_of_host h.target rfl regular (hostText_write lawful domain) slashes, write_bare, h.scheme]
    simp [front, Authority.write, Authority.text, portText]
  have drive' : ∀ first ∈ (path.rdropWhile List.isEmpty).head?, Path.isDrive first = false := by
    intro first hf
    have full : path.rdropWhile List.isEmpty ≠ [] := fun none => by
      rw [none] at hf
      cases hf
    exact drive first (head?_rdropWhile full ▸ hf)
  refine recurs_of_parse (Path.dropEmpty (path.rdropWhile List.isEmpty)) h.target ?_ (rdropWhile_dropEmpty h) rfl
  rw [text, h.scheme]
  exact parse_write_there lawful domain fits other settled drive'

end

theorem recurs_file (lawful : toAscii.Lawful) (h : base.ParsedFile toAscii host path)
    (fits : ∀ found ∈ host, found.Fits)
    (dots : ∀ segment ∈ path, Path.isHere segment = false ∧ Path.isParent segment = false)
    (drive : host ≠ none → ∀ first ∈ path.head?, Path.isDrive first = false) : Recurs toAscii base := by
  have settled : ∀ segment ∈ path.rdropWhile List.isEmpty, SettledIn .file segment := fun segment hs =>
    have hm := (List.rdropWhile_prefix List.isEmpty path).subset hs
    ⟨fun c hc => (h.cut segment hm c hc).1, fun c hc => (h.cut segment hm c hc).2,
      (dots segment hm).1, (dots segment hm).2⟩
  cases hh : host with
  | none => exact recurs_here h settled hh
  | some found => exact recurs_there h settled lawful hh (fits found hh) (drive (by simp [hh]))

end

/-! ## Bases that last -/

/-- What makes the base of a URL a URL of the same base. On the web and for files, a reader takes back the host. In
other schemes there is a host, or a segment that has a text. The path of a file has no dots, which may stand behind a
drive only, and on a host no drive at its start. -/
def Lasting (base : Url) : Prop :=
  match Kind.ofScheme base.scheme with
  | .web _ => HostFits base
  | .other => base.authority?.bind Authority.host ≠ none ∨
      ∃ path ∈ base.path?, ∃ segment ∈ path, segment ≠ []
  | .file =>
    HostFits base ∧ ∀ path ∈ base.path?,
      (∀ segment ∈ path, Path.isHere segment = false ∧ Path.isParent segment = false) ∧
      (base.authority?.bind Authority.host ≠ none → ∀ first ∈ path.head?, Path.isDrive first = false)

theorem recurs_of_lasting {toAscii : ToAscii} (lawful : toAscii.Lawful) {text : List Char} {base : Url}
    (hb : Url.parse toAscii text = .ok base)
    (hp : base.path?.isSome = true) (lasting : Lasting base) : Recurs toAscii base := by
  have hs := (read_of_parse hb).1
  unfold Lasting at lasting
  cases hk : Kind.ofScheme base.scheme with
  | web n =>
    rw [hk] at lasting
    obtain ⟨authority, host, path, parsed⟩ := parsed_of_web hb hk
    exact recurs_web lawful hs parsed lasting
  | other =>
    rw [hk] at lasting
    obtain ⟨authority, path, parsed⟩ := parsed_of_other hb hk hp
    simp only [Url.authority?, Url.path?, parsed.target] at lasting
    refine recurs_other parsed ?_
    rcases lasting with named | ⟨_, hp, segment, hs, text⟩
    · obtain ⟨host, hh⟩ := Option.ne_none_iff_exists'.1 named
      obtain ⟨found, ha, hf⟩ := Option.bind_eq_some_iff.1 hh
      exact .inl ⟨found, host, ha, hf⟩
    · cases hp
      exact .inr (rdropWhile_ne_nil hs text)
  | file =>
    rw [hk] at lasting
    obtain ⟨host, path, parsed⟩ := parsed_of_file hb hk
    simp only [HostFits, Url.authority?, Url.path?, parsed.target] at lasting
    obtain ⟨fits, rest⟩ := lasting
    obtain ⟨dots, drive⟩ := rest path rfl
    exact recurs_file lawful parsed (fits _ rfl) dots drive

theorem getLast?_baseText {base : Url} : (baseText base).getLast? ≠ some '/' := by
  intro last
  rw [baseText, trimSlashes_eq] at last
  have full := List.ne_nil_of_mem (List.mem_of_getLast? last)
  refine List.rdropWhile_last_not _ _ full ?_
  rw [List.getLast_of_getLast?_eq_some last]
  rfl

end Endpoint

end SearchRelay
