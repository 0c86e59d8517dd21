import SearchRelay.Proofs.Url.Parsed

/-!
# URLs of files, read back

The place of a file is found piece by piece, and its drive makes the way back
less simple than elsewhere: a drive that was parted from the rest of its piece
may stand before dots, and behind a host. What is written of any other URL of a
file is read as that URL again.
-/

namespace SearchRelay.Url

variable {toAscii : ToAscii}

/-! ## Segments -/

/-- What all segments of a path hold: characters that are written as they are, and no slash. -/
def IsCut (segment : List Char) : Prop := ∀ c ∈ segment, isKeptInPath c = true ∧ isSlash .file c = false

theorem isCut_escapeSegment {segment : List Char} (h : ∀ c ∈ segment, isSlash .file c = false) :
    IsCut (escapeSegment segment) := fun c hc =>
  ⟨Percent.kept_encode isKeptInPath_of_isEscaping segment c hc, not_isSlash_of_mem_escapeSegment h c hc⟩

theorem isCut_isDrive {drive : List Char} (h : Path.isDrive drive = true) : IsCut drive := by
  unfold Path.isDrive at h
  split at h
  · next letter mark =>
    simp only [Bool.and_eq_true, Bool.or_eq_true, beq_iff_eq] at h
    have kept := of_isWritten (p := Ascii.isLetter) (q := fun c => isKeptInPath c && !isSlash .file c) (by decide)
      (isWritten_of_isLetter h.1) h.1
    simp only [Bool.and_eq_true, Bool.not_eq_true'] at kept
    simp only [IsCut, List.mem_cons, List.not_mem_nil, or_false]
    rintro c (rfl | rfl)
    · exact kept
    · rcases h.2 with rfl | rfl <;> decide
  · cases h

/-! ## What was read -/

theorem dropEmpty_eq (path : Path) : Path.dropEmpty path = [[]] ∨
    Path.dropEmpty path = path.dropWhile List.isEmpty ∧
      ∃ first rest, path.dropWhile List.isEmpty = first :: rest ∧ first ≠ [] := by
  unfold Path.dropEmpty
  cases hp : path.dropWhile List.isEmpty with
  | nil => exact .inl rfl
  | cons first rest =>
    have full := List.head?_dropWhile_not List.isEmpty path
    rw [hp] at full
    exact .inr ⟨rfl, first, rest, rfl, by simpa using full⟩

/-- A URL of a file as it comes from a text. -/
structure ParsedFile (toAscii : ToAscii) (url : Url) (host : Option Host) (path : Path) : Prop where
  scheme : url.scheme = "file".toList
  target : url.target = .segments (some ⟨[], none, host, none⟩) path
  host : ∀ found ∈ host, found ≠ .named "localhost".toList ∧ ∃ text, Host.ofDomain toAscii text = .ok found
  cut : ∀ segment ∈ path, IsCut segment
  first : path = [[]] ∨ ∃ first rest, path = first :: rest ∧ first ≠ []

theorem parsedFile_fileUrl {host : Option Host}
    (hh : ∀ found ∈ host, found ≠ .named "localhost".toList ∧ ∃ text, Host.ofDomain toAscii text = .ok found)
    (text tail : List Char) : ∃ found path, (fileUrl host text tail).ParsedFile toAscii found path := by
  have cut : ∀ segment ∈ ((Path.steps (pieces .file text)).foldl FilePlace.walk ⟨host, []⟩).path,
    IsCut segment := by
    intro segment hs
    rcases mem_fileWalks hs with hs | drive | ⟨piece, part, hp, sub, rfl⟩
    · cases hs
    · exact isCut_isDrive drive
    · refine isCut_escapeSegment fun c hc => ?_
      rcases settled_of_mem_steps hp with rfl | ⟨hp, -⟩
      · cases sub hc
      · exact not_isSlash_of_mem_pieces hp c (sub hc)
  have nothing : IsCut [] := fun c hc => absurd hc List.not_mem_nil
  rcases dropEmpty_eq ((Path.steps (pieces .file text)).foldl FilePlace.walk ⟨host, []⟩).path with
    he | ⟨he, found⟩
  · refine ⟨_, _, rfl, rfl, fun found hf => hh found (host_fileWalks hf), fun segment hs => ?_, .inl he⟩
    rw [he, List.mem_singleton] at hs
    rwa [hs]
  · refine ⟨_, _, rfl, rfl, fun found hf => hh found (host_fileWalks hf),
      fun segment hs => ?_, .inr (he ▸ found)⟩
    rw [he] at hs
    exact cut segment ((List.dropWhile_sublist _).subset hs)

theorem parsed_of_file {text : List Char} {url : Url} (h : Url.parse toAscii text = .ok url)
    (hk : Kind.ofScheme url.scheme = .file) : ∃ host path, url.ParsedFile toAscii host path := by
  obtain ⟨-, rest, read⟩ := read_of_parse h
  rw [hk] at read
  have here : ∀ found ∈ (none : Option Host), found ≠ .named "localhost".toList ∧
    ∃ text, Host.ofDomain toAscii text = .ok found :=
    fun _ found => (by cases found)
  simp only [readFile] at read
  split at read
  · cases read
    exact parsedFile_fileUrl here _ _
  split at read
  · cases read
    exact parsedFile_fileUrl here _ _
  simp only [readFileAuthority] at read
  split at read
  · cases read
    exact parsedFile_fileUrl here _ _
  obtain ⟨host, hh, read⟩ := Result.bind_eq_ok.1 read
  cases host with
  | none =>
    cases read
    exact parsedFile_fileUrl here _ _
  | some host =>
    cases read
    refine parsedFile_fileUrl ?_ _ _
    rintro _ ⟨⟩
    unfold readFileHost at hh
    split at hh
    · cases hh
    · obtain ⟨found, domain, he⟩ := Result.map_eq_ok.1 hh
      split at he
      · cases he
      · next other =>
        cases he
        exact ⟨other, _, domain⟩

/-! ## Reading it back -/

theorem cutDrive?_eq_none {segment : List Char} (h : Visible segment) : Path.cutDrive? segment = none := by
  unfold Path.cutDrive?
  split
  · next letter colon mark rest cut =>
    have joined := (append_of_span cut).1
    have visible := h mark (by rw [joined]; simp)
    have whole : isBreak mark = false := by
      rw [← Bool.not_eq_true]
      intro broken
      simp only [isBreak, Bool.or_eq_true, beq_iff_eq] at broken
      rcases broken with (rfl | rfl) | rfl <;> exact absurd visible (by decide)
    rw [whole]
    rfl
  · rfl

theorem SettledIn.visible {kind : Kind} {segment : List Char} (h : SettledIn kind segment) : Visible segment :=
  AllWritten.visible fun c hc => isWritten_of_isKeptInPath (h.kept c hc)

/-- A settled segment is entered as it is, unless it is a drive at the start of the path. -/
theorem enter_settled {place : FilePlace} {segment : List Char} (h : SettledIn .file segment)
    (hd : place.path = [] → Path.isDrive segment = false) :
    place.enter segment = { place with path := place.path ++ [segment] } := by
  have same : escapeSegment (unbroken segment) = segment := by
    rw [h.visible.unbroken]
    exact Percent.encode_eq_self h.kept
  obtain ⟨host, path⟩ := place
  cases path with
  | nil => simp [FilePlace.enter, same, cutDrive?_eq_none h.visible, hd rfl]
  | cons first path => simp [FilePlace.enter, same]

theorem foldl_fileWalk : ∀ {segments : List (List Char)} {place : FilePlace},
    (∀ segment ∈ segments, SettledIn .file segment) →
    (place.path = [] → ∀ first ∈ segments.head?, Path.isDrive first = false) →
    (segments.map some).foldl FilePlace.walk place = { place with path := place.path ++ segments }
  | [], place, _, _ => by simp
  | segment :: segments, place, h, hd => by
    rw [List.map_cons, List.foldl_cons, FilePlace.walk,
      enter_settled (h segment List.mem_cons_self) fun none => hd none segment rfl,
      foldl_fileWalk (fun s hs => h s (List.mem_cons_of_mem _ hs)) (by simp)]
    simp

theorem fileUrl_settled {host : Option Host} {segments : List (List Char)} (full : segments ≠ [])
    (h : ∀ segment ∈ segments, SettledIn .file segment)
    (hd : ∀ first ∈ segments.head?, Path.isDrive first = false) :
    fileUrl host (['/'].intercalate segments) [] =
      ⟨"file".toList, .segments (some ⟨[], none, host, none⟩) (Path.dropEmpty segments), none, none⟩ := by
  simp only [fileUrl, pieces_intercalate full fun segment hs => (h segment hs).slash, steps_of_settled h]
  rw [foldl_fileWalk h fun _ => hd]
  rfl

theorem not_isDrive_write (lawful : toAscii.Lawful) {text : List Char} {host : Host}
    (h : Host.ofDomain toAscii text = .ok host) :
    Path.isDrive host.write = false := by
  have ofAllowed {name : List Char} (allowed : ∀ c ∈ name, Domain.isForbidden c = false) :
    Path.isDrive name = false := by
    rw [← Bool.not_eq_true]
    intro drive
    unfold Path.isDrive at drive
    split at drive
    · next mark =>
      have other := allowed mark (by simp)
      simp only [Bool.and_eq_true, Bool.or_eq_true, beq_iff_eq] at drive
      rcases drive.2 with rfl | rfl <;> exact absurd other (by decide)
    · cases drive
  cases host with
  | named name => exact ofAllowed fun c hc => (lawful.output (Host.domain_of_named h).1 c hc).2
  | ipv4 address => exact ofAllowed fun c hc => (lawful.output (Host.domain_ipv4 lawful address) c hc).2
  | ipv6 address =>
    have bracket : ∀ rest, Path.isDrive ('[' :: rest) = false
      | [] => rfl
      | [_] => rfl
      | _ :: _ :: _ => rfl
    exact bracket _

theorem readFile_slashes (text : List Char) :
    readFile toAscii ('/' :: '/' :: text) = readFileAuthority toAscii text := rfl

theorem parse_file {rest : List Char} (h : AllWritten rest) :
    Url.parse toAscii ("file".toList ++ ':' :: rest) = readFile toAscii rest := by
  have visible : Visible ("file".toList ++ ':' :: rest) :=
    visible_append isScheme_file.visible (visible_cons (by decide) h.visible)
  rw [parse_scheme isScheme_file visible.trim, show Kind.ofScheme "file".toList = .file by decide]

section
variable {path : Path}

/-- What is written of a file on this machine is read as that file, if its path begins with a
segment that has a text. -/
theorem parse_write_here (full : path ≠ []) (h : ∀ segment ∈ path, SettledIn .file segment) :
    Url.parse toAscii (Url.write ⟨"file".toList, .segments (some ⟨[], none, none, none⟩) path, none, none⟩) =
      .ok ⟨"file".toList, .segments (some ⟨[], none, none, none⟩) (Path.dropEmpty path), none, none⟩ := by
  have written : AllWritten path.write := (written_of_settled h).write
  have text : Url.write ⟨"file".toList, .segments (some ⟨[], none, none, none⟩) path, none, none⟩ =
      "file".toList ++ ':' :: '/' :: '/' :: path.write := by
    simp [Url.write, Target.write, Authority.write, Authority.writeCredentials, Authority.hasCredentials]
  have opened : path.write = ['/'].intercalate ([] :: path) := by
    obtain ⟨first, rest, rfl⟩ := List.exists_cons_of_ne_nil full
    rw [Path.write_eq full, List.intercalate_cons_cons]
    rfl
  have settled : ∀ segment ∈ [] :: path, SettledIn .file segment := List.forall_mem_cons.2 ⟨settledIn_nil _, h⟩
  have atSlash : path.write.span (!isSlash .file ·) = ([], path.write) := by
    rw [Path.write_eq full]
    rfl
  rw [text, parse_file (by simpa using ⟨by decide, written⟩), readFile_slashes, readFileAuthority,
    span_of_allWritten written]
  simp only [atSlash]
  rw [opened]
  exact congrArg Except.ok (fileUrl_settled (List.cons_ne_nil _ _) settled fun first hf => by cases hf; rfl)

/-- What is written of a file on a host is read as that file, if its path does not begin with a drive. -/
theorem parse_write_there (lawful : toAscii.Lawful) {text : List Char} {host : Host}
    (domain : Host.ofDomain toAscii text = .ok host) (fits : host.Fits)
    (other : host ≠ .named "localhost".toList) (h : ∀ segment ∈ path, SettledIn .file segment)
    (hd : ∀ first ∈ path.head?, Path.isDrive first = false) :
    Url.parse toAscii
        (Url.write ⟨"file".toList, .segments (some ⟨[], none, some host, none⟩) path, none, none⟩) =
      .ok ⟨"file".toList, .segments (some ⟨[], none, some host, none⟩) (Path.dropEmpty path), none, none⟩ := by
  have written : AllWritten path.write := (written_of_settled h).write
  have name := hostText_write lawful domain
  have named := allWritten_ofDomain lawful domain
  have form : Url.write ⟨"file".toList, .segments (some ⟨[], none, some host, none⟩) path, none, none⟩ =
      "file".toList ++ ':' :: '/' :: '/' :: (host.write ++ path.write) := by
    simp [Url.write, Target.write, Authority.write, Authority.writeCredentials, Authority.hasCredentials]
  have inside : ∀ c ∈ host.write, (!isSlash .file c) = true := by
    intro c hc
    have := name.marks c hc
    simp only [List.mem_cons, not_or] at this
    simp [isSlash, this]
  have atSlash : (host.write ++ path.write).span (!isSlash .file ·) = (host.write, path.write) :=
    span_append inside fun c hc => by
      cases path with
      | nil => cases hc
      | cons first rest =>
        cases hc
        rfl
  have whole : AllWritten (host.write ++ path.write) := allWritten_append.2 ⟨named, written⟩
  have read : readFileHost toAscii host.write = .ok (some host) := by
    rw [readFileHost, if_neg (by simp [name.full]), Host.ofDomain_write lawful domain fits, Except.map, if_neg other]
  rw [form, parse_file (by simpa using ⟨by decide, named, written⟩), readFile_slashes, readFileAuthority,
    span_of_allWritten whole]
  simp only [atSlash, named.visible.unbroken, not_isDrive_write lawful domain, read, Bool.false_eq_true,
    if_false, bind, Except.bind]
  refine congrArg Except.ok ?_
  cases path with
  | nil =>
    have empty : ∀ segment ∈ [([] : List Char)], SettledIn .file segment := by simp [settledIn_nil]
    exact fileUrl_settled (List.cons_ne_nil _ _) empty (by simp [Path.isDrive])
  | cons first rest =>
    have full : first :: rest ≠ [] := List.cons_ne_nil _ _
    rw [Path.write_eq full]
    exact fileUrl_settled full h hd

end

end SearchRelay.Url
