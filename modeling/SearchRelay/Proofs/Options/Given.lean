import SearchRelay.Options.Parser
import SearchRelay.Proofs.Result
import SearchRelay.Proofs.Text.Pieces

/-!
# What a command line gives

A command line that is accepted spells flags, each once and with its value, in
one way only. Each of them takes effect: it decides the base URL or the route.
One does not: a local port beside a local key, which is accepted although no
local host is given, and decides nothing.
-/

namespace SearchRelay

/-! ## The spelling of flags -/

def Flag.word (flag : Flag) : List UInt8 := 45 :: 45 :: flag.name.toUTF8.toList

namespace Options

/-- What a word names: a flag, and the value that is attached to it, if one is. The URL has a letter, too. -/
inductive Names : List UInt8 → Flag → Option (List UInt8) → Prop where
  | name (flag : Flag) : Names flag.word flag none
  | nameValue (flag : Flag) (value : List UInt8) : Names (flag.word ++ 61 :: value) flag (some value)
  | letter : Names [45, 117] .url none
  | letterSign (value : List UInt8) : Names (45 :: 117 :: 61 :: value) .url (some value)
  | letterValue {first : UInt8} (value : List UInt8) : first ≠ 61 →
      Names (45 :: 117 :: first :: value) .url (some (first :: value))

/-- Whether a word may be a value by itself: it does not begin with a hyphen, or is nothing else. -/
def StandsAlone (word : List UInt8) : Prop := word.head? = some 45 → word = [45]

/-- Whether some words give flags with values, in this order. Two hyphens may end them. -/
inductive Gives : List (List UInt8) → List (Flag × List UInt8) → Prop where
  | nothing : Gives [] []
  | escape : Gives [[45, 45]] []
  | attached {word value : List UInt8} {words : List (List UInt8)} {flag : Flag} {given : List (Flag × List UInt8)} :
      Names word flag (some value) → Gives words given → Gives (word :: words) ((flag, value) :: given)
  | apart {word value : List UInt8} {words : List (List UInt8)} {flag : Flag} {given : List (Flag × List UInt8)} :
      Names word flag none → StandsAlone value → Gives words given →
      Gives (word :: value :: words) ((flag, value) :: given)

/-! ## Words -/

def Word.request : Word → Except Fault Request
  | .long name content => requestLong name content
  | .short letter rest => requestShort letter rest
  | .escape => .error .unknownArgument
  | .value _ => .error .unknownArgument

theorem ofName?_name (flag : Flag) : Flag.ofName? flag.name.toUTF8.toList = some flag := by
  cases flag <;> decide +kernel

theorem name_of_ofName? {name : List UInt8} {flag : Flag} (h : Flag.ofName? name = some flag) :
    flag.name.toUTF8.toList = name := by
  simpa using List.find?_some h

theorem sign_not_mem_name (flag : Flag) : ∀ b ∈ flag.name.toUTF8.toList, (b != 61) = true := by
  cases flag <;> decide +kernel

theorem requestLong_name (flag : Flag) (value : Option (List UInt8)) :
    requestLong flag.name.toUTF8.toList value = .ok (.flag flag value) := by
  have help : flag.name.toUTF8.toList ≠ "help".toUTF8.toList := by cases flag <;> decide +kernel
  have version : flag.name.toUTF8.toList ≠ "version".toUTF8.toList := by cases flag <;> decide +kernel
  simp only [requestLong, if_neg help, if_neg version, ofName?_name]

theorem ofBytes_long {text : List UInt8} (h : text ≠ []) : Word.ofBytes (45 :: 45 :: text) = .ofLong text := by
  cases text with
  | nil => exact absurd rfl h
  | cons b text => rfl

theorem name_ne_nil (flag : Flag) : flag.name.toUTF8.toList ≠ [] := by cases flag <;> decide +kernel

theorem request_ofBytes {word : List UInt8} {flag : Flag} {value : Option (List UInt8)} (h : Names word flag value) :
    (Word.ofBytes word).request = .ok (.flag flag value) := by
  cases h with
  | name =>
    have cut := span_append (b := []) (sign_not_mem_name flag) (by simp)
    rw [List.append_nil] at cut
    rw [Flag.word, ofBytes_long (name_ne_nil flag), Word.ofLong, cut]
    exact requestLong_name flag none
  | nameValue _ value =>
    have cut := span_append (b := 61 :: value) (sign_not_mem_name flag) (by simp)
    have full : flag.name.toUTF8.toList ++ 61 :: value ≠ [] := by simp
    rw [Flag.word, List.cons_append, List.cons_append, ofBytes_long full, Word.ofLong, cut]
    exact requestLong_name flag (some value)
  | letter => rfl
  | letterSign => rfl
  | @letterValue first value other =>
    have apart : attached (first :: value) = some (first :: value) := by
      simp [attached, other]
    exact congrArg (fun content => Except.ok (Request.flag .url content)) apart

theorem flag_of_requestLong {name : List UInt8} {content value : Option (List UInt8)} {flag : Flag}
    (h : requestLong name content = .ok (.flag flag value)) : name = flag.name.toUTF8.toList ∧ content = value := by
  unfold requestLong at h
  split at h
  · split at h <;> cases h
  split at h
  · split at h <;> cases h
  split at h
  · next found hf =>
    cases h
    exact ⟨(name_of_ofName? hf).symm, rfl⟩
  · cases h

theorem names_of_request {word : List UInt8} {flag : Flag} {value : Option (List UInt8)}
    (h : (Word.ofBytes word).request = .ok (.flag flag value)) : Names word flag value := by
  unfold Word.ofBytes at h
  split at h
  · cases h
  · next text _ =>
    unfold Word.ofLong at h
    split at h
    · next name cut =>
      obtain ⟨rfl, rfl⟩ := flag_of_requestLong h
      rw [(append_of_span cut).1, List.append_nil]
      exact .name flag
    · next name sign content cut =>
      obtain ⟨rfl, rfl⟩ := flag_of_requestLong h
      obtain ⟨rfl, ends⟩ := append_of_span cut
      obtain rfl : sign = 61 := by simpa using ends sign rfl
      exact .nameValue flag content
  · next letter rest _ _ =>
    simp only [Word.request, requestShort] at h
    split at h
    · cases h
    split at h
    · cases h
    split at h
    · next hu =>
      subst hu
      cases h
      cases rest with
      | nil => exact .letter
      | cons first content =>
        by_cases other : first = 61
        · subst other
          exact .letterSign content
        · simpa [attached, other] using Names.letterValue content other
    · cases h
  · cases h

theorem ofBytes_value {word : List UInt8} (h : StandsAlone word) : Word.ofBytes word = .value word := by
  unfold Word.ofBytes
  split
  · simp [StandsAlone] at h
  · simp [StandsAlone] at h
  · simp [StandsAlone] at h
  · rfl

theorem standsAlone_of_ofBytes {word value : List UInt8} (h : Word.ofBytes word = .value value) :
    value = word ∧ StandsAlone word := by
  unfold Word.ofBytes at h
  split at h
  · cases h
  · unfold Word.ofLong at h
    split at h <;> cases h
  · cases h
  · next first second =>
    cases h
    refine ⟨rfl, fun hyphen => ?_⟩
    obtain ⟨rest, rfl⟩ := List.head?_eq_some_iff.1 hyphen
    cases rest with
    | nil => rfl
    | cons letter rest => exact absurd rfl (second letter rest)

theorem escape_of_ofBytes {word : List UInt8} (h : Word.ofBytes word = .escape) : word = [45, 45] := by
  unfold Word.ofBytes at h
  split at h
  · rfl
  · unfold Word.ofLong at h
    split at h <;> cases h
  · cases h
  · cases h

/-! ## Reading -/

theorem words_request (r : Reading) {word : Word} {request : Request} (h : word.request = .ok request)
    (rest : List Word) : r.words (word :: rest) = r.follow request >>= (·.words rest) := by
  cases word with
  | escape => cases h
  | value content => cases h
  | long name content =>
    simp only [Word.request] at h
    simp only [Reading.words, h]
    rfl
  | short letter more =>
    simp only [Word.request] at h
    simp only [Reading.words, h]
    rfl

/-- What a word that is read can be: the end of the words, the value that is awaited, or a request. -/
theorem words_cons_eq_ok {r last : Reading} {word : Word} {rest : List Word} (h : r.words (word :: rest) = .ok last) :
    (word = .escape ∧ rest = [] ∧ last = r) ∨
      (∃ flag value, word = .value value ∧ r.pending = some (flag, none) ∧
        Reading.words ⟨r.options, some (flag, some value)⟩ rest = .ok last) ∨
      ∃ request next, word.request = .ok request ∧ r.follow request = .ok next ∧ next.words rest = .ok last := by
  cases word with
  | escape =>
    unfold Reading.words at h
    split at h
    · next ends =>
      cases h
      exact .inl ⟨rfl, List.isEmpty_iff.1 ends, rfl⟩
    · cases h
  | value value =>
    obtain ⟨next, taken, h⟩ := Result.bind_eq_ok.1 h
    unfold Reading.takeValue at taken
    split at taken
    · next flag awaited =>
      cases taken
      exact .inr (.inl ⟨flag, value, rfl, awaited, h⟩)
    · cases taken
  | long name content =>
    obtain ⟨request, asked, h⟩ := Result.bind_eq_ok.1 h
    obtain ⟨next, followed, h⟩ := Result.bind_eq_ok.1 h
    exact .inr (.inr ⟨request, next, Result.mapError_eq_ok.1 asked, followed, h⟩)
  | short letter more =>
    obtain ⟨request, asked, h⟩ := Result.bind_eq_ok.1 h
    obtain ⟨next, followed, h⟩ := Result.bind_eq_ok.1 h
    exact .inr (.inr ⟨request, next, Result.mapError_eq_ok.1 asked, followed, h⟩)

/-- A request that is followed is a flag. Its value is taken, or awaited. -/
theorem follow_eq_ok {r next : Reading} {request : Request} (h : r.follow request = .ok next) :
    ∃ options flag, r.resolve = .ok options ∧
      ((request = .flag flag none ∧ next = ⟨options, some (flag, none)⟩) ∨
        ∃ value taken, request = .flag flag (some value) ∧ options.set flag value = .ok taken ∧
          next = ⟨taken, none⟩) := by
  unfold Reading.follow at h
  split at h
  · cases h
  next options resolved =>
  split at h
  · cases h
  · cases h
  · next flag =>
    cases h
    exact ⟨options, flag, resolved, .inl ⟨rfl, rfl⟩⟩
  · next flag value =>
    obtain ⟨taken, ht, rfl⟩ := Result.map_eq_ok.1 (Result.mapError_eq_ok.1 h)
    exact ⟨options, flag, resolved, .inr ⟨value, taken, rfl, ht, rfl⟩⟩

def setAll (options : Options) : List (Flag × List UInt8) → Except Fault Options
  | [] => .ok options
  | (flag, value) :: given => options.set flag value >>= (·.setAll given)

theorem gives_of_words {last : Reading} {final : Options} (done : last.resolve = .ok final) :
    ∀ {args : List (List UInt8)} {r : Reading}, r.words (args.map Word.ofBytes) = .ok last →
      (∃ options given, r.resolve = .ok options ∧ Gives args given ∧ options.setAll given = .ok final) ∨
        ∃ flag value rest given, r.pending = some (flag, none) ∧ args = value :: rest ∧ StandsAlone value ∧
          Gives rest given ∧ r.options.setAll ((flag, value) :: given) = .ok final
  | [], r, h => by
    cases h
    exact .inl ⟨final, [], done, .nothing, rfl⟩
  | word :: args, r, read => by
    -- A flag without a value is pending in the rest of the words, and takes its first word there.
    rcases words_cons_eq_ok read with
      ⟨hw, ends, rfl⟩ | ⟨flag, value, hw, awaited, h⟩ | ⟨request, next, hw, followed, h⟩
    · rw [escape_of_ofBytes hw, List.map_eq_nil_iff.1 ends]
      exact .inl ⟨final, [], done, .escape, rfl⟩
    · obtain ⟨rfl, alone⟩ := standsAlone_of_ofBytes hw
      rcases gives_of_words done h with ⟨options, given, taken, gives, all⟩ | ⟨_, _, _, _, pending, _⟩
      · exact .inr ⟨flag, value, args, given, awaited, rfl, alone, gives,
          Result.bind_eq_ok.2 ⟨options, taken, all⟩⟩
      · cases pending
    · obtain ⟨options, flag, resolved, ⟨rfl, rfl⟩ | ⟨value, taken, rfl, ht, rfl⟩⟩ := follow_eq_ok followed
      · rcases gives_of_words done h with
          ⟨_, _, unresolved, _⟩ | ⟨_, value, rest, given, pending, rfl, alone, gives, all⟩
        · cases unresolved
        · cases pending
          exact .inl ⟨options, _, resolved, .apart (names_of_request hw) alone gives, all⟩
      · rcases gives_of_words done h with ⟨_, given, resolvedNext, gives, all⟩ | ⟨_, _, _, _, pending, _⟩
        · cases resolvedNext
          exact .inl ⟨options, _, resolved, .attached (names_of_request hw) gives,
            Result.bind_eq_ok.2 ⟨taken, ht, all⟩⟩
        · cases pending

theorem words_of_gives {args : List (List UInt8)} {given : List (Flag × List UInt8)} {r : Reading}
    {options final : Options} (h : Gives args given) (resolved : r.resolve = .ok options)
    (all : options.setAll given = .ok final) :
    ∃ last, r.words (args.map Word.ofBytes) = .ok last ∧ last.resolve = .ok final := by
  induction h generalizing r options with
  | nothing =>
    cases all
    exact ⟨r, rfl, resolved⟩
  | escape =>
    cases all
    exact ⟨r, rfl, resolved⟩
  | attached named _ ih =>
    obtain ⟨taken, ht, all⟩ := Result.bind_eq_ok.1 all
    rw [List.map_cons, words_request r (request_ofBytes named), Reading.follow, resolved]
    simp only [ht]
    exact ih rfl all
  | apart named alone _ ih =>
    obtain ⟨taken, ht, all⟩ := Result.bind_eq_ok.1 all
    rw [List.map_cons, words_request r (request_ofBytes named), Reading.follow, resolved, List.map_cons,
      ofBytes_value alone]
    exact ih ht all

theorem check_eq_ok {options found : Options} : options.check = .ok found ↔
    options = found ∧ options.conflict = false ∧ options.lacksHost = false := by
  cases hc : options.conflict <;> cases hl : options.lacksHost <;> simp [check, hc, hl]

/-- A command line is accepted if it gives flags whose values can be taken and that go together. -/
theorem parse_eq_ok {args : List (List UInt8)} {options : Options} :
    parse args = .ok options ↔ ∃ given, Gives args given ∧ empty.setAll given = .ok options ∧
      options.conflict = false ∧ options.lacksHost = false := by
  constructor
  · intro h
    obtain ⟨last, read, h⟩ := Result.bind_eq_ok.1 h
    obtain ⟨found, done, checked⟩ := Result.bind_eq_ok.1 (Result.mapError_eq_ok.1 h)
    obtain ⟨rfl, together⟩ := check_eq_ok.1 checked
    rcases gives_of_words done read with ⟨options, given, resolved, gives, all⟩ | ⟨_, _, _, _, pending, _⟩
    · cases resolved
      exact ⟨given, gives, all, together⟩
    · cases pending
  · rintro ⟨given, gives, all, together⟩
    obtain ⟨last, read, done⟩ := words_of_gives (r := ⟨empty, none⟩) gives rfl all
    have checked : options.check = .ok options := check_eq_ok.2 ⟨rfl, together⟩
    exact Result.bind_eq_ok.2 ⟨last, read,
      Result.mapError_eq_ok.2 (Result.bind_eq_ok.2 ⟨options, done, checked⟩)⟩

theorem Names.unique {word : List UInt8} {flag other : Flag} {value content : Option (List UInt8)}
    (h : Names word flag value) (ho : Names word other content) : other = flag ∧ content = value := by
  have he := (request_ofBytes ho).symm.trans (request_ofBytes h)
  simpa using he

theorem not_names_escape {flag : Flag} {value : Option (List UInt8)} : ¬ Names [45, 45] flag value := by
  intro h
  cases request_ofBytes h

theorem Gives.unique {args : List (List UInt8)} {given other : List (Flag × List UInt8)} (h : Gives args given)
    (ho : Gives args other) : other = given := by
  induction h generalizing other with
  | nothing =>
    cases ho
    rfl
  | escape =>
    cases ho with
    | escape => rfl
    | attached named _ => exact absurd named not_names_escape
  | attached named _ ih =>
    cases ho with
    | escape => exact absurd named not_names_escape
    | attached otherNamed gives =>
      obtain ⟨rfl, he⟩ := named.unique otherNamed
      rw [ih gives, Option.some.inj he]
    | apart otherNamed => cases (named.unique otherNamed).2
  | apart named _ _ ih =>
    cases ho with
    | attached otherNamed => cases (named.unique otherNamed).2
    | apart otherNamed _ gives => rw [(named.unique otherNamed).1, ih gives]

/-! ## The values of flags -/

/-- The value that stands behind a flag was taken for it. -/
def Holds (options : Options) (value : List UInt8) : Flag → Prop
  | .remoteHost => ∃ host, textValue value = .ok host ∧ options.remoteHost = some host
  | .remotePort => ∃ port, portValue value = .ok port ∧ options.remotePort = some port
  | .url => ∃ url, textValue value = .ok url ∧ options.url = some url
  | .localKey => ∃ key, textValue value = .ok key ∧ options.localKey = some key
  | .localHost => ∃ host, textValue value = .ok host ∧ options.localHost = some host
  | .localPort => ∃ port, portValue value = .ok port ∧ options.localPort = some port
  | .timeout => ∃ seconds, secondsValue value = .ok seconds ∧ options.timeout = some seconds
  | .logFile => value ≠ [] ∧ options.logFile = some value

theorem set_eq_ok {options taken : Options} {flag : Flag} {value : List UInt8}
    (h : options.set flag value = .ok taken) : options.has flag = false ∧ taken.has flag = true ∧
      taken.Holds value flag ∧
      ∀ other, other ≠ flag → taken.has other = options.has other ∧ ∀ v, options.Holds v other →
        taken.Holds v other := by
  unfold set at h
  split at h
  · cases h
  next free =>
  refine ⟨by simpa using free, ?_⟩
  cases flag with
  | logFile =>
    obtain ⟨read, hr, rfl⟩ := Result.map_eq_ok.1 h
    unfold pathValue at hr
    split at hr
    · cases hr
    · next full =>
      cases hr
      refine ⟨rfl, ⟨by simpa using full, rfl⟩, fun other distinct => ?_⟩
      cases other <;> first | exact absurd rfl distinct | exact ⟨rfl, fun _ held => held⟩
  | _ =>
    obtain ⟨read, hr, rfl⟩ := Result.map_eq_ok.1 h
    refine ⟨rfl, ⟨read, hr, rfl⟩, fun other distinct => ?_⟩
    cases other <;> first | exact absurd rfl distinct | exact ⟨rfl, fun _ held => held⟩

theorem has_of_holds {options : Options} {value : List UInt8} {flag : Flag} (h : options.Holds value flag) :
    options.has flag = true := by
  cases flag with
  | logFile => simp [has, h.2]
  | _ =>
    obtain ⟨_, _, held⟩ := h
    simp [has, held]

/-- What options are after the values of some flags were taken. -/
structure Takes (options final : Options) (given : List (Flag × List UInt8)) : Prop where
  once : (given.map Prod.fst).Nodup
  free : ∀ flag ∈ given.map Prod.fst, options.has flag = false
  has : ∀ flag, final.has flag = true ↔ options.has flag = true ∨ flag ∈ given.map Prod.fst
  kept : ∀ flag value, options.Holds value flag → final.Holds value flag
  held : ∀ flag value, (flag, value) ∈ given → final.Holds value flag

theorem takes_of_setAll {final : Options} : ∀ {given : List (Flag × List UInt8)} {options : Options},
    options.setAll given = .ok final → options.Takes final given
  | [], options, h => by
    cases h
    exact ⟨List.nodup_nil, by simp, by simp, fun _ _ held => held, by simp⟩
  | (flag, value) :: given, options, h => by
    obtain ⟨taken, ht, all⟩ := Result.bind_eq_ok.1 h
    obtain ⟨free, now, held, others⟩ := set_eq_ok ht
    have rest := takes_of_setAll all
    have absent : flag ∉ given.map Prod.fst := fun hf => by
      rw [rest.free flag hf] at now
      cases now
    refine ⟨List.nodup_cons.2 ⟨absent, rest.once⟩, ?_, ?_, ?_, ?_⟩
    · intro other ho
      rcases List.mem_cons.1 ho with rfl | ho
      · exact free
      · have distinct : other ≠ flag := fun he => absent (he ▸ ho)
        rw [← (others other distinct).1]
        exact rest.free other ho
    · intro other
      rw [rest.has, List.map_cons, List.mem_cons]
      by_cases he : other = flag
      · simp [he, now]
      · simp [he, (others other he).1]
    · intro other v ho
      have distinct : other ≠ flag := fun he => by
        rw [← he, has_of_holds ho] at free
        cases free
      exact rest.kept other v ((others other distinct).2 v ho)
    · intro other v hm
      rcases List.mem_cons.1 hm with he | hm
      · cases he
        exact rest.kept flag value held
      · exact rest.held other v hm

/-! ## What the values decide -/

/-- Every flag that is given has its effect, but for a local port beside a local key. -/
structure Effective (options : Options) (given : List (Flag × List UInt8)) : Prop where
  once : (given.map Prod.fst).Nodup
  url : ∀ value, (.url, value) ∈ given → textValue value = .ok options.baseUrl ∧
    .remoteHost ∉ given.map Prod.fst ∧ .remotePort ∉ given.map Prod.fst
  server : .url ∉ given.map Prod.fst → ∃ host port, options.baseUrl = hostUrl host port ∧
    (∀ value, (.remoteHost, value) ∈ given → textValue value = .ok host) ∧
    (.remoteHost ∉ given.map Prod.fst → host = "localhost") ∧
    (∀ value, (.remotePort, value) ∈ given → portValue value = .ok port) ∧
    (.remotePort ∉ given.map Prod.fst → port = 5985)
  key : ∀ value, (.localKey, value) ∈ given → .localHost ∉ given.map Prod.fst ∧
    ∃ key, textValue value = .ok key ∧ options.route = .key key
  host : ∀ value, (.localHost, value) ∈ given → ∃ host port, textValue value = .ok host ∧
    options.route = .address host port ∧
      (∀ number, (.localPort, number) ∈ given → portValue number = .ok port) ∧
    (.localPort ∉ given.map Prod.fst → port = 5984)
  port : ∀ value, (.localPort, value) ∈ given → .localKey ∉ given.map Prod.fst →
    .localHost ∈ given.map Prod.fst ∧ ∃ host port, portValue value = .ok port ∧
      options.route = .address host port
  command : .localKey ∉ given.map Prod.fst → .localHost ∉ given.map Prod.fst →
    .localPort ∉ given.map Prod.fst →
    options.route = .command
  timeout : ∀ value, (.timeout, value) ∈ given → ∃ seconds, secondsValue value = .ok seconds ∧
    options.timeout = some seconds
  log : ∀ value, (.logFile, value) ∈ given → options.logFile = some value

theorem Takes.given {final : Options} {given : List (Flag × List UInt8)} (h : empty.Takes final given) (flag : Flag) :
    final.has flag = true ↔ flag ∈ given.map Prod.fst := by
  have vacant : empty.has flag = false := by cases flag <;> rfl
  simpa [vacant] using h.has flag

theorem effective_of_takes {options : Options} {given : List (Flag × List UInt8)} (h : empty.Takes options given)
    (hc : options.conflict = false) (hl : options.lacksHost = false) : options.Effective given := by
  simp only [conflict, Bool.or_eq_false_iff, Bool.and_eq_false_iff, Option.isSome_eq_false_iff,
    Option.isNone_iff_eq_none] at hc
  obtain ⟨oneServer, oneRoute⟩ := hc
  simp only [lacksHost, Bool.and_eq_false_iff, Option.isSome_eq_false_iff, Option.isNone_eq_false_iff] at hl
  constructor
  · exact h.once
  · intro value hm
    obtain ⟨url, read, held⟩ := h.held _ _ hm
    have alone : options.remoteHost = none ∧ options.remotePort = none := by simpa [held] using oneServer
    rw [← h.given, ← h.given, read]
    simp [has, baseUrl, held, alone]
  · intro absent
    rw [← h.given] at absent
    have free : options.url = none := by simpa [has] using absent
    refine ⟨options.remoteHost.getD "localhost", options.remotePort.getD 5985,
      by simp [baseUrl, free], ?_, ?_, ?_, ?_⟩
    · intro value hm
      obtain ⟨host, read, held⟩ := h.held _ _ hm
      simp [read, held]
    · rw [← h.given]
      intro absent
      have free : options.remoteHost = none := by simpa [has] using absent
      simp [free]
    · intro value hm
      obtain ⟨port, read, held⟩ := h.held _ _ hm
      simp [read, held]
    · rw [← h.given]
      intro absent
      have free : options.remotePort = none := by simpa [has] using absent
      simp [free]
  · intro value hm
    obtain ⟨key, read, held⟩ := h.held _ _ hm
    have alone : options.localHost = none := by simpa [held] using oneRoute
    rw [← h.given]
    refine ⟨by simp [has, alone], key, read, ?_⟩
    simp [route, held]
  · intro value hm
    obtain ⟨host, read, held⟩ := h.held _ _ hm
    have alone : options.localKey = none := by simpa [held] using oneRoute
    rw [← h.given]
    refine ⟨host, options.localPort.getD 5984, read, by simp [route, held, alone], ?_, fun absent => ?_⟩
    · intro number hn
      obtain ⟨port, readPort, heldPort⟩ := h.held _ _ hn
      simp [readPort, heldPort]
    · have free : options.localPort = none := by simpa [has] using absent
      simp [free]
  · intro value hm absent
    obtain ⟨port, read, held⟩ := h.held _ _ hm
    rw [← h.given] at absent
    have noKey : options.localKey = none := by simpa [has] using absent
    have hosted : options.localHost.isSome = true := by simpa [held, noKey] using hl
    obtain ⟨host, hh⟩ := Option.isSome_iff_exists.1 hosted
    rw [← h.given]
    refine ⟨hosted, host, port, read, ?_⟩
    simp [route, noKey, hh, held]
  · rw [← h.given, ← h.given]
    intro noKey noHost _
    have key : options.localKey = none := by simpa [has] using noKey
    have host : options.localHost = none := by simpa [has] using noHost
    simp [route, key, host]
  · exact fun value hm => h.held _ _ hm
  · exact fun value hm => (h.held _ _ hm).2

/-- What an accepted command line gives, in the only way it can be read, takes effect. -/
theorem given_takes_effect {args : List (List UInt8)} {options : Options} (h : parse args = .ok options) :
    ∃ given, Gives args given ∧ (∀ other, Gives args other → other = given) ∧ options.Effective given := by
  obtain ⟨given, gives, all, together, hosted⟩ := parse_eq_ok.1 h
  exact ⟨given, gives, fun other ho => gives.unique ho, effective_of_takes (takes_of_setAll all) together hosted⟩

/-- A line with a letter, an attached value, and one that stands alone. -/
theorem given_takes_effect_spelled_apart :
    parse (["-uhttp://h/", "--local-host=c", "--local-port", "7"].map fun word => word.toUTF8.toList) =
      .ok { empty with url := some "http://h/", localHost := some "c", localPort := some 7 } ∧
    ∃ given, Gives (["-uhttp://h/", "--local-host=c", "--local-port", "7"].map fun word =>
      word.toUTF8.toList) given ∧
      (∀ other, Gives (["-uhttp://h/", "--local-host=c", "--local-port", "7"].map fun word =>
        word.toUTF8.toList) other →
        other = given) ∧
      Effective { empty with url := some "http://h/", localHost := some "c", localPort := some 7 } given :=
  ⟨by decide +kernel, given_takes_effect (by decide +kernel)⟩

/-- A local port is accepted beside a local key, and nothing comes of it. -/
theorem local_port_beside_local_key_is_idle : ∃ options given,
    parse (["--local-key", "k", "--local-port", "5986"].map fun word => word.toUTF8.toList) = .ok options ∧
      Gives (["--local-key", "k", "--local-port", "5986"].map fun word => word.toUTF8.toList) given ∧
      .localPort ∈ given.map Prod.fst ∧ .localHost ∉ given.map Prod.fst ∧ options.route = .key "k" := by
  refine ⟨{ empty with localKey := some "k", localPort := some 5986 },
    [(.localKey, "k".toUTF8.toList), (.localPort, "5986".toUTF8.toList)], by decide +kernel, ?_, ?_, ?_, rfl⟩
  · have key : "--local-key".toUTF8.toList = Flag.localKey.word := by decide +kernel
    have port : "--local-port".toUTF8.toList = Flag.localPort.word := by decide +kernel
    have alone (value : List UInt8) : value.head? ≠ some 45 → StandsAlone value := fun h hv => absurd hv h
    simp only [List.map_cons, List.map_nil, key, port]
    refine .apart (.name .localKey) (alone _ (by decide +kernel)) ?_
    exact .apart (.name .localPort) (alone _ (by decide +kernel)) .nothing
  · decide +kernel
  · decide +kernel

end Options

end SearchRelay
