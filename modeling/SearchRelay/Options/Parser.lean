import SearchRelay.Options.Basic

/-!
# Reading the command line

A value is attached to its option or is the next word, unless that looks like an
option. A value that stands alone is taken when the next option comes or the
words end; until then an unknown word counts more than a bad value. Help and
version end the reading at once.
-/

namespace SearchRelay.Options

inductive Fault where
  | argumentConflict
  | invalidUtf8
  | invalidValue
  | missingRequiredArgument
  | tooManyValues
  | unknownArgument
  | valueValidation
deriving DecidableEq, Repr

inductive Stop where
  | help
  | version
  | fault (fault : Fault)
deriving DecidableEq, Repr

/-! ## Values -/

def digits? (text : List Char) : Option Nat :=
  if text.isEmpty || !text.all Ascii.isDigit then none
  else some (text.foldl (fun n c => 10 * n + (c.toNat - 48)) 0)

def integer? : List Char → Option Int
  | '-' :: text => (digits? text).map fun n => -(n : Int)
  | '+' :: text => (digits? text).map Int.ofNat
  | text => (digits? text).map Int.ofNat

def textValue (value : List UInt8) : Except Fault String :=
  match Utf8.decode? value with
  | some text => .ok (String.ofList text)
  | none => .error .invalidUtf8

def portValue (value : List UInt8) : Except Fault UInt16 := do
  match integer? (← textValue value).toList with
  | some n => if 0 ≤ n && n ≤ 65535 then return UInt16.ofNat n.toNat else .error .valueValidation
  | none => .error .valueValidation

/-- A number of seconds: at least one, without a minus sign, in 64 bits. -/
def secondsValue (value : List UInt8) : Except Fault Nat := do
  match integer? (← textValue value).toList with
  | some n => if 1 ≤ n && n ≤ 18446744073709551615 then return n.toNat else .error .valueValidation
  | none => .error .valueValidation

def pathValue (value : List UInt8) : Except Fault (List UInt8) :=
  if value.isEmpty then .error .invalidValue else .ok value

/-- Sets the value of a flag that has none yet. -/
def set (options : Options) (flag : Flag) (value : List UInt8) : Except Fault Options :=
  if options.has flag then .error .argumentConflict
  else
    match flag with
    | .remoteHost => (textValue value).map fun v => { options with remoteHost := some v }
    | .remotePort => (portValue value).map fun v => { options with remotePort := some v }
    | .url => (textValue value).map fun v => { options with url := some v }
    | .localKey => (textValue value).map fun v => { options with localKey := some v }
    | .localHost => (textValue value).map fun v => { options with localHost := some v }
    | .localPort => (portValue value).map fun v => { options with localPort := some v }
    | .timeout => (secondsValue value).map fun v => { options with timeout := some v }
    | .logFile => (pathValue value).map fun v => { options with logFile := some v }

/-! ## Words -/

inductive Word where
  | escape
  | long (name : List UInt8) (value : Option (List UInt8))
  | short (letter : UInt8) (rest : List UInt8)
  | value (value : List UInt8)
deriving DecidableEq, Repr

def Word.ofLong (text : List UInt8) : Word :=
  match text.span (· != 61) with
  | (name, []) => .long name none
  | (name, _ :: content) => .long name (some content)

def Word.ofBytes : List UInt8 → Word
  | [45, 45] => .escape
  | 45 :: 45 :: text => ofLong text
  | 45 :: letter :: rest => .short letter rest
  | text => .value text

inductive Request where
  | help
  | version
  | flag (flag : Flag) (value : Option (List UInt8))
deriving DecidableEq, Repr

/-- The request of a long option. Help and version have no value. -/
def requestLong (name : List UInt8) (value : Option (List UInt8)) : Except Fault Request :=
  if name = "help".toUTF8.toList then if value.isSome then .error .tooManyValues else .ok .help
  else if name = "version".toUTF8.toList then if value.isSome then .error .tooManyValues else .ok .version
  else
    match Flag.ofName? name with
    | some flag => .ok (.flag flag value)
    | none => .error .unknownArgument

/-- The value attached to a letter, without an equals sign before it. -/
def attached : List UInt8 → Option (List UInt8)
  | [] => none
  | 61 :: value => some value
  | value => some value

/-- The request of a letter: `h`, `V`, or `u` for the URL. -/
def requestShort (letter : UInt8) (rest : List UInt8) : Except Fault Request :=
  if letter = 104 then .ok .help
  else if letter = 86 then .ok .version
  else if letter = 117 then .ok (.flag .url (attached rest))
  else .error .unknownArgument

/-! ## Reading -/

/-- What has been read: the values taken, and the flag that comes last with the value that stands after it. -/
structure Reading where
  options : Options
  pending : Option (Flag × Option (List UInt8))
deriving DecidableEq, Repr

def Reading.resolve (r : Reading) : Except Fault Options :=
  match r.pending with
  | none => .ok r.options
  | some (_, none) => .error .invalidValue
  | some (flag, some value) => r.options.set flag value

def Reading.follow (r : Reading) (request : Request) : Except Stop Reading :=
  match r.resolve with
  | .error fault => .error (.fault fault)
  | .ok options =>
    match request with
    | .help => .error .help
    | .version => .error .version
    | .flag flag none => .ok ⟨options, some (flag, none)⟩
    | .flag flag (some value) => ((options.set flag value).map (⟨·, none⟩)).mapError .fault

def Reading.takeValue (r : Reading) (value : List UInt8) : Except Stop Reading :=
  match r.pending with
  | some (flag, none) => .ok { r with pending := some (flag, some value) }
  | _ => .error (.fault .unknownArgument)

/-- Reads the words. Nothing may follow a word of two hyphens. -/
def Reading.words (r : Reading) : List Word → Except Stop Reading
  | [] => .ok r
  | .escape :: rest => if rest.isEmpty then .ok r else .error (.fault .unknownArgument)
  | .value value :: rest => do words (← r.takeValue value) rest
  | .long name value :: rest => do words (← r.follow (← (requestLong name value).mapError .fault)) rest
  | .short letter more :: rest => do words (← r.follow (← (requestShort letter more).mapError .fault)) rest

/-! ## What goes together -/

def conflict (options : Options) : Bool :=
  (options.url.isSome && (options.remoteHost.isSome || options.remotePort.isSome)) ||
    (options.localKey.isSome && options.localHost.isSome)

/-- Whether a local port has no local host. With a key there can be none, and the port has no effect. -/
def lacksHost (options : Options) : Bool :=
  options.localPort.isSome && options.localHost.isNone && options.localKey.isNone

def check (options : Options) : Except Fault Options :=
  if options.conflict then .error .argumentConflict
  else if options.lacksHost then .error .missingRequiredArgument
  else .ok options

def parse (args : List (List UInt8)) : Except Stop Options := do
  let reading ← Reading.words ⟨empty, none⟩ (args.map Word.ofBytes)
  (reading.resolve >>= check).mapError .fault

end SearchRelay.Options
