import SearchRelay.Relay.Event
import SearchRelay.Text.Alphanumeric
import SearchRelay.Text.Blank
import SearchRelay.Text.Pattern
import SearchRelay.Text.Utf8

/-!
# Directives

A directive lets events of a target pass up to a level: `target[span{field}]=level`.
It may leave out all parts but one, and a word alone is a level if it names one,
else a target. Blanks around a directive do not count for its form, but its
parts are taken from the text with its blanks, at the places that they have in
the text without.
-/

namespace SearchRelay

/-- A field that must be there, with a value if one is stated. -/
structure FieldTest where
  name : String
  value : Option String
deriving DecidableEq, Repr

/-- The start of a target, the span around the event, the fields, and the last level that passes, if one
does. -/
structure Directive where
  target : Option String
  span : Option String
  fields : List FieldTest
  level : Option Level
deriving DecidableEq, Repr

namespace Directive

inductive Fault where
  | malformed
  | splitCharacter
deriving DecidableEq, Repr

/-! ## Levels -/

def number? (text : List Char) : Option Nat :=
  let digits := match text with
    | '+' :: rest => rest
    | _ => text
  if digits.isEmpty || !digits.all Ascii.isDigit then none
  else some (digits.foldl (fun n c => 10 * n + (c.toNat - 48)) 0)

/-- The level of a number; zero lets nothing pass. -/
def levelOfNumber? : Nat → Option (Option Level)
  | 0 => some none
  | 1 => some (some .error)
  | 2 => some (some .warn)
  | 3 => some (some .info)
  | 4 => some (some .debug)
  | 5 => some (some .trace)
  | _ => none

/-- The level that a word names, up to the case of its letters; `off` lets nothing pass. -/
def levelOfName? (word : List Char) : Option (Option Level) :=
  let named := [("off", none), ("error", some Level.error), ("warn", some .warn), ("info", some .info),
    ("debug", some .debug), ("trace", some .trace)]
  (named.find? fun (name, _) => Ascii.sameFold name (String.ofList word)).map Prod.snd

def level? (word : List Char) : Option (Option Level) :=
  ((number? word).bind levelOfNumber?).or (levelOfName? word)

/-! ## Values of fields -/

def dropDigits (text : List Char) : List Char := text.dropWhile Ascii.isDigit

def dropSign : List Char → List Char
  | '+' :: rest => rest
  | '-' :: rest => rest
  | text => text

def isExponent : List Char → Bool
  | [] => true
  | c :: rest => (c == 'e' || c == 'E') && !(dropSign rest).isEmpty && (dropSign rest).all Ascii.isDigit

def isNumber (text : List Char) : Bool :=
  let text := dropSign text
  let named := ["inf", "infinity", "nan"].any fun name => Ascii.sameFold name (String.ofList text)
  let whole := text.takeWhile Ascii.isDigit
  match dropDigits text with
  | '.' :: rest => (!whole.isEmpty || (rest.head?.any Ascii.isDigit)) && isExponent (dropDigits rest)
  | rest => named || (!whole.isEmpty && isExponent rest)

/-- Whether a text is a truth value or a number; a text is never equal to one. -/
def isPlainValue (text : List Char) : Bool := text = "true".toList || text = "false".toList || isNumber text

def fits (value text : String) : Bool :=
  !isPlainValue value.toList && ((Pattern.ofText? value.toList).any (·.accepts text.toList))

def readField (text : List Char) : Except Fault FieldTest :=
  match text.splitOn '=' with
  | name :: value :: _ =>
    if isPlainValue value || (Pattern.ofText? value).isSome then
      .ok ⟨String.ofList name, some (String.ofList value)⟩
    else .error .malformed
  | _ => .ok ⟨String.ofList text, none⟩

/-! ## Parts of a text -/

def dropBytes : Nat → List Char → Except Fault (List Char)
  | _, [] => .ok []
  | n, c :: rest =>
    if n = 0 then .ok (c :: rest)
    else if n < Utf8.size [c] then .error .splitCharacter
    else dropBytes (n - Utf8.size [c]) rest

def takeBytes : Nat → List Char → Except Fault (List Char)
  | _, [] => .ok []
  | n, c :: rest =>
    if n = 0 then .ok []
    else if n < Utf8.size [c] then .error .splitCharacter
    else (takeBytes (n - Utf8.size [c]) rest).map (c :: ·)

/-- A text and its form, which is the text without the blanks around it. -/
structure Source where
  text : List Char
  form : List Char

namespace Source

/-- How many bytes of the form are before a rest of it. -/
def place (source : Source) (rest : List Char) : Nat := Utf8.size source.form - Utf8.size rest

/-- The part from one rest of the form to a later one. -/
def part (source : Source) (first last : List Char) : Except Fault (List Char) := do
  takeBytes (source.place last - source.place first) (← dropBytes (source.place first) source.text)

def tail (source : Source) (rest : List Char) : Except Fault (List Char) :=
  dropBytes (source.place rest) source.text

end Source

/-! ## Reading a directive -/

/-- The level after an equals sign; none at all lets every level pass. -/
def readLevel (source : Source) (rest : List Char) : Except Fault (Option Level) := do
  let text ← source.tail rest
  if text.isEmpty then return some .trace
  else
    match level? text with
    | some level => return level
    | none => .error .malformed

def readEnd (source : Source) : List Char → Except Fault (Option Level)
  | [] => .ok (some .trace)
  | '=' :: rest => readLevel source rest
  | _ => .error .malformed

/-- The directive of a target, from behind the bracket that opens a span on. -/
def readSpan (source : Source) (target : Option String) (text : List Char) : Except Fault Directive := do
  let stop := text.dropWhile fun c => c != ']' && c != '\x7b'
  match stop with
  | [] => .error .malformed
  | ']' :: rest =>
    let name ← source.part text stop
    return ⟨target, some (String.ofList name), [], ← readEnd source rest⟩
  | _ :: fields =>
    let name ← source.part text stop
    let span := if name.isEmpty then none else some (String.ofList name)
    match fields.dropWhile (· != '\x7d') with
    | [] => .error .malformed
    | close :: rest =>
      let field ← source.part fields (close :: rest)
      if field.isEmpty then .error .malformed
      let field ← readField field
      match rest with
      | ']' :: rest => return ⟨target, span, [field], ← readEnd source rest⟩
      | _ => .error .malformed

def isStart (c : Char) : Bool := c == '-' || c == ':' || c == '_' || Alphanumeric.contains c

def ofText (text : List Char) : Except Fault Directive := do
  let source : Source := ⟨text, Blank.trim text⟩
  match source.form with
  | [] => .error .malformed
  | '[' :: rest => readSpan source none rest
  | c :: _ =>
    if !isStart c then .error .malformed
    let stop := source.form.dropWhile fun c => c != '=' && c != '['
    match stop with
    | [] =>
      match level? text with
      | some level => return ⟨none, none, [], level⟩
      | none => return ⟨some (String.ofList text), none, [], some .trace⟩
    | '=' :: rest =>
      let target ← source.part source.form stop
      return ⟨some (String.ofList target), none, [], ← readLevel source rest⟩
    | _ :: rest =>
      let target ← source.part source.form stop
      readSpan source (some (String.ofList target)) rest

end Directive

end SearchRelay
