import SearchRelay.Text.Ascii

/-!
# Patterns

Regular expressions over plain texts such as ids: sets of characters, groups,
alternatives and repetitions that prefer to go on or to stop. A pattern is
looked for from the left, and at the first place where it can be read the
reading that it prefers counts. It matches a text if this reading ends there.
-/

namespace SearchRelay

structure CharSet where
  negated : Bool
  ranges : List (Char × Char)
deriving DecidableEq, Repr

namespace CharSet

def contains (set : CharSet) (c : Char) : Bool := set.negated != set.ranges.any fun r => r.1 ≤ c && c ≤ r.2

def single (c : Char) : CharSet := ⟨false, [(c, c)]⟩

def any : CharSet := ⟨true, [('\n', '\n')]⟩

def digits : List (Char × Char) := [('0', '9')]

def wordChars : List (Char × Char) := [('0', '9'), ('A', 'Z'), ('_', '_'), ('a', 'z')]

def blanks : List (Char × Char) := [('\t', '\r'), (' ', ' ')]

end CharSet

inductive Pattern where
  | empty
  | char (set : CharSet)
  | opening
  | closing
  | seq (first second : Pattern)
  | either (first second : Pattern)
  | star (greedy : Bool) (body : Pattern)
deriving DecidableEq, Repr

namespace Pattern

/-! ## Reading a text -/

/-- Where the readings of a repetition end, for every start from the last one on: `row` belongs to the
start `i`, and `later` to those behind it. -/
def repeatRow (greedy : Bool) (i : Nat) (row : List Nat) (later : List (List Nat)) : List (List Nat) :=
  let more := (row.filter (i < ·)).flatMap fun j => later.getD (j - i - 1) []
  (if greedy then more ++ [i] else i :: more).eraseDups :: later

/-- Where the readings of a pattern end, the preferred ones first, for every start in a text. -/
def ends (text : List Char) : Pattern → List (List Nat)
  | empty => (List.range (text.length + 1)).map fun i => [i]
  | char set => (List.range (text.length + 1)).map fun i => if (text[i]?.any set.contains) then [i + 1] else []
  | opening => (List.range (text.length + 1)).map fun i => if i = 0 then [i] else []
  | closing => (List.range (text.length + 1)).map fun i => if i = text.length then [i] else []
  | seq first second =>
    let later := ends text second
    (ends text first).map fun row => (row.flatMap fun j => later.getD j []).eraseDups
  | either first second =>
    (ends text first).zipWith (fun a b => (a ++ b).eraseDups) (ends text second)
  | star greedy body =>
    ((List.range (text.length + 1)).zip (ends text body)).foldr (fun (i, row) => repeatRow greedy i row) []

/-- Whether the preferred reading at the first place that has one ends with the text. -/
def accepts (pattern : Pattern) (text : List Char) : Bool :=
  ((pattern.ends text).find? (!·.isEmpty)).any (·.head? = some text.length)

/-! ## Reading a pattern -/

/-- A set that is being read: the last character, which may start a range, and whether a hyphen follows it. -/
structure Draft where
  set : CharSet
  last : Option Char
  ranged : Bool
  started : Bool
  escaped : Bool

/-- A group that is being read, its latest parts first. -/
structure Group where
  branches : List Pattern
  items : List Pattern

inductive Mode where
  | plain
  | escaped
  | opened
  | queried
  | inSet (draft : Draft)

/-- A pattern that is being read; `repeated` makes the last item again, with the other preference. -/
structure Reader where
  mode : Mode
  group : Group
  outer : List Group
  repeated : Option (Bool → Pattern)

namespace Draft

def start : Draft := ⟨⟨false, []⟩, none, false, false, false⟩

def add (draft : Draft) (ranges : List (Char × Char)) : Draft :=
  { draft with set := { draft.set with ranges := ranges ++ draft.set.ranges } }

def settle (draft : Draft) : Draft :=
  let last := draft.last.toList.map fun c => (c, c)
  let hyphen := if draft.ranged then [('-', '-')] else []
  { draft.add (hyphen ++ last) with last := none, ranged := false }

def literal (draft : Draft) (c : Char) : Option Draft :=
  match draft.ranged, draft.last with
  | true, some low => if low ≤ c then some { draft.add [(low, c)] with last := none, ranged := false } else none
  | _, _ => some { draft.settle with last := some c }

end Draft

/-- The characters that have a meaning of their own after a backslash. -/
def control? : Char → Option Char
  | 'a' => some '\x07'
  | 'f' => some '\x0c'
  | 'n' => some '\n'
  | 'r' => some '\r'
  | 't' => some '\t'
  | 'v' => some '\x0b'
  | _ => none

def escapedChar? (c : Char) : Option Char :=
  (control? c).or
    (if 0x20 < c.toNat && c.toNat < 0x7F && !Ascii.isAlphanumeric c && c != '<' && c != '>' then some c else none)

def escapedRanges? : Char → Option (List (Char × Char))
  | 'd' => some CharSet.digits
  | 'w' => some CharSet.wordChars
  | 's' => some CharSet.blanks
  | _ => none

def escape? (c : Char) : Option Pattern :=
  match c with
  | 'A' => some opening
  | 'z' => some closing
  | _ =>
    ((escapedRanges? c).map fun ranges => char ⟨false, ranges⟩).or <|
      ((escapedRanges? (Ascii.lower c)).map fun ranges => char ⟨true, ranges⟩).or <|
        (escapedChar? c).map fun c => char (.single c)

def Group.branch (group : Group) : Pattern := group.items.foldl (fun later item => seq item later) empty

def Group.pattern (group : Group) : Pattern :=
  group.branches.foldl (fun later branch => either branch later) group.branch

namespace Reader

def start : Reader := ⟨.plain, ⟨[], []⟩, [], none⟩

def push (reader : Reader) (item : Pattern) : Reader :=
  { reader with
    mode := .plain
    group := { reader.group with items := item :: reader.group.items }
    repeated := none }

def repeatLast (reader : Reader) (again : Pattern → Bool → Pattern) : Option Reader :=
  match reader.group.items with
  | [] => none
  | item :: items =>
    some
      { reader with
        group := { reader.group with items := again item true :: items }
        repeated := some (again item) }

def optional (item : Pattern) (greedy : Bool) : Pattern := if greedy then either item empty else either empty item

/-- A question mark: it makes the last item optional, or turns the preference of a repetition. -/
def query (reader : Reader) : Option Reader :=
  match reader.repeated, reader.group.items with
  | some again, _ :: items =>
    some { reader with group := { reader.group with items := again false :: items }, repeated := none }
  | _, _ => reader.repeatLast optional

def close (reader : Reader) : Option Reader :=
  match reader.outer with
  | [] => none
  | group :: outer => some ({ reader with group, outer }.push reader.group.pattern)

def nextPlain (reader : Reader) (c : Char) : Option Reader :=
  match c with
  | '\\' => some { reader with mode := .escaped }
  | '(' => some ⟨.opened, ⟨[], []⟩, reader.group :: reader.outer, none⟩
  | ')' => reader.close
  | '|' => some { reader with group := ⟨reader.group.branch :: reader.group.branches, []⟩, repeated := none }
  | '[' => some { reader with mode := .inSet .start }
  | '*' => reader.repeatLast fun item greedy => star greedy item
  | '+' => reader.repeatLast fun item greedy => seq item (star greedy item)
  | '?' => reader.query
  | '\x7b' => none
  | '.' => some (reader.push (char .any))
  | '^' => some (reader.push opening)
  | '$' => some (reader.push closing)
  | c => some (reader.push (char (.single c)))

def nextInSet (reader : Reader) (draft : Draft) (c : Char) : Option Reader :=
  let keep (draft : Draft) : Reader := { reader with mode := .inSet { draft with started := true } }
  if draft.escaped then
    let draft := { draft with escaped := false }
    match escapedRanges? c with
    | some ranges => some (keep (draft.settle.add ranges))
    | none => (escapedChar? c).bind fun c => (draft.literal c).map keep
  else if c = '^' && !draft.started && !draft.set.negated then
    some { reader with mode := .inSet { draft with set := { draft.set with negated := true } } }
  else if c = ']' && draft.started then some (reader.push (char draft.settle.set))
  else if c = '[' then none
  else if c = '\\' then some (keep { draft with escaped := true })
  else if c = '-' && draft.last.isSome && !draft.ranged then some (keep { draft with ranged := true })
  else (draft.literal c).map keep

def next (reader : Reader) (c : Char) : Option Reader :=
  match reader.mode with
  | .plain => reader.nextPlain c
  | .escaped => (escape? c).map reader.push
  | .opened => if c = '?' then some { reader with mode := .queried } else { reader with mode := .plain }.nextPlain c
  | .queried => if c = ':' then some { reader with mode := .plain } else none
  | .inSet draft => reader.nextInSet draft c

def finish (reader : Reader) : Option Pattern :=
  match reader.mode, reader.outer with
  | .plain, [] => some reader.group.pattern
  | _, _ => none

end Reader

/-- The pattern that a text states, unless it states none. -/
def ofText? (text : List Char) : Option Pattern := (text.foldlM Reader.next Reader.start).bind Reader.finish

end Pattern

end SearchRelay
