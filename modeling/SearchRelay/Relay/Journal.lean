import SearchRelay.Relay.Event

/-!
# The journal

The events of a program in the order in which they are reported, written one
after the other without their times. A value that holds line ends runs over
several lines.
-/

namespace SearchRelay

/-- An event in a journal; `inRequest` marks those of a request that was read from the input. -/
structure Entry where
  inRequest : Bool
  event : Event
deriving DecidableEq, Repr

inductive Style where
  | plain
  | coloured
deriving DecidableEq, Repr

namespace Style

def paint (style : Style) (code part : String) : String :=
  match style with
  | plain => part
  | coloured => s!"\x1b[{code}m{part}\x1b[0m"

def bold (style : Style) (part : String) : String := style.paint "1" part

def dimmed (style : Style) (part : String) : String := style.paint "2" part

def italic (style : Style) (part : String) : String := style.paint "3" part

def field (style : Style) (name value : String) : String := style.italic name ++ style.dimmed "=" ++ value

/-- What stands before the entries of a request; a star stands for its number. -/
def requestScope (style : Style) : String :=
  style.bold "request" ++ style.bold "\x7b" ++ style.field "id" "*" ++ style.bold "\x7d" ++ style.dimmed ":" ++ " "

end Style

def Level.colour : Level → String
  | error => "31"
  | warn => "33"
  | info => "32"
  | debug => "34"
  | trace => "35"

/-- The message of an event and those of its fields that have a value. -/
def Event.shown (event : Event) (style : Style) : String :=
  let fields := event.fields.filterMap fun (name, value) => value.map (style.field name)
  " ".intercalate (event.message :: fields)

namespace Entry

def text (entry : Entry) (style : Style) : String :=
  let scope := if entry.inRequest then style.requestScope else ""
  style.paint entry.event.level.colour entry.event.level.name ++ " " ++ scope ++
    style.dimmed entry.event.target ++ style.dimmed ":" ++ " " ++ entry.event.shown style

def dropReturn (line : List Char) : List Char := if line.getLast? = some '\r' then line.dropLast else line

def lines (entry : Entry) (style : Style) : List (List Char) :=
  ((entry.text style).toList.splitOn '\n').map dropReturn

end Entry

end SearchRelay
