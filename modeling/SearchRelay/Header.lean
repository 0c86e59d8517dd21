import SearchRelay.Text.Ascii

/-!
# Headers that pass

Each direction has a list of names that are let through. A header is renamed to
the name on the list; of headers with one name the last value counts, at the
place of the first.
-/

namespace SearchRelay.Header

def requestNames : List String := ["Accept", "If-None-Match"]

def answerNames : List String := ["Content-Type", "ETag"]

/-- The name on a list that a name spells. -/
def canonical? (names : List String) (name : String) : Option String := names.find? (Ascii.sameFold · name)

/-- A character that a header value may hold: a tab, or any but the controls. -/
def isValueChar (c : Char) : Bool := c == '\t' || (0x20 ≤ c.toNat && c.toNat != 0x7F)

def isValidValue (value : String) : Bool := value.toList.all isValueChar

def set (name value : String) : List (String × String) → List (String × String)
  | [] => [(name, value)]
  | (n, v) :: rest => if n = name then (n, value) :: rest else (n, v) :: set name value rest

def take (names : List String) (kept : List (String × String)) (header : String × String) :
    List (String × String) :=
  match canonical? names header.1 with
  | some name => set name header.2 kept
  | none => kept

def keep (names : List String) (headers : List (String × String)) : List (String × String) :=
  headers.foldl (take names) []

end SearchRelay.Header
