import SearchRelay.Text.Ascii

/-!
# Paths

A path is a list of segments, each written after a slash. It is read from the
pieces between the slashes of a text: one dot, also escaped, stands for no
segment and two dots leave the segment before, but never the letter of a drive.
-/

namespace SearchRelay.Url

/-! ## Breaks -/

/-- Tabs and line ends do not count in a URL, except behind the drive of a file. -/
def isBreak (c : Char) : Bool := c == '\t' || c == '\n' || c == '\r'

def unbroken (text : List Char) : List Char := text.filter (!isBreak ·)

abbrev Path := List (List Char)

namespace Path

def write (path : Path) : List Char := path.flatMap ('/' :: ·)

/-! ## Dots -/

def plainDots : List Char → List Char
  | '%' :: '2' :: 'e' :: rest => '.' :: plainDots rest
  | '%' :: '2' :: 'E' :: rest => '.' :: plainDots rest
  | c :: rest => c :: plainDots rest
  | [] => []

def isHere (piece : List Char) : Bool := plainDots (unbroken piece) == ['.']

def isParent (piece : List Char) : Bool := plainDots (unbroken piece) == ['.', '.']

/-- What the pieces of a text do: `none` leaves a segment and `some` enters one. Dots at the end enter an
empty one. -/
def steps : List (List Char) → List (Option (List Char))
  | [] => []
  | [last] => if isParent last then [none, some []] else if isHere last then [some []] else [some last]
  | piece :: rest =>
    if isParent piece then none :: steps rest
    else if isHere piece then steps rest
    else some piece :: steps rest

/-! ## Drives -/

/-- Whether a segment names a drive: a letter and a colon or a bar. -/
def isDrive : List Char → Bool
  | [letter, mark] => Ascii.isLetter letter && (mark == ':' || mark == '|')
  | _ => false

/-- Whether a segment is never left: it names a drive, or does so up to a backslash. -/
def isFirm (segment : List Char) : Bool :=
  isDrive (segment.take 2) && (segment[2]?.all (· == '\\'))

/-- Leaves the last segment, unless it names a drive. -/
def parent (path : Path) : Path :=
  match path.getLast? with
  | some last => if isFirm last then path else path.dropLast
  | none => []

/-- The drive that a piece names and the rest of the piece, if tabs or line ends part them. -/
def cutDrive? (piece : List Char) : Option (List Char × List Char) :=
  match piece.span (· != ':') with
  | (letter, colon :: mark :: rest) =>
    let drive := unbroken letter ++ [colon]
    if isBreak mark && isDrive drive && !(unbroken rest).isEmpty then some (drive, unbroken rest) else none
  | _ => none

/-! ## Walks -/

def walk (path : Path) : Option (List Char) → Path
  | none => parent path
  | some segment => path ++ [segment]

/-- The path without the empty segments at its start; at least one segment is left. -/
def dropEmpty (path : Path) : Path :=
  match path.dropWhile List.isEmpty with
  | [] => [[]]
  | path => path

end Path

end SearchRelay.Url
