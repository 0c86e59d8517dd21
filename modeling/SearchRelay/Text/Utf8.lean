/-!
# UTF-8

Text is a list of characters and the wire is a list of bytes. Writing goes one
character at a time; reading is a machine with one step a byte, so reading a
part and then the rest is reading the whole. A byte that no character can
continue closes what was begun with U+FFFD and is itself read afresh.
-/

namespace SearchRelay.Utf8

def encode (text : List Char) : List UInt8 := text.flatMap String.utf8EncodeChar

def size : List Char → Nat
  | [] => 0
  | c :: rest => c.utf8Size + size rest

/-- A character begun and not finished: the bytes `taken`, the bytes still `owed`, the bounds of the
next one, and the bits read so far. -/
structure Pending where
  taken : Nat
  owed : Nat
  low : UInt8
  high : UInt8
  bits : Nat
deriving DecidableEq, Repr

inductive Lead where
  | ascii (c : Char)
  | opens (p : Pending)
  | stray
deriving DecidableEq, Repr

/-- The class of a byte that stands between characters. The bounds of the second byte leave out
overlong forms, surrogates and code points past U+10FFFF. -/
def lead (b : UInt8) : Lead :=
  let n := b.toNat
  if n < 0x80 then .ascii (Char.ofNat n)
  else if n < 0xC2 then .stray
  else if n < 0xE0 then .opens ⟨1, 1, 0x80, 0xBF, n - 0xC0⟩
  else if n = 0xE0 then .opens ⟨1, 2, 0xA0, 0xBF, 0⟩
  else if n = 0xED then .opens ⟨1, 2, 0x80, 0x9F, 0xD⟩
  else if n < 0xF0 then .opens ⟨1, 2, 0x80, 0xBF, n - 0xE0⟩
  else if n = 0xF0 then .opens ⟨1, 3, 0x90, 0xBF, 0⟩
  else if n < 0xF4 then .opens ⟨1, 3, 0x80, 0xBF, n - 0xF0⟩
  else if n = 0xF4 then .opens ⟨1, 3, 0x80, 0x8F, 4⟩
  else .stray

def Pending.continues (p : Pending) (b : UInt8) : Bool := p.low ≤ b && b ≤ p.high

def Pending.push (p : Pending) (b : UInt8) : Pending :=
  ⟨p.taken + 1, p.owed - 1, 0x80, 0xBF, p.bits * 64 + (b.toNat - 0x80)⟩

/-- The character that stands for bytes that are not one. -/
def replacement : Char := '\uFFFD'

/-! ## Reading that replaces what is broken -/

/-- A byte read between characters: the text it gives, and what it leaves pending. -/
def start (b : UInt8) : List Char × Option Pending :=
  match lead b with
  | .ascii c => ([c], none)
  | .opens p => ([], some p)
  | .stray => ([replacement], none)

def step : Option Pending → UInt8 → List Char × Option Pending
  | none, b => start b
  | some p, b =>
    if p.continues b then
      if p.owed = 1 then ([Char.ofNat (p.push b).bits], none) else ([], some (p.push b))
    else (replacement :: (start b).1, (start b).2)

/-- The text of the bytes that follow a pending character; the end closes it. -/
def decodeFrom : Option Pending → List UInt8 → List Char
  | none, [] => []
  | some _, [] => [replacement]
  | p, b :: rest => (step p b).1 ++ decodeFrom (step p b).2 rest

/-- The text of a byte sequence, U+FFFD standing for each part that no character starts with. -/
def decodeLossy (bytes : List UInt8) : List Char := decodeFrom none bytes

/-! ## Reading that refuses what is broken -/

/-- The first place where bytes stop being UTF-8: how many bytes before it are text, and how many
bytes make the broken part (`none` when the input ends inside a character). -/
structure Fault where
  index : Nat
  size : Option Nat
deriving DecidableEq, Repr

/-- The text of bytes that are UTF-8, else the first fault; `before` counts the bytes already read as
whole characters. -/
def decodeStrictFrom (before : Nat) : Option Pending → List UInt8 → Except Fault (List Char)
  | none, [] => .ok []
  | some _, [] => .error ⟨before, none⟩
  | none, b :: rest =>
    match lead b with
    | .ascii c => (decodeStrictFrom (before + 1) none rest).map (c :: ·)
    | .opens p => decodeStrictFrom before (some p) rest
    | .stray => .error ⟨before, some 1⟩
  | some p, b :: rest =>
    if p.continues b then
      if p.owed = 1 then
        (decodeStrictFrom (before + p.taken + 1) none rest).map (Char.ofNat (p.push b).bits :: ·)
      else decodeStrictFrom before (some (p.push b)) rest
    else .error ⟨before, some p.taken⟩

def decodeStrict (bytes : List UInt8) : Except Fault (List Char) := decodeStrictFrom 0 none bytes

def decode? (bytes : List UInt8) : Option (List Char) := (decodeStrict bytes).toOption

def Fault.message (f : Fault) : String :=
  match f.size with
  | some n => s!"invalid utf-8 sequence of {n} bytes from index {f.index}"
  | none => s!"incomplete utf-8 byte sequence from index {f.index}"

end SearchRelay.Utf8
