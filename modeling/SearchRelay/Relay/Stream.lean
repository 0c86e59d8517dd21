import SearchRelay.Text.Blank
import SearchRelay.Text.Utf8

/-!
# Input and output of a relay

The input is bytes, of which a line feed ends a line, and it may fail where the
bytes end. The output takes bytes: whether it takes the next ones, how many of
them it takes when it fails, and whether it can be flushed, depends on how many
it has taken.
-/

namespace SearchRelay

structure Source where
  bytes : List UInt8
  fault : Option String
deriving DecidableEq, Repr

/-- What comes of reading a line: its bytes, with the line feed if there is one, and the input after it. -/
inductive Reading where
  | line (bytes : List UInt8) (rest : Source)
  | finished
  | failed (detail : String)

namespace Source

def ofBytes (bytes : List UInt8) : Source := ⟨bytes, none⟩

/-- Reads up to the next line feed, or to the end. What stands before a fault is lost. -/
def read (source : Source) : Reading :=
  let line := source.bytes.takeWhile (· != 10)
  match source.bytes.dropWhile (· != 10), source.fault with
  | feed :: rest, fault => .line (line ++ [feed]) ⟨rest, fault⟩
  | [], some detail => .failed detail
  | [], none => if line.isEmpty then .finished else .line line (ofBytes [])

theorem read_shorter {source rest : Source} {line : List UInt8} (h : source.read = .line line rest) :
    rest.bytes.length < source.bytes.length := by
  have whole := List.takeWhile_append_dropWhile (p := (· != (10 : UInt8))) (l := source.bytes)
  simp only [read] at h
  split at h
  · next after hs =>
    rw [hs] at whole
    cases h
    show after.length < source.bytes.length
    rw [← whole, List.length_append, List.length_cons]
    omega
  · cases h
  · next hs _ =>
    rw [hs, List.append_nil] at whole
    split at h
    · cases h
    · next hne =>
      cases h
      rw [whole, List.isEmpty_iff] at hne
      exact List.length_pos_iff.2 hne

end Source

/-- The request on a line: its text without the blanks around it, unless nothing is left. Bytes that are
not UTF-8 give a text that no request has. -/
def lineText? (line : List UInt8) : Option String :=
  let text := Blank.trim (Utf8.decodeLossy line)
  if text.isEmpty then none else some (String.ofList text)

/-- What goes wrong, if anything, with writing bytes and with flushing, when some have been taken. A write that
goes wrong may have taken the first of its bytes. -/
structure Device where
  writeFault : Nat → List UInt8 → Option (Nat × String)
  flushFault : Nat → Option String

/-- What has been written of an answer, and what went wrong. -/
structure Delivery where
  written : List UInt8
  fault : Option String
deriving DecidableEq, Repr

namespace Device

def reliable : Device := ⟨fun _ _ => none, fun _ => none⟩

/-- The output with room for some bytes, which takes all of a write or nothing. -/
def limited (room : Nat) (detail : String) : Device :=
  ⟨fun taken bytes => if room < taken + bytes.length then some (0, detail) else none, fun _ => none⟩

def unflushed (device : Device) (detail : String) : Device := { device with flushFault := fun _ => some detail }

def write (device : Device) (taken : Nat) (bytes : List UInt8) : Delivery :=
  match device.writeFault taken bytes with
  | some (count, detail) => ⟨bytes.take count, some detail⟩
  | none => ⟨bytes, none⟩

def deliver (device : Device) (taken : Nat) (line : List UInt8) : Delivery :=
  match device.write taken line with
  | ⟨part, some detail⟩ => ⟨part, some detail⟩
  | ⟨line, none⟩ =>
    match device.write (taken + line.length) [10] with
    | ⟨part, some detail⟩ => ⟨line ++ part, some detail⟩
    | ⟨feed, none⟩ => ⟨line ++ feed, device.flushFault (taken + line.length + 1)⟩

end Device

end SearchRelay
