import SearchRelay.Program

/-!
# The command

Everything that the program decides is decided in other modules; here bytes are
read, texts are written, and a file is opened. There is no network: exchanges
that get as far as that fail.
-/

namespace SearchRelay.Command

structure Journal where
  filter : Filter
  style : Style
  stream : IO.FS.Stream

def Journal.write (journal : Journal) (entries : List Entry) : IO Unit := do
  for entry in entries.filter journal.filter.passes do
    journal.stream.putStrLn (entry.text journal.style)
  journal.stream.flush

/-- The bytes up to a line feed, without it, and whether the input goes on after them. -/
partial def readLine (input : IO.FS.Stream) (line : ByteArray) : IO (ByteArray × Bool) := do
  let next ← input.read 1
  if next.isEmpty then return (line, false)
  else if next[0]? = some 10 then return (line, true)
  else readLine input (line ++ next)

/-- Answers lines until the input ends, or until a request is to be sent that `timed` says cannot be. -/
partial def serve {ν : Type} (relay : Relay (Connection ν)) (timed : Bool) (journal : Journal)
    (input output : IO.FS.Stream) : IO UInt32 := do
  let (line, more) ← readLine input .empty
  match if timed then none else Relay.sent? relay.endpoint line.toList with
  | some request =>
    journal.write (relay.entriesBeforeSending request)
    return UInt32.ofNat Program.brokenOff
  | none =>
    let relay ← match lineText? line.toList with
      | none => pure relay
      | some text =>
        let handled := relay.handle text
        journal.write (handled.events.map (Entry.mk true))
        output.putStr handled.answer.toLine
        output.putStr "\n"
        output.flush
        pure handled.relay
    if more then serve relay timed journal input output
    else
      journal.write [relay.closed]
      return 0

def ioFault : IO.Error → IoFault
  | .noFileOrDirectory _ _ _ => .notFound
  | .inappropriateType _ 20 _ => .notDirectory
  | .inappropriateType _ 21 _ => .isDirectory
  | .permissionDenied _ _ _ => .permissionDenied
  | .invalidArgument _ 36 _ => .nameTooLong
  | fault => .report fault.toString

def openJournal (filter : Filter) : Option (List UInt8) → IO (Except Failure Journal)
  | none => return .ok ⟨filter, .coloured, ← IO.getStderr⟩
  | some path =>
    try
      let file ← IO.FS.Handle.mk (String.ofList (Utf8.decodeLossy path)) .append
      return .ok ⟨filter, .plain, .ofHandle file⟩
    catch fault => return .error (.io (ioFault fault))

def fail (failure : Failure) : IO UInt32 := do
  IO.eprintln (Program.failureLine failure)
  return 1

def start (options : Options) (journal : Journal) : IO UInt32 := do
  journal.write [Program.opening options]
  match Program.relay options Connection.offline () with
  | .error failure => fail failure
  | .ok relay =>
    journal.write [relay.ready]
    let timed := Deadline.isPossible ((← IO.monoMsNow) / 1000) options.timeout
    try serve relay timed journal (← IO.getStdin) (← IO.getStdout)
    catch fault => fail (.io (ioFault fault))

end SearchRelay.Command

open SearchRelay in
def main (args : List String) : IO UInt32 := do
  match Options.parse (args.map (·.toUTF8.toList)) with
  | .error stop =>
    let (text, code) := Program.stopped stop
    IO.print text
    return UInt32.ofNat code
  | .ok options =>
    match Program.filter? (← IO.getEnv "RUST_LOG") with
    | none => return UInt32.ofNat Program.brokenOff
    | some filter =>
      match ← Command.openJournal filter options.logFile with
      | .error failure => Command.fail failure
      | .ok journal => Command.start options journal
