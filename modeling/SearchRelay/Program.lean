import SearchRelay.Deadline
import SearchRelay.Disk
import SearchRelay.Options.Parser
import SearchRelay.Options.Usage
import SearchRelay.Relay.Filter

/-!
# The program

It reads its options and its filter, opens its journal, makes a relay and runs
it over its input. A journal may be opened once only.
-/

namespace SearchRelay.Program

/-- What the program finds around it: the files, the text of a filter, the second of the clock, and the network
with its state. -/
structure Surroundings (ν : Type) where
  disk : Disk
  filter : Option String
  now : Nat
  network : Network ν
  state : ν

/-- What the program leaves: its exit code, the text of its output, what stopped it, and the journal with its file. -/
structure Result where
  exit : Nat
  output : List Char
  failure : Option Failure
  file : Option (List UInt8)
  journal : List Entry

/-! ## Steps -/

/-- The filter of the journal. A text that cannot even be cut into parts is none. -/
def filter? : Option String → Option Filter
  | none => some .standard
  | some text =>
    match Filter.ofText text with
    | .ok filter => some filter
    | .error .malformed => some .standard
    | .error .splitCharacter => none

def openJournal (disk : Disk) : Option (List UInt8) → Except Failure Unit
  | none => .ok ()
  | some path => (disk.openAppend path).mapError .io

/-- Opens a second journal: the file is opened first, and then there is one already. -/
def reopenJournal (disk : Disk) (path : Option (List UInt8)) : Except Failure Unit :=
  openJournal disk path >>= fun _ => .error .logging

def relay {ν : Type} (options : Options) (network : Network ν) (state : ν) (toAscii : Url.ToAscii := .limited) :
    Except Failure (Relay (Connection ν)) :=
  match Endpoint.ofUrl options.baseUrl options.route toAscii with
  | .ok endpoint => .ok (.start endpoint (Connection.transport network) (.fresh state))
  | .error refusal => .error (.config refusal)

def opening (options : Options) : Entry :=
  ⟨false, .starting options.baseUrl options.route options.timeout⟩

def stopped : Options.Stop → String × Nat
  | .help => (Options.help, 0)
  | .version => (Options.version, 0)
  | .fault _ => ("", 2)

def brokenOff : Nat := 101

/-! ## The whole -/

/-- Runs a relay to the end, or as far as the clock allows, and says whether it broke off. -/
def runRelay {ν : Type} (now : Nat) (timeout : Option Nat) (relay : Relay (Connection ν)) (input : List UInt8) :
    Run (Connection ν) × Bool :=
  if Deadline.isPossible now timeout then (relay.run (.ofBytes input) .reliable, false)
  else relay.runUntilSending (.ofBytes input) .reliable

def serve {ν : Type} (around : Surroundings ν) (filter : Filter) (options : Options) (input : List UInt8)
    (toAscii : Url.ToAscii) (id : String) : Result :=
  let kept (journal : List Entry) := journal.filter (filter.passes · id)
  match relay options around.network around.state toAscii with
  | .error failure => ⟨1, [], some failure, options.logFile, kept [opening options]⟩
  | .ok relay =>
    let (run, broken) := runRelay around.now options.timeout relay input
    let exit := if broken then brokenOff else if run.fault.isNone then 0 else 1
    ⟨exit, Utf8.decodeLossy run.output, run.fault.map fun text => .io (.report text), options.logFile,
      kept (opening options :: run.journal)⟩

/-- Runs the program in its surroundings; names are converted by `toAscii`, and `id` stands for the random ids that
its requests have. -/
def run {ν : Type} (around : Surroundings ν) (args : List (List UInt8)) (input : List UInt8)
    (toAscii : Url.ToAscii := .limited) (id : String := Filter.sampleId) : Result :=
  match Options.parse args with
  | .error stop => ⟨(stopped stop).2, (stopped stop).1.toList, none, none, []⟩
  | .ok options =>
    match filter? around.filter with
    | none => ⟨brokenOff, [], none, none, []⟩
    | some filter =>
      match openJournal around.disk options.logFile with
      | .error failure => ⟨1, [], some failure, none, []⟩
      | .ok _ => serve around filter options input toAscii id

def failureLine (failure : Failure) : String := s!"Error: {failure.shown}"

/-- The lines on the error stream: the journal, if it has no file, and what stopped the program. -/
def Result.errorLines (result : Result) : List (List Char) :=
  let told := if result.file.isNone then result.journal.flatMap (·.lines .coloured) else []
  told ++ result.failure.toList.map fun failure => (failureLine failure).toList

end SearchRelay.Program
