import StackDebugger.CommandLine.Basic

/-!
# The program

The outermost layer: it passes on arguments, files, standard input and
standard output.  Input is read only when a step needs it, so that a user or
a debug client can answer what has been shown.
-/

namespace StackDebugger.Live

/-- The number of steps that a run may take. -/
def fuel : Nat :=
  0x4000000000000000

/-- Why the system did not give a file.  The system's codes come with either
sign. -/
def fileError : IO.Error → FileError
  | .noFileOrDirectory _ _ _ => .notFound
  | .inappropriateType name code details =>
      match (min code (-code)).toNat with
      | 20 => .notDirectory
      | 21 => .isDirectory
      | _ => .other (IO.Error.inappropriateType name code details).toString
  | error => .other error.toString

/-- Reads files ahead, for a reader of just these files. -/
def readFiles (paths : List String) : IO FileReader := do
  let found ← paths.mapM fun (path : String) => do
    try
      return (path, Except.ok (← IO.FS.readBinFile path).toList)
    catch error =>
      return (path, Except.error (fileError error))
  return fun path => (found.lookup path).getD (.error .notFound)

/-- Shows text at once. -/
def display (text : String) : IO Unit := do
  let output ← IO.getStdout
  output.putStr text
  output.flush

/-- Reads a given number of bytes, or fewer at the end of the input. -/
def readBytes (count : Nat) : IO (List UInt8) := do
  return (← (← IO.getStdin).read count.toUSize).toList

/-- Reads the rest of a line that began with the gathered bytes, kept last
byte first; the line is empty only at the end of the input. -/
partial def readRawLine (gathered : List UInt8) : IO Text.RawLine := do
  match ← readBytes 1 with
  | [] => return gathered.reverse
  | b :: _ => if b = 10 then return (b :: gathered).reverse else readRawLine (b :: gathered)

/-- Makes an attempt and shows what it wrote, apart from what was shown
already.  An attempt that fails for want of input is repeated with another
line. -/
partial def attempt {σ : Type} (deliver : σ → String × σ) (feed : σ → Text.RawLine → σ)
    (run : σ → Except Fault Unit × σ) (shown : Nat) (start : σ) :
    IO (Except Fault Unit × σ) := do
  let (outcome, reached) := run start
  let (text, delivered) := deliver reached
  display (String.ofList (text.toList.drop shown))
  match outcome with
  | .error .inputClosed =>
      let line ← readRawLine []
      if line.isEmpty then return (outcome, delivered)
      else attempt deliver feed run text.length (feed start line)
  | _ => return (outcome, delivered)

/-- Carries out a program. -/
partial def runProgram (machine : Machine) : IO (Except Fault Unit) := do
  if !machine.state.running then return .ok ()
  let deliver (machine : Machine) :=
    let (text, state) := machine.state.deliver
    (text, { machine with state })
  let feed (machine : Machine) (line : Text.RawLine) :=
    { machine with state := machine.state.feed line }
  match ← attempt deliver feed Machine.step 0 machine with
  | (.ok _, next) => runProgram next
  | (outcome, _) => return outcome

/-- Shows what a session has written. -/
def settle (session : Session) : IO Session := do
  let (text, debugger) := session.debugger.deliver
  display text
  return { session with debugger }

/-- Adds a line behind the input of a session. -/
def feedSession (session : Session) (line : Text.RawLine) : Session :=
  session.modifyDebugger fun debugger => debugger.withState (debugger.state.feed line)

/-- Carries out a session. -/
partial def converse (session : Session) : IO (Except Fault Unit) := do
  if session.debugger.isDone then
    discard (settle (session.print Session.farewell))
    return .ok ()
  let prompted ← settle (session.print Session.commandPrompt)
  let supplied ←
    if 0 < prompted.lineCount then pure prompted
    else do
      let line ← readRawLine []
      pure (if line.isEmpty then prompted else feedSession prompted line)
  let turn (session : Session) : Except Fault Unit × (Session × Bool) :=
    match session.takeTurn fuel with
    | some (.next next) => (.ok (), next, true)
    | some (.ended outcome ended) => (outcome, ended, false)
    | none => (.ok (), session, false)
  let deliver : Session × Bool → String × (Session × Bool) := fun (session, goesOn) =>
    let (text, debugger) := session.debugger.deliver
    (text, { session with debugger }, goesOn)
  let feed : Session × Bool → Text.RawLine → Session × Bool := fun (session, goesOn) line =>
    (feedSession session line, goesOn)
  match ← attempt deliver feed (fun (session, _) => turn session) 0 (supplied, true) with
  | (.ok _, next, true) => converse next
  | (outcome, _) => return outcome

/-- Serves a debug client, from the bytes already read on. -/
partial def serve (adapter : Adapter) (stream : List UInt8) : IO (Option FrameError) := do
  let more (ending : Option FrameError) : IO (Option FrameError) := do
    let bytes ← match Frame.lacking? stream with
      | some count => readBytes count
      | none => readRawLine []
    if bytes.isEmpty then return ending else serve adapter (stream ++ bytes)
  match Frame.takeBody stream with
  | .error .truncated => more (some .truncated)
  | .error failure => return some failure
  | .ok none => more none
  | .ok (some (body, rest)) =>
      match Message.ofBytes? body with
      | none => serve adapter rest
      | some message =>
          match adapter.receive fuel (← readFiles (Adapter.filesFor message)) message with
          | none => return none
          | some handled =>
              display (String.ofList (handled.messages.flatMap Frame.encode))
              if handled.connected then serve handled.adapter rest else return none

/-- Reports an error that ended the run. -/
def fail (report : String) : IO UInt32 := do
  IO.eprint report
  return 1

/-- Does what the options ask for. -/
def perform (options : Options) : IO UInt32 := do
  if options.adapter then
    match ← serve {} [] with
    | none => return 0
    | some failure => fail (CommandLine.frameReport failure)
  else
    let read ← readFiles (options.program.toList ++ options.sourcePath.toList)
    match CommandLine.loadFor read options with
    | .error report => fail report
    | .ok program =>
        let outcome ←
          if options.debug then
            let listing := CommandLine.readListing read options
            let session : Session := { debugger := .create program listing {} }
            converse (← settle session.begin)
          else
            let outcome ← runProgram (Machine.create program {}).start
            if outcome.isOk then display Session.farewell
            pure outcome
        match outcome with
        | .ok _ => return 0
        | .error fault => fail (CommandLine.faultReport fault)

end StackDebugger.Live

/-- Runs the program with its arguments. -/
def main (arguments : List String) : IO UInt32 := do
  match StackDebugger.Options.parse arguments with
  | .error error =>
      let ending := StackDebugger.CommandLine.usageEnding error
      StackDebugger.Live.display ending.output
      if ending.exitCode != 0 then IO.eprintln ("error: " ++ error.message)
      return ending.exitCode.toUInt32
  | .ok options => StackDebugger.Live.perform options
