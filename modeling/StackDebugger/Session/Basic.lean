import StackDebugger.Debugger.Run
import StackDebugger.Session.Listing

/-!
# Debugging sessions

A session reads commands and answers with text until the program is over.
Commands and answers have channels of their own, or share those of the
program.
-/

namespace StackDebugger

/-- A debugger that is driven by typed commands. -/
structure Session where
  debugger : Debugger
  /-- The command lines still to come; without a script the commands come from
  the program's input. -/
  script : Option (List Text.RawLine) := none
  /-- The text shown so far; without a screen the session writes to the
  program's output. -/
  screen : Option String := none
  deriving DecidableEq, Repr

/-- How a session goes on after a command. -/
abbrev SessionResult := Except Fault Unit × Session

namespace Session

/-- Shows text. -/
def print (session : Session) (text : String) : Session :=
  match session.screen with
  | some shown => { session with screen := some (shown ++ text) }
  | none =>
      let state := session.debugger.state
      { session with
        debugger := session.debugger.withState
          { state with terminal := state.terminal.write text } }

/-- Takes the next command line. -/
def takeLine? (session : Session) : Option (Text.RawLine × Session) :=
  match session.script with
  | some [] => none
  | some (line :: rest) => some (line, { session with script := some rest })
  | none =>
      let state := session.debugger.state
      match state.terminal.input with
      | [] => none
      | line :: rest =>
          some (line,
            { session with
              debugger := session.debugger.withState
                { state with terminal := { state.terminal with input := rest } } })

/-- The number of command lines that can still be taken. -/
def lineCount (session : Session) : Nat :=
  match session.script with
  | some lines => lines.length
  | none => session.debugger.state.terminal.input.length

/-- Changes the debugger. -/
def modifyDebugger (session : Session) (change : Debugger → Debugger) : Session :=
  { session with debugger := change session.debugger }

/-- Resumes the program and shows where it stopped, unless it is over. -/
def resume (fuel : Nat) (session : Session) : Option SessionResult :=
  match session.debugger.resume fuel with
  | none => none
  | some (outcome, debugger) =>
      let stopped := { session with debugger }
      match outcome with
      | .error fault => some (.error fault, stopped)
      | .ok _ =>
          if debugger.isDone then some (.ok (), stopped)
          else some (.ok (), stopped.print debugger.functionText)

/-- Sets breakpoints in turn and reports the lines that cannot carry one. -/
def setBreakpoints (session : Session) : List Nat → Session
  | [] => session
  | line :: rest =>
      let reported :=
        if session.debugger.acceptsBreakpoint line then session
        else session.print (toString line ++ " is not a valid break point\n")
      (reported.modifyDebugger (·.setBreakpoint line)).setBreakpoints rest

/-- Carries out a command. -/
def dispatch (fuel : Nat) (session : Session) : Command → Option SessionResult
  | .help => some (.ok (), session.print Command.helpText)
  | .resume => session.resume fuel
  | .setBreakpoints lines =>
      let armed := session.setBreakpoints lines
      some (.ok (), armed.print (armed.debugger.breakpointsText ++ armed.debugger.sourceText))
  | .clearBreakpoints lines =>
      let cleared := session.modifyDebugger fun debugger =>
        lines.foldl (fun debugger line => debugger.clearBreakpoint line) debugger
      some (.ok (), cleared.print cleared.debugger.breakpointsText)
  | .listBreakpoints => some (.ok (), session.print session.debugger.breakpointsText)
  | .listSource => some (.ok (), session.print session.debugger.sourceText)
  | .showFunction => some (.ok (), session.print session.debugger.functionText)
  | .showActivations => some (.ok (), session.print session.debugger.activationsText)
  | .showVariables => some (.ok (), session.print session.debugger.variablesText)
  | .stepOut => (session.modifyDebugger Debugger.armStepOut).resume fuel
  | .stepOver => (session.modifyDebugger Debugger.armStepOver).resume fuel
  | .stepInto => (session.modifyDebugger Debugger.armStepInto).resume fuel
  | .showCalls => some (.ok (), session.print session.debugger.callsText)
  | .trace =>
      some (.ok (),
        (session.modifyDebugger Debugger.startTracing).print "Stack Tracing is now ON.\n")
  | .quit => some (.ok (), session.modifyDebugger Debugger.turnOff)

/-- Reads a line as a command and carries it out.  An empty line is passed
over, and any other line that is no command is answered with the reason. -/
def obey (fuel : Nat) (session : Session) (line : Text.RawLine) : Option SessionResult :=
  match Utf8.decode? line with
  | none => some (.error .malformedInput, session)
  | some text =>
      match Command.parse text with
      | .ok command => session.dispatch fuel command
      | .error .empty => some (.ok (), session)
      | .error failure => some (.ok (), session.print (failure.message ++ "\n"))

/-- What is shown before a command is read. -/
def commandPrompt : String :=
  "Type ? for help\n> "

/-- What is shown at the end of a program. -/
def farewell : String :=
  "Execution Finished\n"

/-- What one turn of a session leads to. -/
inductive Turn where
  | next (session : Session)
  | ended (outcome : Except Fault Unit) (session : Session)

/-- Takes a command line that was asked for and obeys it.  Without another
line the program is ended. -/
def takeTurn (fuel : Nat) (prompted : Session) : Option Turn :=
  match prompted.takeLine? with
  | none => some (.ended (.ok ()) ((prompted.modifyDebugger Debugger.turnOff).print farewell))
  | some (line, taken) =>
      match taken.obey fuel line with
      | none => none
      | some (.ok _, next) => some (.next next)
      | some (.error fault, failed) => some (.ended (.error fault) failed)

/-- Takes commands until the program is over, at most as many as there are
rounds. -/
def converse (fuel : Nat) : Nat → Session → Option SessionResult
  | 0, _ => none
  | rounds + 1, session =>
      if session.debugger.isDone then some (.ok (), session.print farewell)
      else
        match (session.print commandPrompt).takeTurn fuel with
        | none => none
        | some (.next next) => converse fuel rounds next
        | some (.ended outcome ended) => some (outcome, ended)

/-- The session at its beginning, with the source on show. -/
def begin (session : Session) : Session :=
  let started := session.modifyDebugger Debugger.reset
  started.print ("-----Running in Debugger Mode-----\n" ++ started.debugger.sourceText)

/-- A whole session.  Every round but the last takes a line, which bounds the
number of rounds. -/
def run (fuel : Nat) (session : Session) : Option SessionResult :=
  session.begin.converse fuel (session.begin.lineCount + 2)

end Session

end StackDebugger
