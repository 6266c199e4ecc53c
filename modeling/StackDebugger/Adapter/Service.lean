import StackDebugger.Adapter.Basic
import StackDebugger.Adapter.Frame
import StackDebugger.Files
import StackDebugger.Session.Listing

/-!
# Serving a debug client

What each request of a debug client is answered with, and what is done about it.
A launch names a bytecode file and says how the program is to start; the
breakpoints that the client asked for earlier are set in the new program.  Some
requests only ask about the pending calls and the variables of the innermost one.
A stream of messages is served one by one until it ends, breaks, or the client
goes.
-/

namespace StackDebugger

namespace Adapter

/-- The value of an argument. -/
def argument? (arguments : Option Json) (name : String) : Option Json :=
  arguments.bind (Json.member? name)

/-- What a launch asks for. -/
structure Launch where
  program : String
  source : String
  stopOnEntry : Bool
  trace : Bool
  input : String

/-- The launch that arguments describe; there is none without a program. -/
def Launch.ofArguments? (arguments : Option Json) : Option Launch := do
  let program ← (← argument? arguments "program").string?
  return {
    program
    source := ((argument? arguments "source").bind Json.string?).getD (Path.listing program)
    stopOnEntry := ((argument? arguments "stopOnEntry").bind Json.bool?).getD true
    trace := ((argument? arguments "trace").bind Json.bool?).getD false
    input := ((argument? arguments "input").bind Json.string?).getD "" }

/-- The debugger that a launch starts from. -/
def Launch.debugger (launch : Launch) (read : FileReader) (program : Program)
    (breakpoints : List Nat) : Debugger :=
  let terminal := Terminal.ofBytes (Utf8.encode launch.input.toList)
  let fresh := (Debugger.create program (read.readListing launch.source) terminal).reset
  let traced := if launch.trace then fresh.startTracing else fresh
  breakpoints.foldl Debugger.setBreakpoint traced

/-- The adapter with a program that was loaded for a launch. -/
def Launch.take (launch : Launch) (read : FileReader) (program : Program) (adapter : Adapter) :
    Adapter :=
  { adapter with
    debugger := some (launch.debugger read program adapter.requested)
    sourcePath := some launch.source
    requested := []
    launched := true }

/-- The lines at which breakpoints are asked for. -/
def requestedLines (arguments : Option Json) : List Nat :=
  match (argument? arguments "breakpoints").bind Json.items? with
  | none => []
  | some items => items.filterMap fun item => (item.member? "line").bind Json.nat?

/-- Replaces all breakpoints.  Before a program is launched they are only
remembered. -/
def replaceBreakpoints (lines : List Nat) (adapter : Adapter) : Adapter :=
  match adapter.debugger with
  | some debugger =>
      { adapter with
        debugger := some (lines.foldl Debugger.setBreakpoint debugger.clearBreakpoints) }
  | none => { adapter with requested := lines }

/-- What the client is told about the breakpoints it asked for. -/
def breakpointsBody (adapter : Adapter) (lines : List Nat) : Json :=
  let verified (line : Nat) : Bool :=
    match adapter.debugger with
    | some debugger => debugger.acceptsBreakpoint line
    | none => false
  .ofMembers
    [("breakpoints", .array (lines.map fun line =>
      .ofMembers [("verified", .bool (verified line)), ("line", .nat line)]))]

/-- What the client can ask for. -/
def capabilities : Json :=
  .ofMembers
    [("supportsConfigurationDoneRequest", .bool true),
      ("supportsStepBack", .bool false),
      ("supportsFunctionBreakpoints", .bool false),
      ("supportsConditionalBreakpoints", .bool false),
      ("supportsSetVariable", .bool false)]

/-- What the client is told about an activation. -/
def frameBody (path : String) (position : Nat) (activation : Activation) : Json :=
  .ofMembers
    [("id", .nat position),
      ("name", .string activation.displayName),
      ("line", .nat (activation.currentLine.getD 0)),
      ("column", .nat 1),
      ("source", .ofMembers [("path", .string path)])]

/-- The activations, innermost first. -/
def stackTraceBody (adapter : Adapter) : Json :=
  let path := adapter.sourcePath.getD ""
  let frames := match adapter.debugger with
    | none => []
    | some debugger =>
        debugger.activations.toList.zipIdx.reverse.map fun (activation, position) =>
          frameBody path position activation
  .ofMembers [("stackFrames", .array frames), ("totalFrames", .nat frames.length)]

/-- The variables of the innermost activation. -/
def variablesBody (adapter : Adapter) : Json :=
  let rows := match adapter.debugger with
    | none => []
    | some debugger =>
        debugger.localVariables.map fun (name, value) =>
          .ofMembers
            [("name", .string name), ("value", .string (Debugger.valueText value)),
              ("variablesReference", .nat 0)]
  .ofMembers [("variables", .array rows)]

/-- The one thread. -/
def threadsBody : Json :=
  .ofMembers
    [("threads", .array
      [.ofMembers [("id", .nat Event.threadId), ("name", .string "main")]])]

/-- The one scope, which holds the variables. -/
def scopesBody : Json :=
  .ofMembers
    [("scopes", .array
      [.ofMembers
        [("name", .string "Locals"), ("variablesReference", .nat 1),
          ("expensive", .bool false)]])]

/-- The answer to a request that only asks about the program.  Anything else is
not known. -/
def inquire (adapter : Adapter) (command : String) : Answer :=
  match command with
  | "threads" => { body := some threadsBody }
  | "stackTrace" => { body := some adapter.stackTraceBody }
  | "scopes" => { body := some scopesBody }
  | "variables" => { body := some adapter.variablesBody }
  | _ => { success := false }

namespace Handling

/-- Launches a program.  A launch that fails is answered with the reason. -/
def launch (fuel : Nat) (read : FileReader) (seq : Nat) (arguments : Option Json) :
    Handling Unit := do
  match Launch.ofArguments? arguments with
  | none =>
      respond seq "launch"
        { success := false, message := some "launch requires a 'program' path" }
  | some launch =>
      change fun adapter => { adapter with stopOnEntry := launch.stopOnEntry }
      match read.loadProgram .debug launch.program with
      | .error error =>
          respond seq "launch" { success := false, message := some error.message }
      | .ok loaded =>
          change (launch.take read loaded.program)
          respond seq "launch" {}
          if (← get).adapter.configured then start fuel else pure ()

/-- Lets the program run until a step is complete. -/
def step (fuel seq : Nat) (command : String) (arm : Debugger → Debugger) : Handling Unit := do
  change fun adapter => adapter.modifyDebugger arm
  respond seq command {}
  resume fuel

/-- Handles a request. -/
def perform (fuel : Nat) (read : FileReader) (seq : Nat) (command : String)
    (arguments : Option Json) : Handling Unit :=
  match command with
  | "initialize" => do
      respond seq "initialize" { body := some capabilities }
      report Event.initialized
  | "launch" => launch fuel read seq arguments
  | "setBreakpoints" => do
      let lines := requestedLines arguments
      let body := (← get).adapter.breakpointsBody lines
      change (replaceBreakpoints lines)
      respond seq "setBreakpoints" { body := some body }
  | "configurationDone" => do
      change fun adapter => { adapter with configured := true }
      respond seq "configurationDone" {}
      if (← get).adapter.launched then start fuel else pure ()
  | "continue" => do
      respond seq "continue"
        { body := some (.ofMembers [("allThreadsContinued", .bool true)]) }
      resume fuel
  | "next" => step fuel seq "next" Debugger.armStepOver
  | "stepIn" => step fuel seq "stepIn" Debugger.armStepInto
  | "stepOut" => step fuel seq "stepOut" Debugger.armStepOut
  | "disconnect" => do
      change fun adapter => adapter.modifyDebugger Debugger.turnOff
      respond seq "disconnect" {}
      modify fun handled => { handled with connected := false }
  | _ => do
      respond seq command ((← get).adapter.inquire command)

end Handling

/-- Handles a request. -/
def handle (fuel : Nat) (read : FileReader) (adapter : Adapter) (seq : Nat) (command : String)
    (arguments : Option Json) : Option Handled :=
  ((Handling.perform fuel read seq command arguments).run { adapter }).map Prod.snd

/-- Receives a message.  Only requests are acted on. -/
def receive (fuel : Nat) (read : FileReader) (adapter : Adapter) (message : Message) :
    Option Handled :=
  match message.content with
  | .request command arguments => adapter.handle fuel read message.seq command arguments
  | _ => some { adapter, messages := [], connected := true }

/-- The files that receiving a message may read. -/
def filesFor (message : Message) : List String :=
  match message.content with
  | .request "launch" arguments =>
      match Launch.ofArguments? arguments with
      | none => []
      | some launch => [launch.program, launch.source]
  | _ => []

/-- What is left after a stream of messages. -/
structure Served where
  adapter : Adapter
  messages : List Message
  failure : Option FrameError

/-- Serves at most so many messages of a stream, and none after the client has
gone. -/
def serveWithin (fuel : Nat) (read : FileReader) :
    Nat → Adapter → List UInt8 → Option Served
  | 0, adapter, _ => some { adapter, messages := [], failure := none }
  | count + 1, adapter, stream =>
      match Frame.takeMessage stream with
      | .error failure => some { adapter, messages := [], failure := some failure }
      | .ok none => some { adapter, messages := [], failure := none }
      | .ok (some (message, rest)) =>
          match adapter.receive fuel read message with
          | none => none
          | some handled =>
              if handled.connected then
                (serveWithin fuel read count handled.adapter rest).map fun served =>
                  { served with messages := handled.messages ++ served.messages }
              else
                some {
                  adapter := handled.adapter
                  messages := handled.messages
                  failure := none }

/-- Serves a stream until it ends, breaks, or the client goes. -/
def serve (fuel : Nat) (read : FileReader) (adapter : Adapter) (stream : List UInt8) :
    Option Served :=
  serveWithin fuel read (stream.length + 1) adapter stream

end Adapter

end StackDebugger
