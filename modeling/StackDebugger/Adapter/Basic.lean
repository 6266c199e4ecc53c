import StackDebugger.Adapter.Message
import StackDebugger.Debugger.Run

/-!
# The debug adapter

An adapter serves a debug client.  While it handles a request, it sends numbered
messages: responses to what was asked for, and events that tell the client what
has happened.  A program starts once it has been launched and the client is done
with its configuration, whichever comes last.
-/

namespace StackDebugger

/-- A report to the client. -/
structure Event where
  name : String
  body : Option Json := none

namespace Event

/-- The only thread there is. -/
def threadId : Nat :=
  1

/-- The adapter is ready for the configuration. -/
def initialized : Event :=
  { name := "initialized" }

/-- The program was stopped. -/
def stopped (reason : String) : Event :=
  { name := "stopped"
    body := some (.ofMembers
      [("reason", .string reason), ("threadId", .nat threadId),
        ("allThreadsStopped", .bool true)]) }

/-- Text for one of the client's consoles. -/
def output (category text : String) : Event :=
  { name := "output"
    body := some (.ofMembers [("category", .string category), ("output", .string text)]) }

/-- The program has ended with an exit code. -/
def exited (exitCode : Nat) : Event :=
  { name := "exited", body := some (.ofMembers [("exitCode", .nat exitCode)]) }

/-- There is nothing left to debug. -/
def terminated : Event :=
  { name := "terminated" }

end Event

/-- The answer to a request. -/
structure Answer where
  success : Bool := true
  message : Option String := none
  body : Option Json := none

/-- What a debug client is served with. -/
structure Adapter where
  /-- The number of the last message sent. -/
  seq : Nat := 0
  debugger : Option Debugger := none
  sourcePath : Option String := none
  /-- Breakpoints asked for before a program was launched. -/
  requested : List Nat := []
  stopOnEntry : Bool := true
  launched : Bool := false
  configured : Bool := false

namespace Adapter

/-- Changes the debugger, if there is one. -/
def modifyDebugger (adapter : Adapter) (change : Debugger → Debugger) : Adapter :=
  { adapter with debugger := adapter.debugger.map change }

/-- What is left of a request: the messages sent, and whether the client is
still there. -/
structure Handled where
  adapter : Adapter
  messages : List Message := []
  connected : Bool := true

/-- A part of what is done about a request.  It does not come to an end where
a run of the program does not. -/
abbrev Handling := StateT Handled Option

namespace Handling

/-- Changes the adapter. -/
def change (change : Adapter → Adapter) : Handling Unit :=
  modify fun handled => { handled with adapter := change handled.adapter }

/-- Sends a message with the next number. -/
def send (kind : String) (content : Content) : Handling Unit :=
  modify fun handled =>
    let seq := handled.adapter.seq + 1
    { handled with
      adapter := { handled.adapter with seq }
      messages := handled.messages ++ [{ seq, kind, content }] }

/-- Answers a request. -/
def respond (requestSeq : Nat) (command : String) (answer : Answer) : Handling Unit :=
  send "response" (.response requestSeq answer.success command answer.message answer.body)

/-- Reports an event. -/
def report (event : Event) : Handling Unit :=
  send "event" (.event event.name event.body)

/-- Reports that the program is over. -/
def finish (exitCode : Nat) : Handling Unit := do
  report (Event.exited exitCode)
  report Event.terminated

/-- Reports that the program has failed. -/
def fail (fault : Fault) : Handling Unit := do
  report (Event.output "stderr" (fault.message ++ "\n"))
  finish 1

/-- Reports what the program has written since the last time, unless it is
nothing. -/
def flushOutput : Handling Unit := do
  match (← get).adapter.debugger with
  | none => pure ()
  | some debugger =>
      let (text, delivered) := debugger.deliver
      change fun adapter => { adapter with debugger := some delivered }
      if text.isEmpty then pure () else report (Event.output "stdout" text)

/-- Reports how a run ended. -/
def tellOutcome : Outcome → Handling Unit
  | .ok (.breakpoint _) => report (Event.stopped "breakpoint")
  | .ok .step => report (Event.stopped "step")
  | .ok .halted => finish 0
  | .error fault => fail fault

/-- Resumes the program, if there is one, and reports its output and how the
run ended. -/
def resume (fuel : Nat) : Handling Unit := do
  match (← get).adapter.debugger with
  | none => pure ()
  | some debugger =>
      let (outcome, ended) ← debugger.resume fuel
      change fun adapter => { adapter with debugger := some ended }
      flushOutput
      tellOutcome outcome

/-- Starts the program, or reports that it waits at its entry. -/
def start (fuel : Nat) : Handling Unit := do
  if (← get).adapter.stopOnEntry then report (Event.stopped "entry") else resume fuel

end Handling

end Adapter

end StackDebugger
