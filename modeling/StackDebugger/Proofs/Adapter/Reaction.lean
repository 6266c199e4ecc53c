import Mathlib.Data.List.Basic
import StackDebugger.Adapter.Service

/-!
# What requests lead to

A request is handled by changing the adapter and sending messages one after another.  The relation
`Reacts` says for each kind of request how it is answered, what is reported behind the answer, and
which adapter is left.  There is a reaction to every request, unless it resumes a run that does not
return, and handling the request sends exactly one response and then the events of its reaction,
all numbered on from the last message before.
-/

namespace StackDebugger

namespace Event

/-- The text that the program wrote, if it wrote any. -/
def programOutput (text : String) : List Event :=
  if text.isEmpty then [] else [output "stdout" text]

/-- The program is over. -/
def finished (exitCode : Nat) : List Event :=
  [exited exitCode, terminated]

/-- How a run ended. -/
def ofOutcome : Outcome → List Event
  | .ok (.breakpoint _) => [stopped "breakpoint"]
  | .ok .step => [stopped "step"]
  | .ok .halted => finished 0
  | .error fault => output "stderr" (fault.message ++ "\n") :: finished 1

end Event

/-- What lets a program run. -/
inductive Drive where
  | resume
  | stepOver
  | stepInto
  | stepOut
  deriving DecidableEq, Repr

namespace Drive

def request : Drive → String
  | .resume => "continue"
  | .stepOver => "next"
  | .stepInto => "stepIn"
  | .stepOut => "stepOut"

def arm : Drive → Debugger → Debugger
  | .resume => id
  | .stepOver => Debugger.armStepOver
  | .stepInto => Debugger.armStepInto
  | .stepOut => Debugger.armStepOut

def answer : Drive → Answer
  | .resume => { body := some (.ofMembers [("allThreadsContinued", .bool true)]) }
  | .stepOver | .stepInto | .stepOut => {}

end Drive

/-- What a request leads to: an answer, then events. -/
structure Reaction where
  adapter : Adapter
  answer : Answer := {}
  events : List Event := []
  /-- Whether the client is still there. -/
  connected : Bool := true

namespace Adapter

/-- What is reported of a run of the program, if there is one, and what is left of it. -/
def runReport (fuel : Nat) : Option Debugger → Option (List Event × Option Debugger)
  | none => some ([], none)
  | some debugger =>
      (debugger.resume fuel).map fun (outcome, ended) =>
        (Event.programOutput ended.deliver.1 ++ Event.ofOutcome outcome, some ended.deliver.2)

/-- What is reported of a program when it becomes ready to start, or does not. -/
def startReport (fuel : Nat) (ready stopOnEntry : Bool) (debugger : Option Debugger) :
    Option (List Event × Option Debugger) :=
  if ready then
    if stopOnEntry then some ([Event.stopped "entry"], debugger) else runReport fuel debugger
  else some ([], debugger)

/-- The reaction of an adapter that carries its program on behind an answer. -/
def carryOn (adapter : Adapter) (answer : Answer)
    (reported : Option (List Event × Option Debugger)) : Option Reaction :=
  reported.map fun (events, debugger) =>
    { adapter := { adapter with debugger }, answer, events }

/-- The requests that do more than ask about the program. -/
def actions : List String :=
  ["initialize", "launch", "setBreakpoints", "configurationDone", "continue", "next", "stepIn",
    "stepOut", "disconnect"]

/-- What requests lead to; nothing where a run does not return. -/
inductive Reacts (fuel : Nat) (read : FileReader) (adapter : Adapter) (arguments : Option Json) :
    String → Option Reaction → Prop where
  | inquires {command : String} :
      command ∉ actions →
      Reacts fuel read adapter arguments command
        (some { adapter, answer := adapter.inquire command })
  | initializes :
      Reacts fuel read adapter arguments "initialize"
        (some { adapter, answer := { body := some capabilities }, events := [Event.initialized] })
  | namesNoProgram :
      Launch.ofArguments? arguments = none →
      Reacts fuel read adapter arguments "launch"
        (some {
          adapter
          answer := { success := false, message := some "launch requires a 'program' path" } })
  | loadsNoProgram {launch : Launch} {error : LoadError} :
      Launch.ofArguments? arguments = some launch →
      read.loadProgram .debug launch.program = .error error →
      Reacts fuel read adapter arguments "launch"
        (some {
          adapter := { adapter with stopOnEntry := launch.stopOnEntry }
          answer := { success := false, message := some error.message } })
  | launches {launch : Launch} {loaded : LoadedProgram} {result : Option Reaction} :
      Launch.ofArguments? arguments = some launch →
      read.loadProgram .debug launch.program = .ok loaded →
      (launch.take read loaded.program { adapter with stopOnEntry := launch.stopOnEntry }).carryOn
        {} (startReport fuel adapter.configured launch.stopOnEntry
          (some (launch.debugger read loaded.program adapter.requested))) = result →
      Reacts fuel read adapter arguments "launch" result
  | setsBreakpoints :
      Reacts fuel read adapter arguments "setBreakpoints"
        (some {
          adapter := adapter.replaceBreakpoints (requestedLines arguments)
          answer := { body := some (adapter.breakpointsBody (requestedLines arguments)) } })
  | configures {result : Option Reaction} :
      carryOn { adapter with configured := true } {}
        (startReport fuel adapter.launched adapter.stopOnEntry adapter.debugger) = result →
      Reacts fuel read adapter arguments "configurationDone" result
  | drives (drive : Drive) {result : Option Reaction} :
      adapter.carryOn drive.answer (runReport fuel (adapter.debugger.map drive.arm)) = result →
      Reacts fuel read adapter arguments drive.request result
  | disconnects :
      Reacts fuel read adapter arguments "disconnect"
        (some { adapter := adapter.modifyDebugger Debugger.turnOff, connected := false })

theorem replaceBreakpoints_eq (lines : List Nat) (adapter : Adapter) :
    ∃ debugger requested,
      adapter.replaceBreakpoints lines = { adapter with debugger, requested } := by
  unfold replaceBreakpoints
  split
  · exact ⟨_, _, rfl⟩
  · exact ⟨_, _, rfl⟩

theorem exists_reacts (fuel : Nat) (read : FileReader) (adapter : Adapter) (command : String)
    (arguments : Option Json) :
    ∃ result, Reacts fuel read adapter arguments command result := by
  by_cases acts : command ∈ actions
  · simp only [actions, List.mem_cons, List.not_mem_nil, or_false] at acts
    rcases acts with rfl | rfl | rfl | rfl | rfl | rfl | rfl | rfl | rfl
    · exact ⟨_, .initializes⟩
    · cases isLaunch : Launch.ofArguments? arguments with
      | none => exact ⟨_, .namesNoProgram isLaunch⟩
      | some launch =>
          cases loads : read.loadProgram .debug launch.program with
          | error error => exact ⟨_, .loadsNoProgram isLaunch loads⟩
          | ok loaded => exact ⟨_, .launches isLaunch loads rfl⟩
    · exact ⟨_, .setsBreakpoints⟩
    · exact ⟨_, .configures rfl⟩
    · exact ⟨_, .drives .resume rfl⟩
    · exact ⟨_, .drives .stepOver rfl⟩
    · exact ⟨_, .drives .stepInto rfl⟩
    · exact ⟨_, .drives .stepOut rfl⟩
    · exact ⟨_, .disconnects⟩
  · exact ⟨_, .inquires acts⟩

/-- The messages that report events, numbered from a given one on. -/
def eventMessages (first : Nat) (events : List Event) : List Message :=
  (events.zipIdx first).map fun (event, seq) =>
    { seq, kind := "event", content := .event event.name event.body }

@[simp] theorem length_eventMessages (first : Nat) (events : List Event) :
    (eventMessages first events).length = events.length := by
  rw [eventMessages, List.length_map, List.length_zipIdx]

theorem map_seq_eventMessages (first : Nat) (events : List Event) :
    (eventMessages first events).map Message.seq = List.range' first events.length := by
  rw [eventMessages, List.map_map, ← List.zipIdx_map_snd first events]
  rfl

theorem map_eventMessages {α : Type} (view : String → Content → α) (first : Nat)
    (events : List Event) :
    (eventMessages first events).map (fun message => view message.kind message.content) =
      events.map fun event => view "event" (.event event.name event.body) := by
  nth_rewrite 2 [← List.zipIdx_map_fst first events]
  rw [eventMessages, List.map_map, List.map_map]
  rfl

theorem map_kind_eventMessages (first : Nat) (events : List Event) :
    (eventMessages first events).map Message.kind = events.map fun _ => "event" :=
  map_eventMessages (fun kind _ => kind) first events

theorem map_content_eventMessages (first : Nat) (events : List Event) :
    (eventMessages first events).map Message.content =
      events.map fun event => .event event.name event.body :=
  map_eventMessages (fun _ content => content) first events

theorem eventMessages_append (first : Nat) (events later : List Event) :
    eventMessages first (events ++ later) =
      eventMessages first events ++ eventMessages (first + events.length) later := by
  rw [eventMessages, List.zipIdx_append, List.map_append]
  rfl

/-- What is left when events have been reported besides. -/
def Handled.reporting (events : List Event) (handled : Handled) : Handled :=
  { handled with
    adapter := { handled.adapter with seq := handled.adapter.seq + events.length }
    messages := handled.messages ++ eventMessages (handled.adapter.seq + 1) events }

@[simp] theorem Handled.reporting_nil (handled : Handled) : handled.reporting [] = handled := by
  simp [reporting, eventMessages]

theorem Handled.reporting_reporting (handled : Handled) (events later : List Event) :
    (handled.reporting events).reporting later = handled.reporting (events ++ later) := by
  simp only [reporting, eventMessages_append, List.append_assoc, List.length_append,
    Nat.add_assoc, Nat.add_comm 1]

/-- What is left when the program has been carried on and events have been reported of it. -/
def Handled.carryOn (handled : Handled) (reported : List Event × Option Debugger) :
    Unit × Handled :=
  ((), Handled.reporting reported.1
    { handled with adapter := { handled.adapter with debugger := reported.2 } })

namespace Handling

theorem run_get_bind {α : Type} (next : Handled → Handling α) (handled : Handled) :
    (get >>= next).run handled = (next handled).run handled :=
  rfl

theorem run_lift_bind {α β : Type} (action : Option α) (next : α → Handling β)
    (handled : Handled) :
    ((liftM action : Handling α) >>= next).run handled =
      action.bind fun value => (next value).run handled := by
  cases action with
  | none => rfl
  | some value => rfl

theorem run_report (event : Event) (handled : Handled) :
    (report event).run handled = some ((), handled.reporting [event]) :=
  rfl

theorem run_finish (exitCode : Nat) (handled : Handled) :
    (finish exitCode).run handled = some ((), handled.reporting (Event.finished exitCode)) := by
  rw [Event.finished, ← List.singleton_append, ← Handled.reporting_reporting]
  rfl

theorem run_fail (fault : Fault) (handled : Handled) :
    (fail fault).run handled = some ((), handled.reporting (Event.ofOutcome (.error fault))) := by
  rw [Event.ofOutcome, ← List.singleton_append, ← Handled.reporting_reporting, ← run_finish]
  rfl

theorem run_flushOutput {handled : Handled} {debugger : Debugger}
    (present : handled.adapter.debugger = some debugger) :
    flushOutput.run handled =
      some (handled.carryOn (Event.programOutput debugger.deliver.1, some debugger.deliver.2)) := by
  rw [flushOutput, run_get_bind, present]
  change (if debugger.deliver.1.isEmpty then pure ()
    else report (Event.output "stdout" debugger.deliver.1) : Handling Unit).run
      { handled with adapter := { handled.adapter with debugger := some debugger.deliver.2 } } = _
  rw [Handled.carryOn, Event.programOutput]
  split
  · rw [Handled.reporting_nil]
    rfl
  · exact run_report _ _

theorem run_tellOutcome (outcome : Outcome) (handled : Handled) :
    (tellOutcome outcome).run handled = some ((), handled.reporting (Event.ofOutcome outcome)) := by
  match outcome with
  | .ok (.breakpoint line) => exact run_report (Event.stopped "breakpoint") handled
  | .ok .step => exact run_report (Event.stopped "step") handled
  | .ok .halted => exact run_finish 0 handled
  | .error fault => exact run_fail fault handled

theorem run_resume (fuel : Nat) (handled : Handled) :
    (resume fuel).run handled =
      (runReport fuel handled.adapter.debugger).map handled.carryOn := by
  rw [resume, run_get_bind]
  cases isDebugger : handled.adapter.debugger with
  | none =>
      have idle : handled.carryOn ([], none) = ((), handled) := by
        rw [Handled.carryOn, Handled.reporting_nil, ← isDebugger]
      exact congrArg some idle.symm
  | some debugger =>
      simp only [run_lift_bind, runReport]
      cases debugger.resume fuel with
      | none => rfl
      | some result =>
          obtain ⟨outcome, ended⟩ := result
          let current : Handled :=
            { handled with adapter := { handled.adapter with debugger := some ended } }
          have flushed : flushOutput.run current = _ := run_flushOutput rfl
          have told := run_tellOutcome outcome
            (current.carryOn (Event.programOutput ended.deliver.1, some ended.deliver.2)).2
          change (flushOutput.run current).bind (fun next => (tellOutcome outcome).run next.2) = _
          rw [flushed, Option.bind_some, told, Handled.carryOn, Handled.reporting_reporting]
          rfl

theorem run_start (fuel : Nat) (ready : Bool) (handled : Handled) :
    (if ready then start fuel else pure () : Handling Unit).run handled =
      (startReport fuel ready handled.adapter.stopOnEntry handled.adapter.debugger).map
        handled.carryOn := by
  have idle : handled.carryOn ([], handled.adapter.debugger) = ((), handled) := by
    rw [Handled.carryOn, Handled.reporting_nil]
  cases ready with
  | false => exact congrArg some idle.symm
  | true =>
      simp only [if_true, start, run_get_bind, startReport]
      split
      · exact run_report (Event.stopped "entry") handled
      · exact run_resume fuel handled

theorem perform_of_inquiry {command : String} (inquires : command ∉ actions) (fuel : Nat)
    (read : FileReader) (seq : Nat) (arguments : Option Json) :
    perform fuel read seq command arguments =
      get >>= fun handled => respond seq command (handled.adapter.inquire command) := by
  unfold perform
  split
  all_goals first | exact absurd (by decide) inquires | rfl

end Handling

end Adapter

/-- What is left when a reaction has been sent as the answer to a request. -/
def Reaction.sent (seq : Nat) (command : String) (reaction : Reaction) : Adapter.Handled :=
  { adapter := { reaction.adapter with seq := reaction.adapter.seq + 1 + reaction.events.length }
    messages :=
      { seq := reaction.adapter.seq + 1
        kind := "response"
        content := .response seq reaction.answer.success command reaction.answer.message
          reaction.answer.body } ::
        Adapter.eventMessages (reaction.adapter.seq + 2) reaction.events
    connected := reaction.connected }

namespace Adapter

/-- What carries the program on behind an answer adds to what was sent with it. -/
theorem map_carryOn_sent (adapter : Adapter) (answer : Answer) (seq : Nat) (command : String)
    (reported : Option (List Event × Option Debugger)) :
    (reported.map (({ adapter, answer } : Reaction).sent seq command).carryOn).map Prod.snd =
      (adapter.carryOn answer reported).map (Reaction.sent seq command) := by
  cases reported with
  | none => rfl
  | some reported => rfl

/-- A request is answered by the response of its reaction, and then its events are reported. -/
theorem Reacts.handle_eq {fuel : Nat} {read : FileReader} {adapter : Adapter}
    {arguments : Option Json} {command : String} {result : Option Reaction}
    (reacts : Reacts fuel read adapter arguments command result) (seq : Nat) :
    adapter.handle fuel read seq command arguments = result.map (Reaction.sent seq command) := by
  cases reacts with
  | inquires inquires =>
      rw [handle, Handling.perform_of_inquiry inquires]
      rfl
  | initializes => rfl
  | namesNoProgram isLaunch =>
      change ((Handling.launch fuel read seq arguments).run { adapter }).map Prod.snd = _
      rw [Handling.launch, isLaunch]
      rfl
  | loadsNoProgram isLaunch loads =>
      change ((Handling.launch fuel read seq arguments).run { adapter }).map Prod.snd = _
      simp only [Handling.launch, isLaunch, loads]
      rfl
  | @launches launch loaded _ isLaunch loads carried =>
      rw [← carried, ← map_carryOn_sent]
      change ((Handling.launch fuel read seq arguments).run { adapter }).map Prod.snd = _
      simp only [Handling.launch, isLaunch, loads]
      exact congrArg (Option.map Prod.snd) (Handling.run_start fuel adapter.configured _)
  | setsBreakpoints => rfl
  | configures carried =>
      rw [← carried, ← map_carryOn_sent]
      exact congrArg (Option.map Prod.snd) (Handling.run_start fuel adapter.launched _)
  | drives drive carried =>
      rw [← carried, ← map_carryOn_sent]
      cases drive with
      | resume =>
          rw [Drive.arm, Option.map_id]
          exact congrArg (Option.map Prod.snd) (Handling.run_resume fuel _)
      | stepOver | stepInto | stepOut =>
          exact congrArg (Option.map Prod.snd) (Handling.run_resume fuel _)
  | disconnects => rfl

/-- What is left of a request was sent as some reaction to it. -/
theorem exists_reaction_of_handle {fuel seq : Nat} {read : FileReader} {adapter : Adapter}
    {arguments : Option Json} {command : String} {handled : Handled}
    (isHandled : adapter.handle fuel read seq command arguments = some handled) :
    ∃ reaction, Reacts fuel read adapter arguments command (some reaction) ∧
      handled = reaction.sent seq command := by
  obtain ⟨result, reacts⟩ := exists_reacts fuel read adapter command arguments
  rw [reacts.handle_eq] at isHandled
  obtain ⟨reaction, rfl, isSent⟩ := Option.map_eq_some_iff.mp isHandled
  exact ⟨reaction, reacts, isSent.symm⟩

end Adapter

end StackDebugger
