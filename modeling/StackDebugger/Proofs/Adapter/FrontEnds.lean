import StackDebugger.Proofs.Adapter.Handshake
import StackDebugger.Proofs.Adapter.ProgramOutput
import StackDebugger.Proofs.Session.Commands

/-!
# Two front ends, one debugger

A program can be driven by typed commands and by the requests of a client.  From the same
start the two drive it alike: after every command the debuggers are the same, apart from what
was written and from the listing, the client is told of a stop exactly if the program is not
over, and it is told of a failure exactly if the command has failed.
-/

namespace StackDebugger

namespace Drive

def command : Drive → Command
  | .resume => .resume
  | .stepOver => .stepOver
  | .stepInto => .stepInto
  | .stepOut => .stepOut

theorem session_operations (drive : Drive) (fuel : Nat) (debugger : Debugger) :
    debugger.session fuel drive.command.operations =
      ((drive.arm debugger).resume fuel).map fun (outcome, final) => ([outcome], final) := by
  have resumed (armed : Debugger) : armed.session fuel [.resume] =
      (armed.resume fuel).map fun (outcome, final) => ([outcome], final) := by
    rw [Debugger.session]
    cases armed.resume fuel with
    | none => rfl
    | some result => rfl
  cases drive with
  | resume => exact resumed debugger
  | stepOver => exact resumed debugger.armStepOver
  | stepInto => exact resumed debugger.armStepInto
  | stepOut => exact resumed debugger.armStepOut

end Drive

/-- The commands that set breakpoints; there is none without lines. -/
def Command.arming (lines : List Nat) : List Command :=
  if lines.isEmpty then [] else [.setBreakpoints lines]

theorem Debugger.session_setBreakpoints (fuel : Nat) (lines : List Nat) (debugger : Debugger) :
    debugger.session fuel (Command.setBreakpoints lines).operations =
      some ([], lines.foldl setBreakpoint debugger) := by
  induction lines generalizing debugger with
  | nil => rfl
  | cons line lines ih => exact ih (debugger.setBreakpoint line)

namespace Session

/-- Carries out commands one after another, also behind one that fails.  Gives what each of
them has led to. -/
def follow (fuel : Nat) (session : Session) :
    List Command → Option (List SessionResult × Session)
  | [] => some ([], session)
  | command :: rest =>
      match session.dispatch fuel command with
      | none => none
      | some result =>
          (result.2.follow fuel rest).map fun (later, last) => (result :: later, last)

theorem follow_arming (fuel : Nat) (session : Session) (lines : List Nat) :
    ∃ results armed, session.follow fuel (Command.arming lines) = some (results, armed) ∧
      armed.debugger.bare = (lines.foldl Debugger.setBreakpoint session.debugger).bare := by
  unfold Command.arming
  split
  · next empty =>
      obtain rfl := List.isEmpty_iff.mp empty
      exact ⟨[], session, rfl, rfl⟩
  · have carriesOut := dispatch_carriesOut fuel session (.setBreakpoints lines)
    rw [Debugger.session_setBreakpoints] at carriesOut
    rw [follow]
    generalize session.dispatch fuel (.setBreakpoints lines) = result at carriesOut ⊢
    cases carriesOut with
    | @some _ result carried => exact ⟨[result], result.2, rfl, carried.follows.alike⟩

end Session

/-- The text for the client's error console, if the content is a report of such text. -/
def Content.errorText? : Content → Option String
  | .event "output" (some body) =>
      if (body.member? "category").bind Json.string? = some "stderr" then
        (body.member? "output").bind Json.string?
      else none
  | _ => none

namespace Event

def errorTexts (events : List Event) : List String :=
  events.filterMap fun event => (Content.event event.name event.body).errorText?

theorem errorTexts_output (category text : String) (rest : List Event) :
    errorTexts (output category text :: rest) =
      if category = "stderr" then text :: errorTexts rest else errorTexts rest := by
  have content : (Content.event (output category text).name
      (output category text).body).errorText? =
      if category = "stderr" then some text else none := by
    rw [body_output]
    simp [output, Content.errorText?, Json.member?, Json.string?, List.lookup_cons]
  rw [errorTexts, List.filterMap_cons, content]
  by_cases isError : category = "stderr"
  · rw [if_pos isError, if_pos isError]
    rfl
  · rw [if_neg isError, if_neg isError]
    rfl

theorem errorTexts_programOutput (text : String) (rest : List Event) :
    errorTexts (programOutput text ++ rest) = errorTexts rest := by
  unfold programOutput
  split
  · rfl
  · rw [List.singleton_append, errorTexts_output, if_neg (by decide)]

end Event

namespace Adapter

def Exchange.errorTexts (exchange : Exchange) : List String :=
  (exchange.messages.map Message.content).filterMap Content.errorText?

/-- What is said of a command that has failed. -/
def failureTexts : Except Fault Unit → List String
  | .ok _ => []
  | .error fault => [fault.message ++ "\n"]

theorem Ending.stopped_mem_iff {after : Debugger} {outcome : Outcome} {events : List Event}
    (ending : Ending after outcome events) :
    "stopped" ∈ events.map Event.name ↔ after.isDone = false := by
  cases ending with
  | breakpoint line going => simp [Event.stopped, going]
  | step going => simp [Event.stopped, going]
  | halted done => simp [Event.finished, Event.exited, Event.terminated, done]
  | failed fault done =>
      simp [Event.output, Event.finished, Event.exited, Event.terminated, done]

theorem Ending.errorTexts_eq {after : Debugger} {outcome : Outcome} {events : List Event}
    (ending : Ending after outcome events) :
    Event.errorTexts events = failureTexts (Session.verdict [outcome]) := by
  cases ending with
  | breakpoint line going => rfl
  | step going => rfl
  | halted done => rfl
  | failed fault done =>
      rw [Event.errorTexts_output, if_pos rfl]
      rfl

/-- What a command has led to and what a request has led to are the same. -/
structure Agrees (result : SessionResult) (exchange : Exchange) : Prop where
  debugger : exchange.after.debugger.map Debugger.bare = some result.2.debugger.bare
  stopped : "stopped" ∈ exchange.eventNames ↔ result.2.debugger.isDone = false
  failed : exchange.errorTexts = failureTexts result.1

/-- A request has reported the end of a run, and a command has carried out a like run. -/
theorem Exchange.agrees {exchange : Exchange} {answer : Answer} {ending : List Event}
    {ended other : Debugger} {outcome : Outcome} {session : Session} {result : SessionResult}
    (contents : exchange.messages.map Message.content =
      .response exchange.request.seq answer.success exchange.request.command answer.message
        answer.body :: (Event.programOutput ended.deliver.1 ++ ending).map fun event =>
          .event event.name event.body)
    (isAfter : exchange.after.debugger = some ended.deliver.2)
    (isEnding : Ending ended.deliver.2 outcome ending)
    (carried : session.CarriesOut ([outcome], other) result)
    (alike : ended.bare = other.bare) : Agrees result exchange := by
  have same : ended.deliver.2.bare = result.2.debugger.bare := by
    rw [Debugger.bare_deliver, alike, carried.follows.alike]
  refine ⟨?_, ?_, ?_⟩
  · rw [isAfter]
    exact congrArg some same
  · rw [eventNames_of_contents contents, ← List.count_pos_iff,
      Event.count_programOutput (by decide), List.count_pos_iff, isEnding.stopped_mem_iff,
      Debugger.isDone_alike same]
  · have texts : exchange.errorTexts =
        Event.errorTexts (Event.programOutput ended.deliver.1 ++ ending) := by
      rw [Exchange.errorTexts, contents, List.filterMap_cons, List.filterMap_map]
      rfl
    rw [texts, Event.errorTexts_programOutput, isEnding.errorTexts_eq, carried.verdict]

theorem handle_agrees {fuel : Nat} {adapter : Adapter} {request : Request} {drive : Drive}
    {own : Debugger} {session : Session} (isRequest : request.command = drive.request)
    (isOwn : adapter.debugger = some own) (alike : own.bare = session.debugger.bare) :
    Option.Rel
      (fun result handled => Agrees result
        { request, before := adapter, after := handled.adapter, messages := handled.messages })
      (session.dispatch fuel drive.command)
      (adapter.handle fuel request.files request.seq request.command request.arguments) := by
  have carriesOut := Session.dispatch_carriesOut fuel session drive.command
  have sessions := Debugger.session_alike alike fuel drive.command.operations
  rw [drive.session_operations fuel own] at sessions
  generalize session.dispatch fuel drive.command = result at carriesOut ⊢
  generalize session.debugger.session fuel drive.command.operations = other at carriesOut sessions
  have resumed : resumed? request.files adapter request.command request.arguments =
      some (drive.arm own) := by
    rw [isRequest, resumed?_drive, isOwn]
    rfl
  rcases handle_cases fuel adapter request with ⟨debugger, isResumed, stuck, unhandled⟩ |
    ⟨handled, isHandled, -, -, answer, events, -, contents, reports⟩
  · obtain rfl := Option.some.inj (resumed.symm.trans isResumed)
    rw [stuck] at sessions
    cases sessions with
    | none =>
        cases carriesOut with
        | none =>
            rw [unhandled]
            exact .none
  · rw [isHandled]
    rw [resumed] at reports
    cases reports with
    | nothing absent | initialized absent | entry absent => contradiction
    | run isResumed returned isAfter isEnding =>
        obtain rfl := Option.some.inj isResumed
        rw [returned] at sessions
        cases sessions with
        | @some _ other same =>
            obtain ⟨outcomes, other⟩ := other
            obtain ⟨rfl, same⟩ := same
            cases carriesOut with
            | some carried =>
                exact .some (Exchange.agrees contents isAfter isEnding carried same)

theorem follow_agrees {fuel : Nat} {adapter : Adapter} {requests : List Request}
    {drives : List Drive} {own : Debugger} {session : Session}
    (driven : requests.map Request.command = drives.map Drive.request)
    (isOwn : adapter.debugger = some own) (alike : own.bare = session.debugger.bare) :
    Option.Rel (fun followed conversed => List.Forall₂ Agrees followed.1 conversed.1)
      (session.follow fuel (drives.map Drive.command)) (converse fuel adapter requests) := by
  induction drives generalizing adapter requests own session with
  | nil =>
      obtain rfl := List.map_eq_nil_iff.mp driven
      exact .some .nil
  | cons drive drives ih =>
      obtain ⟨request, requests, rfl, isRequest, driven⟩ := List.map_eq_cons_iff.mp driven
      have agrees := @handle_agrees fuel _ _ _ _ _ isRequest isOwn alike
      rw [List.map_cons, Session.follow, converse]
      generalize session.dispatch fuel drive.command = result at agrees ⊢
      generalize adapter.handle fuel request.files request.seq request.command
        request.arguments = handled at agrees ⊢
      cases agrees with
      | none => exact .none
      | @some result handled agrees =>
          obtain ⟨next, isNext, nextAlike⟩ := Option.map_eq_some_iff.mp agrees.debugger
          have later := ih driven isNext nextAlike
          simp only
          generalize result.2.follow fuel (drives.map Drive.command) = followed at later ⊢
          generalize converse fuel handled.adapter requests = conversed at later ⊢
          cases later with
          | none => exact .none
          | some later => exact .some (.cons agrees later)

/-- A handshake about a program that waits at its entry leaves the adapter with the debugger
before its first step, with the breakpoints set. -/
theorem debugger_of_handshake {fuel : Nat} {arguments : Option Json} {files : FileReader}
    {lines : List Nat} {launch : Launch} {loaded : LoadedProgram} {opening : List Request}
    (isLaunch : Launch.ofArguments? arguments = some launch)
    (loads : files.loadProgram .debug launch.program = .ok loaded)
    (waits : launch.stopOnEntry = true) (handshake : Handshake arguments files lines opening) :
    ∃ opened adapter, converse fuel {} opening = some (opened, adapter) ∧
      adapter.debugger = some (launch.debugger files loaded.program lines) := by
  have opens := @Handshake.opens fuel _ _ _ _ _ _ handshake isLaunch loads
  rw [Adapter.opening, if_pos waits] at opens
  generalize converse fuel {} opening = conversation at opens ⊢
  cases opens with
  | @some _ conversation opens =>
      obtain ⟨seq, isAdapter⟩ := opens.adapter
      exact ⟨conversation.1, conversation.2, rfl, congrArg Adapter.debugger isAdapter⟩

/-- Two front ends drive a program alike.  A client launches a program that waits at its entry,
sets breakpoints and is done with its configuration; in a session the same breakpoints are set
in the same program with the same input.  Then both resume it, step over, into and out of
calls, any number of times.  If one of the runs does not return, then neither answers.
Otherwise the debuggers are alike before the first run and after each, the client is told of
a stop exactly where the program is not over, and it is told of a failure, in the same words,
exactly where the command has failed. -/
theorem front_ends_agree {fuel : Nat} {arguments : Option Json} {files : FileReader}
    {lines : List Nat} {launch : Launch} {loaded : LoadedProgram} {opening requests : List Request}
    {drives : List Drive} {session : Session} {source : List String}
    (isLaunch : Launch.ofArguments? arguments = some launch)
    (loads : files.loadProgram .debug launch.program = .ok loaded)
    (waits : launch.stopOnEntry = true) (untraced : launch.trace = false)
    (handshake : Handshake arguments files lines opening)
    (driven : requests.map Request.command = drives.map Drive.request)
    (initial : session.debugger = (Debugger.create loaded.program source
      (Terminal.ofBytes (Utf8.encode launch.input.toList))).reset) :
    ∃ opened adapter results armed,
      converse fuel {} opening = some (opened, adapter) ∧
      session.follow fuel (Command.arming lines) = some (results, armed) ∧
      adapter.debugger.map Debugger.bare = some armed.debugger.bare ∧
      Option.Rel (fun followed conversed => List.Forall₂ Agrees followed.1 conversed.1)
        (armed.follow fuel (drives.map Drive.command)) (converse fuel adapter requests) := by
  obtain ⟨opened, adapter, conversed, isDebugger⟩ :=
    @debugger_of_handshake fuel _ _ _ _ _ _ isLaunch loads waits handshake
  obtain ⟨results, armed, followed, isArmed⟩ := session.follow_arming fuel lines
  have alike : (launch.debugger files loaded.program lines).bare = armed.debugger.bare := by
    rw [isArmed, initial, Launch.debugger, Debugger.foldl_setBreakpoint,
      Debugger.foldl_setBreakpoint, untraced]
    rfl
  refine ⟨opened, adapter, results, armed, conversed, followed, ?_,
    follow_agrees driven isDebugger alike⟩
  rw [isDebugger]
  exact congrArg some alike

/-- A program that reads a number, stops at a breakpoint, fails in a step and is resumed once
more. -/
theorem front_ends_agree_division :
    let files : FileReader := fun _ =>
      .ok (Utf8.encode "LINE 1\nREAD\nWRITE\nLINE 2\nLIT 1\nLIT 0\nBOP /\n".toList)
    let arguments : Option Json :=
      some (.ofMembers [("program", .string "divide.x.cod"), ("input", .string "x\n5\n6\n")])
    let opening : List Request :=
      [{ seq := 1, command := "launch", files, arguments },
        { seq := 2, command := "setBreakpoints", files,
          arguments := some (.ofMembers [("breakpoints", .array
            [.ofMembers [("line", .nat 2)], .ofMembers [("line", .nat 9)]])]) },
        { seq := 3, command := "configurationDone", files }]
    let requests : List Request :=
      [{ seq := 4, command := "continue", files }, { seq := 5, command := "next", files },
        { seq := 6, command := "continue", files }]
    ∃ (loaded : LoadedProgram) (opened : List Exchange) (adapter : Adapter)
      (results : List SessionResult) (armed : Session),
      let session : Session :=
        { debugger := (Debugger.create loaded.program ["read x", "1 / 0"]
            (Terminal.ofBytes (Utf8.encode "x\n5\n6\n".toList))).reset
          screen := some "" }
      converse 20 {} opening = some (opened, adapter) ∧
      session.follow 20 (Command.arming [2, 9]) = some (results, armed) ∧
      adapter.debugger.map Debugger.bare = some armed.debugger.bare ∧
      Option.Rel (fun followed conversed => List.Forall₂ Agrees followed.1 conversed.1)
        (armed.follow 20 [.resume, .stepOver, .resume]) (converse 20 adapter requests) ∧
      (converse 20 adapter requests).map (fun conversed =>
          conversed.1.map fun exchange => (exchange.eventNames, exchange.errorTexts)) =
        some [(["output", "stopped"], []),
          (["output", "exited", "terminated"], ["division by zero\n"]),
          (["exited", "terminated"], [])] := by
  intro files arguments opening requests
  have launches : ((Launch.ofArguments? arguments).bind fun launch =>
      (files.loadProgram .debug launch.program).toOption.map fun _ =>
        (launch.stopOnEntry, launch.trace, launch.input)) =
      some (true, false, "x\n5\n6\n") := by
    decide +kernel
  obtain ⟨launch, isLaunch, isLoaded⟩ := Option.bind_eq_some_iff.mp launches
  obtain ⟨loaded, isProgram, isAsked⟩ := Option.map_eq_some_iff.mp isLoaded
  simp only [Prod.mk.injEq] at isAsked
  have loads : files.loadProgram .debug launch.program = .ok loaded := by
    cases result : files.loadProgram .debug launch.program with
    | error error => simp [result, Except.toOption] at isProgram
    | ok program => simpa [result, Except.toOption] using isProgram
  have handshake : Handshake arguments files [2, 9] opening :=
    @Handshake.launchedFirst arguments files [2, 9] [] [_] _ _ ⟨rfl, rfl, rfl⟩ rfl
      ⟨by simp, by decide +kernel⟩
  have driven : requests.map Request.command =
      [Drive.resume, Drive.stepOver, Drive.resume].map Drive.request := rfl
  have checked : ((converse 20 {} opening).bind fun opened =>
      (converse 20 opened.2 requests).map fun conversed =>
        conversed.1.map fun exchange => (exchange.eventNames, exchange.errorTexts)) =
      some [(["output", "stopped"], []),
        (["output", "exited", "terminated"], ["division by zero\n"]),
        (["exited", "terminated"], [])] := by
    decide +kernel
  let session : Session :=
    { debugger := (Debugger.create loaded.program ["read x", "1 / 0"]
        (Terminal.ofBytes (Utf8.encode "x\n5\n6\n".toList))).reset
      screen := some "" }
  obtain ⟨opened, adapter, results, armed, conversed, followed, alike, agree⟩ :=
    @front_ends_agree 20 _ _ _ _ _ _ _ _ session ["read x", "1 / 0"] isLaunch loads isAsked.1
      isAsked.2.1 handshake driven (by rw [isAsked.2.2])
  rw [conversed] at checked
  exact ⟨loaded, opened, adapter, results, armed, conversed, followed, alike, agree, checked⟩

end Adapter

end StackDebugger
