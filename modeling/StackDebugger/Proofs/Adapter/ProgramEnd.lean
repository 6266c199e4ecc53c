import StackDebugger.Proofs.Adapter.Handshake
import StackDebugger.Proofs.Adapter.ProgramOutput

/-!
# The end of a program

A program that is over stays so, and a client that leaves it alone is told of its end once.
But a request to resume it is not refused: the end is reported again, and as the end of a
program that did not fail, whatever was reported before.
-/

namespace StackDebugger

/-- How an event is sent, apart from its number. -/
def Event.report (event : Event) : String × Content :=
  ("event", .event event.name event.body)

/-- Whether the content says that a program was launched. -/
def Content.isLaunched : Content → Bool
  | .response _ true "launch" _ _ => true
  | _ => false

def Content.exitCode? : Content → Option Nat
  | .event "exited" (some body) => (body.member? "exitCode").bind Json.nat?
  | _ => none

namespace Adapter

/-- The current program is over, and all that it wrote was sent. -/
def IsOver (adapter : Adapter) : Prop :=
  ∃ debugger, adapter.debugger = some debugger ∧ debugger.isDone = true ∧
    debugger.state.terminal.pending = ""

/-- What a request reports when the current program is over. -/
def endedEvents (adapter : Adapter) (command : String) : List Event :=
  match command with
  | "initialize" => [Event.initialized]
  | "configurationDone" =>
      if adapter.launched then
        if adapter.stopOnEntry then [Event.stopped "entry"] else Event.finished 0
      else []
  | "continue" | "next" | "stepIn" | "stepOut" => Event.finished 0
  | _ => []

theorem runReport_of_isDone {debugger : Debugger} (done : debugger.isDone = true)
    (empty : debugger.state.terminal.pending = "") (fuel : Nat) :
    runReport fuel (some debugger) = some (Event.finished 0, some debugger) := by
  simp only [runReport, Debugger.resume_of_done done, Option.map_some,
    Debugger.deliver_of_empty empty]
  rfl

theorem startReport_of_isDone {debugger : Debugger} (done : debugger.isDone = true)
    (empty : debugger.state.terminal.pending = "") (fuel : Nat) (ready stopOnEntry : Bool) :
    startReport fuel ready stopOnEntry (some debugger) =
      some (if ready then
          if stopOnEntry then [Event.stopped "entry"] else Event.finished 0
        else [], some debugger) := by
  rw [startReport, runReport_of_isDone done empty]
  split
  · split
    · rfl
    · rfl
  · rfl

theorem endedEvents_of_inquiry {command : String} (inquires : command ∉ actions)
    (adapter : Adapter) : endedEvents adapter command = [] := by
  unfold endedEvents
  split
  all_goals first | exact absurd (by decide) inquires | rfl

theorem endedEvents_drive (adapter : Adapter) (drive : Drive) :
    endedEvents adapter drive.request = Event.finished 0 := by
  cases drive with
  | resume | stepOver | stepInto | stepOut => rfl

/-- Arming a step does not bring a program back. -/
theorem isDone_arm (drive : Drive) (debugger : Debugger) :
    (drive.arm debugger).isDone = debugger.isDone ∧
      (drive.arm debugger).state.terminal = debugger.state.terminal := by
  cases drive with
  | resume | stepOver | stepInto | stepOut => exact ⟨rfl, rfl⟩

/-- A request that launches nothing leaves the program over. -/
theorem Reacts.isOver {fuel : Nat} {read : FileReader} {adapter : Adapter} {command : String}
    {arguments : Option Json} {reaction : Reaction} (isOver : adapter.IsOver)
    (unlaunched : (control read adapter command arguments).launched = none)
    (reacts : Reacts fuel read adapter arguments command (some reaction)) :
    reaction.events = endedEvents adapter command ∧ reaction.adapter.IsOver := by
  obtain ⟨debugger, isDebugger, done, empty⟩ := isOver
  cases reacts with
  | inquires inquires =>
      exact ⟨(endedEvents_of_inquiry inquires adapter).symm, debugger, isDebugger, done, empty⟩
  | initializes | namesNoProgram | loadsNoProgram =>
      exact ⟨rfl, debugger, isDebugger, done, empty⟩
  | launches isLaunch loads => simp [control, isLaunch, loads] at unlaunched
  | setsBreakpoints =>
      refine ⟨rfl, ?_⟩
      simp only [replaceBreakpoints, isDebugger]
      refine ⟨_, rfl, ?_⟩
      rw [Debugger.foldl_setBreakpoint]
      exact ⟨done, empty⟩
  | configures carried =>
      rw [isDebugger, startReport_of_isDone done empty] at carried
      obtain rfl := Option.some.inj carried
      exact ⟨rfl, debugger, rfl, done, empty⟩
  | drives drive carried =>
      obtain ⟨sameDone, sameTerminal⟩ := isDone_arm drive debugger
      have stillDone := sameDone.trans done
      have stillEmpty := (congrArg Terminal.pending sameTerminal).trans empty
      rw [isDebugger, Option.map_some, runReport_of_isDone stillDone stillEmpty] at carried
      obtain rfl := Option.some.inj carried
      exact ⟨(endedEvents_drive adapter drive).symm, _, rfl, stillDone, stillEmpty⟩
  | disconnects => exact ⟨rfl, debugger.turnOff, congrArg (Option.map _) isDebugger, rfl, empty⟩

/-- What a request has led to, and what was sent of it. -/
structure Exchange.Shows (exchange : Exchange) (reaction : Reaction) : Prop where
  debugger : exchange.after.debugger = reaction.adapter.debugger
  response : ∃ message ∈ exchange.messages, message.content =
    .response exchange.request.seq reaction.answer.success exchange.request.command
      reaction.answer.message reaction.answer.body
  reports : exchange.reports = reaction.events.map Event.report
  eventNames : exchange.eventNames = reaction.events.map Event.name

theorem Exchange.IsHandled.exists_reaction {fuel : Nat} {exchange : Exchange}
    (isHandled : exchange.IsHandled fuel) :
    ∃ reaction, Reacts fuel exchange.request.files exchange.before exchange.request.arguments
        exchange.request.command (some reaction) ∧ exchange.Shows reaction := by
  obtain ⟨request, before, after, messages⟩ := exchange
  obtain ⟨connected, isHandled⟩ := isHandled
  simp only at isHandled ⊢
  obtain ⟨reaction, reacts, isSent⟩ := exists_reaction_of_handle isHandled
  obtain ⟨rfl, rfl, -⟩ := Handled.mk.inj isSent
  refine ⟨reaction, reacts, rfl, ⟨_, List.mem_cons_self, rfl⟩, ?_, ?_⟩
  · exact map_eventMessages Prod.mk _ reaction.events
  · apply eventNames_of_contents
    rw [List.map_cons, map_content_eventMessages]

theorem IsOver.exchange {fuel : Nat} {exchange : Exchange} (isOver : exchange.before.IsOver)
    (isHandled : exchange.IsHandled fuel) (unlaunched : exchange.control.launched = none) :
    exchange.reports =
        (endedEvents exchange.before exchange.request.command).map Event.report ∧
      exchange.eventNames =
        (endedEvents exchange.before exchange.request.command).map Event.name ∧
      exchange.after.IsOver := by
  obtain ⟨reaction, reacts, shows⟩ := isHandled.exists_reaction
  obtain ⟨events, stillOver⟩ := reacts.isOver isOver unlaunched
  rw [← events]
  refine ⟨shows.reports, shows.eventNames, ?_⟩
  rw [IsOver, shows.debugger]
  exact stillOver

/-- While nothing is launched, every request finds the program over. -/
theorem IsOver.converse {fuel : Nat} {adapter last : Adapter} {requests : List Request}
    {exchanges : List Exchange} (isOver : adapter.IsOver)
    (conversed : converse fuel adapter requests = some (exchanges, last))
    (unlaunched : ∀ exchange ∈ exchanges, exchange.control.launched = none) :
    ∀ exchange ∈ exchanges,
      exchange.reports =
          (endedEvents exchange.before exchange.request.command).map Event.report ∧
        exchange.eventNames =
          (endedEvents exchange.before exchange.request.command).map Event.name := by
  induction requests generalizing adapter exchanges with
  | nil =>
      obtain ⟨rfl, rfl⟩ := Prod.mk.inj (Option.some.inj conversed)
      simp
  | cons request requests ih =>
      obtain ⟨exchange, later, rfl, isHandled, -, rfl, isLater⟩ := converse_cons conversed
      have ⟨first, others⟩ := List.forall_mem_cons.mp unlaunched
      obtain ⟨reports, names, stillOver⟩ := isOver.exchange isHandled first
      exact List.forall_mem_cons.mpr ⟨⟨reports, names⟩, ih stillOver isLater others⟩

theorem Reacts.success_of_launched {fuel : Nat} {read : FileReader} {adapter : Adapter}
    {command : String} {arguments : Option Json} {start : Debugger} {reaction : Reaction}
    (launched : (control read adapter command arguments).launched = some start)
    (reacts : Reacts fuel read adapter arguments command (some reaction)) :
    command = "launch" ∧ reaction.answer.success = true := by
  cases reacts with
  | inquires inquires => simp [control_of_inquiry inquires] at launched
  | namesNoProgram isLaunch => simp [control, isLaunch] at launched
  | loadsNoProgram isLaunch loads => simp [control, isLaunch, loads] at launched
  | launches isLaunch loads carried =>
      obtain ⟨_, -, rfl⟩ := Option.map_eq_some_iff.mp carried
      exact ⟨rfl, rfl⟩
  | drives drive =>
      cases drive with
      | resume | stepOver | stepInto | stepOut => contradiction
  | initializes | setsBreakpoints | configures | disconnects => contradiction

theorem Exchange.IsHandled.launched_mem {fuel : Nat} {exchange : Exchange} {start : Debugger}
    (isHandled : exchange.IsHandled fuel) (launched : exchange.control.launched = some start) :
    ∃ message ∈ exchange.messages, message.content.isLaunched = true := by
  obtain ⟨reaction, reacts, shows⟩ := isHandled.exists_reaction
  obtain ⟨isLaunch, success⟩ := reacts.success_of_launched launched
  obtain ⟨message, member, content⟩ := shows.response
  refine ⟨message, member, ?_⟩
  rw [content, isLaunch, success]
  rfl

/-- There is no program without a launch. -/
theorem exists_launched {fuel : Nat} {last : Adapter} {requests : List Request}
    {exchanges : List Exchange} (conversed : converse fuel {} requests = some (exchanges, last))
    (present : last.debugger ≠ none) :
    ∃ exchange ∈ exchanges, exchange.control.launched ≠ none := by
  by_contra absent
  have unlaunched : ∀ exchange ∈ exchanges, exchange.control.launched = none := by
    simpa using absent
  have settled : Settled {} := by
    intro debugger isDebugger
    contradiction
  have accounts := accounts_converse settled conversed unlaunched
  generalize last.debugger = debugger at accounts present
  generalize programText exchanges = text at accounts
  cases accounts with
  | absent => exact present rfl

theorem Ending.eq_ofOutcome {after : Debugger} {outcome : Outcome} {events : List Event}
    (ending : Ending after outcome events) :
    events = Event.ofOutcome outcome ∧ after.isDone = outcome.ending?.isSome := by
  cases ending with
  | breakpoint line going => exact ⟨rfl, going⟩
  | step going => exact ⟨rfl, going⟩
  | halted done => exact ⟨rfl, done⟩
  | failed fault done => exact ⟨rfl, done⟩

/-- The events of an exchange tell of the end of a program. -/
structure Exchange.ReportsEnd (exchange : Exchange) (text : String) (outcome : Outcome) : Prop where
  ended : outcome.ending?.isSome = true
  reports : exchange.reports =
    (Event.programOutput text ++ Event.ofOutcome outcome).map Event.report

theorem count_ofOutcome (outcome : Outcome) :
    ((Event.ofOutcome outcome).map Event.name).count "exited" =
        (if outcome.ending?.isSome then 1 else 0) ∧
      ((Event.ofOutcome outcome).map Event.name).count "terminated" =
        (if outcome.ending?.isSome then 1 else 0) := by
  match outcome with
  | .ok (.breakpoint line) => exact ⟨rfl, rfl⟩
  | .ok .step => exact ⟨rfl, rfl⟩
  | .ok .halted => exact ⟨rfl, rfl⟩
  | .error fault => exact ⟨rfl, rfl⟩

/-- An exchange tells of the end of a program with an exit and a termination, or with
neither. -/
theorem Exchange.IsHandled.end_cases {fuel : Nat} {exchange : Exchange}
    (isHandled : exchange.IsHandled fuel) :
    (exchange.eventNames.count "exited" = 0 ∧ exchange.eventNames.count "terminated" = 0) ∨
    (exchange.eventNames.count "exited" = 1 ∧ exchange.eventNames.count "terminated" = 1 ∧
      exchange.after.IsOver ∧ ∃ text outcome, exchange.ReportsEnd text outcome) := by
  obtain ⟨reaction, reacts, shows⟩ := isHandled.exists_reaction
  have performs := reacts.performs
  rw [shows.eventNames, IsOver, shows.debugger]
  obtain ⟨adapter, answer, events, connected⟩ := reaction
  cases performs with
  | reports _ reports =>
      change Reports fuel _ adapter.debugger events at reports
      cases reports with
      | nothing | initialized | entry => exact .inl ⟨rfl, rfl⟩
      | @run _ ended outcome ending _ _ isAfter isEnding =>
          obtain ⟨rfl, done⟩ := isEnding.eq_ofOutcome
          have ⟨exits, terminations⟩ := count_ofOutcome outcome
          simp only [Event.count_programOutput, exits, terminations, ne_eq, String.reduceEq,
            not_false_eq_true]
          cases ends : outcome.ending?.isSome with
          | false => exact .inl ⟨rfl, rfl⟩
          | true =>
              exact .inr ⟨rfl, rfl, ⟨_, isAfter, done.trans ends, rfl⟩, _, outcome, ends,
                shows.reports⟩

/-- The requests that report something of a program that is over. -/
def resumptions : List String :=
  ["continue", "next", "stepIn", "stepOut", "configurationDone"]

theorem endedEvents_of_not_mem {command : String} (other : command ∉ resumptions)
    (adapter : Adapter) :
    ∀ event ∈ endedEvents adapter command, event.name = "initialized" := by
  unfold endedEvents
  split
  · intro event member
    rw [List.mem_singleton.mp member]
    rfl
  all_goals first | exact absurd (by decide) other | simp

theorem Exchange.IsHandled.not_exited_of_not_terminated {fuel : Nat} {exchange : Exchange}
    (isHandled : exchange.IsHandled fuel) (absent : "terminated" ∉ exchange.eventNames) :
    "exited" ∉ exchange.eventNames := by
  rcases isHandled.end_cases with ⟨exits, -⟩ | ⟨-, terminations, -⟩
  · exact List.count_eq_zero.mp exits
  · rw [List.count_eq_zero.mpr absent] at terminations
    contradiction

/-- If only one launch has succeeded, then none does behind a request that has left a
program. -/
theorem unlaunched_of_single {fuel : Nat} {middle last : Adapter} {first later : List Exchange}
    {requests others : List Request}
    (isFirst : converse fuel {} requests = some (first, middle))
    (present : middle.debugger ≠ none)
    (isLater : converse fuel middle others = some (later, last))
    (single : ((first ++ later).flatMap Exchange.messages).countP
      (fun message => message.content.isLaunched) ≤ 1) :
    ∀ exchange ∈ later, exchange.control.launched = none := by
  have sent {exchanges : List Exchange} {exchange : Exchange} (member : exchange ∈ exchanges)
      (isHandled : exchange.IsHandled fuel) (launched : exchange.control.launched ≠ none) :
      0 < (exchanges.flatMap Exchange.messages).countP
        (fun message => message.content.isLaunched) := by
    obtain ⟨start, isStart⟩ := Option.ne_none_iff_exists'.mp launched
    obtain ⟨message, isSent, isLaunched⟩ := isHandled.launched_mem isStart
    exact List.countP_pos_iff.mpr
      ⟨message, List.mem_flatMap.mpr ⟨exchange, member, isSent⟩, isLaunched⟩
  obtain ⟨launching, member, launched⟩ := exists_launched isFirst present
  have once := sent member (isHandled_of_converse isFirst launching member) launched
  intro exchange isMember
  by_contra launchedAgain
  have again := sent isMember (isHandled_of_converse isLater exchange isMember) launchedAgain
  rw [List.flatMap_append, List.countP_append] at single
  omega

theorem count_eventNames {name : String} {exchanges : List Exchange}
    (absent : ∀ exchange ∈ exchanges, name ∉ exchange.eventNames) :
    (exchanges.flatMap Exchange.eventNames).count name = 0 := by
  apply List.count_eq_zero.mpr
  intro member
  obtain ⟨exchange, isMember, named⟩ := List.mem_flatMap.mp member
  exact absent exchange isMember named

/-- The end of a program is reported again whenever the client tries to resume it.  In a
conversation with one successful launch at most, take the first exchange in which the client
is told that the program is terminated.  Before it there is no exit either, and it reports
the end of the run, with the exit code of its outcome.  Behind it every request to continue or
to step reports an exit with code zero and a termination, also if the program has failed, and
the end of the configuration reports this or a stop at the entry.  A client that makes no such
request behind the end is told of one exit and one termination, and of no stop and no output
any more. -/
theorem end_reported_again {fuel : Nat} {requests : List Request} {earlier later : List Exchange}
    {ending : Exchange} {last : Adapter}
    (conversed : converse fuel {} requests = some (earlier ++ ending :: later, last))
    (single : ((earlier ++ ending :: later).flatMap Exchange.messages).countP
      (fun message => message.content.isLaunched) ≤ 1)
    (before : ∀ exchange ∈ earlier, "terminated" ∉ exchange.eventNames)
    (ends : "terminated" ∈ ending.eventNames) :
    (∀ exchange ∈ earlier, "exited" ∉ exchange.eventNames) ∧
    (∃ text outcome, ending.ReportsEnd text outcome) ∧
    (∀ exchange ∈ later, exchange.reports =
      (endedEvents exchange.before exchange.request.command).map Event.report) ∧
    ((∀ exchange ∈ later, exchange.request.command ∉ resumptions) →
      ((earlier ++ ending :: later).flatMap Exchange.eventNames).count "exited" = 1 ∧
      ((earlier ++ ending :: later).flatMap Exchange.eventNames).count "terminated" = 1 ∧
      ∀ exchange ∈ later, ∀ name ∈ exchange.eventNames, name = "initialized") := by
  have handled := isHandled_of_converse conversed
  have exited : ∀ exchange ∈ earlier, "exited" ∉ exchange.eventNames := fun exchange member =>
    (handled exchange (List.mem_append_left _ member)).not_exited_of_not_terminated
      (before exchange member)
  rcases (handled ending (List.mem_append_right _ List.mem_cons_self)).end_cases with
    ⟨-, absent⟩ | ⟨exits, terminations, isOver, isReported⟩
  · exact absurd ends (List.count_eq_zero.mp absent)
  rw [List.append_cons] at conversed single ⊢
  obtain ⟨middle, isFirst, isLater, isMiddle⟩ := converse_split conversed
  obtain rfl : ending.after = middle := by
    simpa using isMiddle (List.append_ne_nil_of_right_ne_nil _ (List.cons_ne_nil _ _))
  have present : ending.after.debugger ≠ none := by
    obtain ⟨debugger, isDebugger, -⟩ := isOver
    rw [isDebugger]
    exact Option.some_ne_none _
  have unlaunched := unlaunched_of_single isFirst present isLater single
  have repeats := isOver.converse isLater unlaunched
  refine ⟨exited, isReported, fun exchange member => (repeats exchange member).1, ?_⟩
  intro leaves
  have initialized : ∀ exchange ∈ later, ∀ name ∈ exchange.eventNames, name = "initialized" := by
    intro exchange member name named
    rw [(repeats exchange member).2] at named
    obtain ⟨event, isEvent, rfl⟩ := List.mem_map.mp named
    exact endedEvents_of_not_mem (leaves exchange member) _ event isEvent
  have silent {name : String} (other : name ≠ "initialized") :
      ∀ exchange ∈ later, name ∉ exchange.eventNames :=
    fun exchange member named => other (initialized exchange member name named)
  simp only [List.flatMap_append, List.flatMap_cons, List.flatMap_nil, List.append_nil,
    List.count_append, exits, terminations, count_eventNames exited, count_eventNames before]
  refine ⟨?_, ?_, initialized⟩
  · rw [count_eventNames (silent (by decide))]
  · rw [count_eventNames (silent (by decide))]

/-- A program that fails is continued, and then its threads are asked for. -/
theorem end_reported_again_division :
    let files : FileReader := fun _ =>
      .ok (Utf8.encode "LIT 7\nWRITE\nLIT 1\nLIT 0\nBOP /\n".toList)
    let requests : List Request :=
      [{ seq := 1, command := "configurationDone", files },
        { seq := 2, command := "launch", files,
          arguments := some (.ofMembers
            [("program", .string "divide.x.cod"), ("stopOnEntry", .bool false)]) },
        { seq := 3, command := "continue", files },
        { seq := 4, command := "threads", files }]
    ∃ configuring launching continuing asking last,
      converse 20 {} requests = some ([configuring, launching, continuing, asking], last) ∧
      "exited" ∉ configuring.eventNames ∧
      (∃ text outcome, launching.ReportsEnd text outcome) ∧
      launching.eventNames = ["output", "output", "exited", "terminated"] ∧
      continuing.reports = (Event.finished 0).map Event.report ∧
      asking.reports = [] := by
  intro files requests
  have checked : (converse 20 {} requests).map (fun conversation =>
      conversation.1.map fun exchange =>
        (exchange.request.command, exchange.eventNames,
          exchange.messages.countP fun message => message.content.isLaunched)) =
      some [("configurationDone", [], 0),
        ("launch", ["output", "output", "exited", "terminated"], 1),
        ("continue", ["exited", "terminated"], 0), ("threads", [], 0)] := by
    decide +kernel
  obtain ⟨⟨exchanges, last⟩, conversed, seen⟩ := Option.map_eq_some_iff.mp checked
  obtain ⟨configuring, _, rfl, isConfiguring, seen⟩ := List.map_eq_cons_iff.mp seen
  obtain ⟨launching, _, rfl, isLaunching, seen⟩ := List.map_eq_cons_iff.mp seen
  obtain ⟨continuing, _, rfl, isContinuing, seen⟩ := List.map_eq_cons_iff.mp seen
  obtain ⟨asking, _, rfl, isAsking, seen⟩ := List.map_eq_cons_iff.mp seen
  obtain rfl := List.map_eq_nil_iff.mp seen
  simp only [Prod.mk.injEq] at isConfiguring isLaunching isContinuing isAsking
  have single : (([configuring] ++ launching :: [continuing, asking]).flatMap
      Exchange.messages).countP (fun message => message.content.isLaunched) ≤ 1 := by
    simp [isConfiguring, isLaunching, isContinuing, isAsking]
  obtain ⟨exited, isReported, repeats, -⟩ := @end_reported_again 20 requests [configuring]
    [continuing, asking] launching last conversed single (by simp [isConfiguring])
    (by simp [isLaunching])
  have continued := repeats continuing (by simp)
  have asked := repeats asking (by simp)
  rw [isContinuing.1] at continued
  rw [isAsking.1] at asked
  exact ⟨configuring, launching, continuing, asking, last, conversed,
    exited configuring (by simp), isReported, isLaunching.2.1, continued, asked⟩

/-- A program is launched once and fails.  When it is continued, the client is told of a
second exit, with another code, and of a second termination. -/
theorem failed_program_exits_twice :
    let files : FileReader := fun _ => .ok (Utf8.encode "LIT 1\nLIT 0\nBOP /\n".toList)
    let requests : List Request :=
      [{ seq := 1, command := "launch", files,
          arguments := some (.ofMembers
            [("program", .string "p.cod"), ("stopOnEntry", .bool false)]) },
        { seq := 2, command := "configurationDone", files },
        { seq := 3, command := "continue", files }]
    (converse 20 {} requests).map (fun conversation =>
        (((conversation.1.flatMap Exchange.messages).countP fun message =>
            message.content.isLaunched),
          (conversation.1.flatMap Exchange.messages).filterMap fun message =>
            message.content.exitCode?,
          conversation.1.flatMap Exchange.eventNames)) =
      some (1, [1, 0], ["output", "exited", "terminated", "exited", "terminated"]) := by
  decide +kernel

end Adapter

end StackDebugger
