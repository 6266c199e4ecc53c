import StackDebugger.Proofs.Adapter.Conversation
import StackDebugger.Proofs.Debugger.BreakpointStops
import StackDebugger.Proofs.Debugger.Delivery

/-!
# All output is sent

Whatever a program writes is sent to the client, once and in order, while the program is
the current one, and nothing is kept back when a request has been handled.  What a request
does to the current program is a list of operations.  The output that was sent since the
launch is compared with a session of all these operations in which the output is never
taken away.
-/

namespace StackDebugger

/-- The text that a program has written, if the content is a report of such text. -/
def Content.programText? : Content → Option String
  | .event "output" (some body) =>
      if (body.member? "category").bind Json.string? = some "stdout" then
        (body.member? "output").bind Json.string?
      else none
  | _ => none

namespace Event

/-- The program's text in the reports of events. -/
def programText (events : List Event) : String :=
  String.join (events.filterMap fun event => (Content.event event.name event.body).programText?)

@[simp] theorem programText_nil : programText [] = "" := rfl

theorem programText_append (first second : List Event) :
    programText (first ++ second) = programText first ++ programText second := by
  rw [programText, List.filterMap_append, String.join_append]
  rfl

theorem body_output (category text : String) :
    (output category text).body =
      some (.object [("category", .string category), ("output", .string text)]) := by
  have later : ¬ "output" < "category" := by decide
  simp [output, Json.ofMembers, Dictionary.ofPairs, Dictionary.insert, later]

theorem programText_output (category text : String) (rest : List Event) :
    programText (output category text :: rest) =
      if category = "stdout" then text ++ programText rest else programText rest := by
  have content : (Content.event (output category text).name
      (output category text).body).programText? =
      if category = "stdout" then some text else none := by
    rw [body_output]
    simp [output, Content.programText?, Json.member?, Json.string?, List.lookup_cons]
  rw [programText, List.filterMap_cons, content]
  by_cases isStdout : category = "stdout"
  · rw [if_pos isStdout, if_pos isStdout]
    simp [programText]
  · rw [if_neg isStdout, if_neg isStdout]
    rfl

theorem programText_programOutput (text : String) : programText (programOutput text) = text := by
  unfold programOutput
  split
  · next empty =>
      rw [programText_nil]
      exact (String.isEmpty_iff.mp empty).symm
  · rw [programText_output, if_pos rfl, programText_nil, String.append_empty]

theorem count_programOutput {other : String} (different : other ≠ "output") (text : String)
    (rest : List Event) :
    ((programOutput text ++ rest).map name).count other = (rest.map name).count other := by
  unfold programOutput
  split
  · rfl
  · rw [List.singleton_append, List.map_cons, List.count_cons_of_ne]
    exact different.symm

theorem programText_ofOutcome (outcome : Outcome) : programText (ofOutcome outcome) = "" := by
  match outcome with
  | .ok (.breakpoint line) => rfl
  | .ok .step => rfl
  | .ok .halted => rfl
  | .error fault => exact programText_output "stderr" (fault.message ++ "\n") (finished 1)

end Event

namespace Adapter

/-- What a request does to a debugger: the one that it launches, or else the current one. -/
structure Control where
  launched : Option Debugger := none
  operations : List Operation := []

/-- A program that waits at its entry is not run. -/
def startOperations (stopOnEntry : Bool) : List Operation :=
  if stopOnEntry then [] else [.resume]

def control (read : FileReader) (adapter : Adapter) (command : String)
    (arguments : Option Json) : Control :=
  match command with
  | "launch" =>
      match Launch.ofArguments? arguments with
      | none => {}
      | some launch =>
          match read.loadProgram .debug launch.program with
          | .error _ => {}
          | .ok loaded =>
              { launched := some (launch.debugger read loaded.program adapter.requested)
                operations :=
                  if adapter.configured then startOperations launch.stopOnEntry else [] }
  | "setBreakpoints" =>
      { operations := .adjust .clearBreakpoints ::
          (requestedLines arguments).map fun line => .adjust (.setBreakpoint line) }
  | "configurationDone" =>
      { operations := if adapter.launched then startOperations adapter.stopOnEntry else [] }
  | "continue" => { operations := [.resume] }
  | "next" => { operations := [.adjust .armStepOver, .resume] }
  | "stepIn" => { operations := [.adjust .armStepInto, .resume] }
  | "stepOut" => { operations := [.adjust .armStepOut, .resume] }
  | "disconnect" => { operations := [.adjust .turnOff] }
  | _ => {}

/-- Nothing that the program wrote is kept back. -/
def Settled (adapter : Adapter) : Prop :=
  ∀ debugger, adapter.debugger = some debugger → debugger.state.terminal.pending = ""

/-- Operations were carried out on a program, if there is one, and then its output was
delivered. -/
inductive Delivers (fuel : Nat) (operations : List Operation) :
    Option Debugger → Option Debugger → String → Prop where
  | absent : Delivers fuel operations none none ""
  | present {before ended : Debugger} {outcomes : List Outcome} :
      before.session fuel operations = some (outcomes, ended) →
      Delivers fuel operations (some before) (some ended.deliver.2) ended.deliver.1

namespace Delivers

variable {fuel : Nat} {operations : List Operation} {before after : Option Debugger}
  {text : String}

theorem adjust {adjustment : Adjustment}
    (delivers : Delivers fuel operations (before.map adjustment.apply) after text) :
    Delivers fuel (.adjust adjustment :: operations) before after text := by
  cases before with
  | none =>
      cases delivers with
      | absent => exact .absent
  | some before =>
      cases delivers with
      | present ended => exact .present ended

/-- A program that is left alone has nothing to deliver, unless it had before. -/
theorem idle (settled : ∀ debugger, before = some debugger → debugger.state.terminal.pending = "") :
    Delivers fuel [] before before "" := by
  cases before with
  | none => exact .absent
  | some debugger =>
      have delivers := @Delivers.present fuel [] debugger debugger [] rfl
      rw [Debugger.deliver_of_empty (settled debugger rfl)] at delivers
      exact delivers

theorem run {events : List Event} (reported : runReport fuel before = some (events, after)) :
    Delivers fuel [.resume] before after (Event.programText events) := by
  cases before with
  | none =>
      obtain ⟨rfl, rfl⟩ := Prod.mk.inj (Option.some.inj reported)
      exact .absent
  | some debugger =>
      obtain ⟨⟨outcome, ended⟩, isEnded, equal⟩ := Option.map_eq_some_iff.mp reported
      obtain ⟨rfl, rfl⟩ := Prod.mk.inj equal
      rw [Event.programText_append, Event.programText_programOutput,
        Event.programText_ofOutcome, String.append_empty]
      apply Delivers.present
      simp [Debugger.session, isEnded]
      rfl

theorem start {ready stopOnEntry : Bool} {events : List Event}
    (settled : ∀ debugger, before = some debugger → debugger.state.terminal.pending = "")
    (reported : startReport fuel ready stopOnEntry before = some (events, after)) :
    Delivers fuel (if ready then startOperations stopOnEntry else []) before after
      (Event.programText events) := by
  unfold startReport at reported
  unfold startOperations
  cases ready with
  | false =>
      obtain ⟨rfl, rfl⟩ := Prod.mk.inj (Option.some.inj reported)
      exact idle settled
  | true =>
      cases stopOnEntry with
      | false => exact run reported
      | true =>
          obtain ⟨rfl, rfl⟩ := Prod.mk.inj (Option.some.inj reported)
          exact idle settled

theorem setBreakpoints {debugger : Debugger} (empty : debugger.state.terminal.pending = "")
    (lines : List Nat) :
    Delivers fuel (lines.map fun line => .adjust (.setBreakpoint line)) (some debugger)
      (some (lines.foldl Debugger.setBreakpoint debugger)) "" := by
  induction lines generalizing debugger with
  | nil =>
      apply idle
      rintro _ ⟨⟩
      exact empty
  | cons line lines ih => exact adjust (@ih (debugger.setBreakpoint line) empty)

end Delivers

theorem terminal_launch (launch : Launch) (read : FileReader) (program : Program)
    (breakpoints : List Nat) :
    (launch.debugger read program breakpoints).state.terminal =
      Terminal.ofBytes (Utf8.encode launch.input.toList) := by
  rw [Launch.debugger, Debugger.foldl_setBreakpoint]
  split
  · rfl
  · rfl

theorem control_of_inquiry {command : String} (inquires : command ∉ actions)
    (read : FileReader) (adapter : Adapter) (arguments : Option Json) :
    control read adapter command arguments = {} := by
  unfold control
  split
  all_goals first | exact absurd (by decide) inquires | rfl

/-- What each request does to the program. -/
theorem Reacts.delivers {fuel : Nat} {read : FileReader} {adapter : Adapter} {command : String}
    {arguments : Option Json} {reaction : Reaction} (settled : adapter.Settled)
    (reacts : Reacts fuel read adapter arguments command (some reaction)) :
    Delivers fuel (control read adapter command arguments).operations
      ((control read adapter command arguments).launched.or adapter.debugger)
      reaction.adapter.debugger (Event.programText reaction.events) := by
  cases reacts with
  | inquires inquires =>
      rw [control_of_inquiry inquires]
      exact .idle settled
  | initializes => exact .idle settled
  | namesNoProgram isLaunch =>
      simp only [control, isLaunch]
      exact .idle settled
  | loadsNoProgram isLaunch loads =>
      simp only [control, isLaunch, loads]
      exact .idle settled
  | @launches launch loaded _ isLaunch loads carried =>
      obtain ⟨⟨events, debugger⟩, reported, rfl⟩ := Option.map_eq_some_iff.mp carried
      simp only [control, isLaunch, loads, Option.some_or]
      apply Delivers.start ?_ reported
      rintro _ ⟨⟩
      rw [terminal_launch]
      rfl
  | setsBreakpoints =>
      unfold replaceBreakpoints
      cases isDebugger : adapter.debugger with
      | none => exact .absent
      | some debugger =>
          exact .adjust (@Delivers.setBreakpoints fuel debugger.clearBreakpoints
            (settled debugger isDebugger) (requestedLines arguments))
  | configures carried =>
      obtain ⟨⟨events, debugger⟩, reported, rfl⟩ := Option.map_eq_some_iff.mp carried
      exact .start settled reported
  | drives drive carried =>
      obtain ⟨⟨events, debugger⟩, reported, rfl⟩ := Option.map_eq_some_iff.mp carried
      cases drive with
      | resume =>
          rw [Drive.arm, Option.map_id] at reported
          exact .run reported
      | stepOver | stepInto | stepOut => exact .adjust (.run reported)
  | disconnects =>
      apply Delivers.adjust
      apply Delivers.idle
      intro debugger isOff
      obtain ⟨before, isBefore, rfl⟩ := Option.map_eq_some_iff.mp isOff
      exact settled before isBefore

/-- A program was carried on from one state to another, and all that it wrote meanwhile was
sent: the same operations lead to the same state if no output is ever taken away. -/
inductive Accounts (fuel : Nat) (operations : List Operation) :
    Option Debugger → Option Debugger → String → Prop where
  | absent : Accounts fuel operations none none ""
  | present {before after : Debugger} {outcomes : List Outcome} {text : String} :
      before.undelivered.session fuel operations = some (outcomes, after.undelivered) →
      after.state.terminal.output = before.state.terminal.output ++ text →
      Accounts fuel operations (some before) (some after) text

theorem Accounts.refl (fuel : Nat) (debugger : Option Debugger) :
    Accounts fuel [] debugger debugger "" := by
  cases debugger with
  | none => exact .absent
  | some debugger => exact .present rfl String.append_empty.symm

theorem Accounts.trans {fuel : Nat} {first second : List Operation}
    {before middle after : Option Debugger} {text further : String}
    (accounts : Accounts fuel first before middle text)
    (continues : Accounts fuel second middle after further) :
    Accounts fuel (first ++ second) before after (text ++ further) := by
  cases accounts with
  | absent =>
      cases continues with
      | absent => exact .absent
  | present ended written =>
      cases continues with
      | present endedLater writtenLater =>
          have endedInAll := @Debugger.session_append _ _ fuel first second _ ended
          rw [endedLater] at endedInAll
          apply Accounts.present endedInAll
          rw [writtenLater, written, String.append_assoc]

theorem Delivers.accounts {fuel : Nat} {operations : List Operation}
    {before after : Option Debugger} {text : String}
    (settled : ∀ debugger, before = some debugger → debugger.state.terminal.pending = "")
    (delivers : Delivers fuel operations before after text) :
    Accounts fuel operations before after text := by
  cases delivers with
  | absent => exact .absent
  | @present before ended outcomes isEnded =>
      have undelivered : before.undelivered.session fuel operations =
          some (outcomes, ended.deliver.2.undelivered) := by
        rw [Debugger.undelivered_deliver, Debugger.undelivered,
          Debugger.session_onTerminal Terminal.unnoticed_putBack, isEnded]
        rfl
      apply Accounts.present undelivered
      have delivered := Debugger.delivered_of_session isEnded
      have empty := settled before rfl
      change ended.state.terminal.take.2.output = _ ++ ended.state.terminal.pending
      rw [Terminal.output_take, Terminal.output, delivered, Terminal.output, empty,
        String.append_empty]

theorem Delivers.settled {fuel : Nat} {operations : List Operation}
    {before : Option Debugger} {after : Debugger} {text : String}
    (delivers : Delivers fuel operations before (some after) text) :
    after.state.terminal.pending = "" := by
  cases delivers with
  | present => rfl

/-- What the request of an exchange does to the program. -/
def Exchange.control (exchange : Exchange) : Control :=
  Adapter.control exchange.request.files exchange.before exchange.request.command
    exchange.request.arguments

/-- The program's text in what was sent in exchanges. -/
def programText (exchanges : List Exchange) : String :=
  String.join (((exchanges.flatMap Exchange.messages).map Message.content).filterMap
    Content.programText?)

theorem programText_cons (exchange : Exchange) (exchanges : List Exchange) :
    programText (exchange :: exchanges) = programText [exchange] ++ programText exchanges := by
  simp [programText]

theorem Exchange.IsHandled.delivers {fuel : Nat} {exchange : Exchange}
    (isHandled : exchange.IsHandled fuel) (settled : exchange.before.Settled) :
    Delivers fuel exchange.control.operations
      (exchange.control.launched.or exchange.before.debugger) exchange.after.debugger
      (programText [exchange]) := by
  obtain ⟨request, before, after, messages⟩ := exchange
  obtain ⟨connected, isHandled⟩ := isHandled
  simp only at isHandled settled ⊢
  obtain ⟨reaction, reacts, isSent⟩ := exists_reaction_of_handle isHandled
  obtain ⟨rfl, rfl, -⟩ := Handled.mk.inj isSent
  have contents := map_content_eventMessages (reaction.adapter.seq + 2) reaction.events
  rw [programText, List.flatMap_singleton, List.map_cons, contents, List.filterMap_cons,
    List.filterMap_map]
  exact reacts.delivers settled

theorem Exchange.IsHandled.settled {fuel : Nat} {exchange : Exchange}
    (isHandled : exchange.IsHandled fuel) (settled : exchange.before.Settled) :
    exchange.after.Settled := by
  intro debugger isDebugger
  have delivers := isHandled.delivers settled
  rw [isDebugger] at delivers
  exact delivers.settled

theorem settled_of_converse {fuel : Nat} {adapter last : Adapter} {requests : List Request}
    {exchanges : List Exchange} (settled : adapter.Settled)
    (conversed : converse fuel adapter requests = some (exchanges, last)) :
    last.Settled ∧ ∀ exchange ∈ exchanges, exchange.after.Settled := by
  induction requests generalizing adapter exchanges with
  | nil =>
      obtain ⟨rfl, rfl⟩ := Prod.mk.inj (Option.some.inj conversed)
      exact ⟨settled, by simp⟩
  | cons request requests ih =>
      obtain ⟨exchange, later, rfl, isHandled, -, rfl, isLater⟩ := converse_cons conversed
      have settledNext := isHandled.settled settled
      have ⟨settledLast, settledLater⟩ := ih settledNext isLater
      exact ⟨settledLast, List.forall_mem_cons.mpr ⟨settledNext, settledLater⟩⟩

/-- Requests that launch nothing carry the current program on. -/
theorem accounts_converse {fuel : Nat} {adapter last : Adapter} {requests : List Request}
    {exchanges : List Exchange} (settled : adapter.Settled)
    (conversed : converse fuel adapter requests = some (exchanges, last))
    (unlaunched : ∀ exchange ∈ exchanges, exchange.control.launched = none) :
    Accounts fuel (exchanges.flatMap fun exchange => exchange.control.operations)
      adapter.debugger last.debugger (programText exchanges) := by
  induction requests generalizing adapter exchanges with
  | nil =>
      obtain ⟨rfl, rfl⟩ := Prod.mk.inj (Option.some.inj conversed)
      exact .refl fuel _
  | cons request requests ih =>
      obtain ⟨exchange, later, rfl, isHandled, -, rfl, isLater⟩ := converse_cons conversed
      have ⟨first, others⟩ := List.forall_mem_cons.mp unlaunched
      have delivers := isHandled.delivers settled
      rw [first, Option.none_or] at delivers
      rw [List.flatMap_cons, programText_cons]
      exact (delivers.accounts settled).trans (ih (isHandled.settled settled) isLater others)

theorem exists_launch_of_launched {read : FileReader} {adapter : Adapter} {command : String}
    {arguments : Option Json} {start : Debugger}
    (launched : (control read adapter command arguments).launched = some start) :
    ∃ (launch : Launch) (program : Program),
      start = launch.debugger read program adapter.requested := by
  unfold control at launched
  split at launched
  · split at launched
    · contradiction
    · next launch _ =>
        split at launched
        · contradiction
        · next loaded _ => exact ⟨launch, loaded.program, (Option.some.inj launched).symm⟩
  all_goals contradiction

/-- A launch starts a program of its own, which further requests carry on. -/
theorem accounts_launch {fuel : Nat} {adapter last : Adapter} {requests : List Request}
    {launching : Exchange} {since : List Exchange} {start : Debugger} (settled : adapter.Settled)
    (conversed : converse fuel adapter requests = some (launching :: since, last))
    (launched : launching.control.launched = some start)
    (unlaunched : ∀ exchange ∈ since, exchange.control.launched = none) :
    Accounts fuel ((launching :: since).flatMap fun exchange => exchange.control.operations)
      (some start) last.debugger (programText (launching :: since)) := by
  cases requests with
  | nil => simp [converse] at conversed
  | cons request requests =>
      obtain ⟨_, _, equal, isHandled, -, rfl, isLater⟩ := converse_cons conversed
      obtain ⟨rfl, rfl⟩ := List.cons.inj equal
      have delivers := isHandled.delivers settled
      rw [launched, Option.some_or] at delivers
      have fresh : ∀ debugger, some start = some debugger →
          debugger.state.terminal.pending = "" := by
        rintro _ ⟨⟩
        obtain ⟨launch, program, rfl⟩ := exists_launch_of_launched launched
        rw [terminal_launch]
        rfl
      rw [List.flatMap_cons, programText_cons]
      exact (delivers.accounts fresh).trans
        (accounts_converse (isHandled.settled settled) isLater unlaunched)

/-- All output is sent.  In every conversation nothing is kept back when a request has been
handled.  Before the first launch no program's text is sent.  The text that is sent from the
launch of a program up to any later moment before the next launch is all that this program
has written: a session of the same operations, in which no output is taken away, ends with
the same debugger and with exactly this text. -/
theorem output_delivered {fuel : Nat} {requests : List Request} {exchanges : List Exchange}
    {last : Adapter} (conversed : converse fuel {} requests = some (exchanges, last)) :
    (∀ exchange ∈ exchanges, exchange.after.Settled) ∧
    (∀ earlier rest, exchanges = earlier ++ rest →
      (∀ exchange ∈ earlier, exchange.control.launched = none) → programText earlier = "") ∧
    ∀ earlier launching since rest start,
      exchanges = earlier ++ (launching :: since ++ rest) →
      launching.control.launched = some start →
      (∀ exchange ∈ since, exchange.control.launched = none) →
      ∃ outcomes debugger,
        ((launching :: since).getLast (List.cons_ne_nil _ _)).after.debugger = some debugger ∧
        start.session fuel ((launching :: since).flatMap fun exchange =>
          exchange.control.operations) = some (outcomes, debugger.undelivered) ∧
        debugger.undelivered.state.terminal.pending = programText (launching :: since) := by
  have initial : Settled {} := by
    intro debugger isDebugger
    contradiction
  refine ⟨(settled_of_converse initial conversed).2, ?_, ?_⟩
  · rintro earlier rest rfl unlaunched
    obtain ⟨middle, isEarlier, -⟩ := converse_split conversed
    have accounts := accounts_converse initial isEarlier unlaunched
    generalize programText earlier = text at accounts ⊢
    generalize middle.debugger = debugger at accounts
    cases accounts with
    | absent => rfl
  · rintro earlier launching since rest start rfl launched unlaunched
    obtain ⟨middle, isEarlier, isRest, -⟩ := converse_split conversed
    obtain ⟨after, isSince, -, isAfter⟩ := converse_split isRest
    have settled := (settled_of_converse initial isEarlier).1
    have accounts := accounts_launch settled isSince launched unlaunched
    rw [isAfter (List.cons_ne_nil _ _)]
    obtain ⟨launch, program, rfl⟩ := exists_launch_of_launched launched
    generalize after.debugger = debugger at accounts
    cases accounts with
    | @present _ debugger outcomes _ ended written =>
        have fresh := terminal_launch launch launching.request.files program
          launching.before.requested
        rw [Debugger.undelivered_of_fresh (by rw [fresh]; rfl)] at ended
        rw [fresh] at written
        exact ⟨outcomes, debugger, rfl, ended, written.trans String.empty_append⟩

/-- A program that is stopped behind its first output is replaced by one that fails behind
its own. -/
theorem output_delivered_relaunch :
    let files : FileReader := fun path =>
      if path = "first.x.cod" then
        .ok (Utf8.encode "LIT 7\nWRITE\nLINE 2\nLIT 6\nWRITE\n".toList)
      else .ok (Utf8.encode "LIT 8\nWRITE\nLIT 1\nLIT 0\nBOP /\n".toList)
    let launchOf (program : String) : Option Json :=
      some (.ofMembers [("program", .string program), ("stopOnEntry", .bool false)])
    let requests : List Request :=
      [{ seq := 1, command := "configurationDone", files },
        { seq := 2, command := "setBreakpoints", files,
          arguments := some (.ofMembers
            [("breakpoints", .array [.ofMembers [("line", .nat 2)]])]) },
        { seq := 3, command := "launch", files, arguments := launchOf "first.x.cod" },
        { seq := 4, command := "launch", files, arguments := launchOf "second.x.cod" },
        { seq := 5, command := "continue", files }]
    ∃ exchanges last, converse 20 {} requests = some (exchanges, last) ∧
      exchanges.map (fun exchange => programText [exchange]) = ["", "", "7\n", "8\n", ""] ∧
      ∃ (start debugger : Debugger) (outcomes : List Outcome),
        (exchanges.getLast?.bind fun exchange => exchange.after.debugger) = some debugger ∧
        start.session 20 [.resume, .resume] = some (outcomes, debugger.undelivered) ∧
        debugger.undelivered.state.terminal.pending = "8\n" := by
  intro files launchOf requests
  have checked : (converse 20 {} requests).map (fun conversation =>
      conversation.1.map fun exchange =>
        (exchange.control.launched.isSome, exchange.control.operations, programText [exchange])) =
      some [(false, [], ""),
        (false, [.adjust .clearBreakpoints, .adjust (.setBreakpoint 2)], ""),
        (true, [.resume], "7\n"), (true, [.resume], "8\n"), (false, [.resume], "")] := by
    decide +kernel
  obtain ⟨⟨exchanges, last⟩, conversed, seen⟩ := Option.map_eq_some_iff.mp checked
  obtain ⟨configuring, _, rfl, isConfiguring, seen⟩ := List.map_eq_cons_iff.mp seen
  obtain ⟨setting, _, rfl, isSetting, seen⟩ := List.map_eq_cons_iff.mp seen
  obtain ⟨launching, _, rfl, isLaunching, seen⟩ := List.map_eq_cons_iff.mp seen
  obtain ⟨relaunching, _, rfl, isRelaunching, seen⟩ := List.map_eq_cons_iff.mp seen
  obtain ⟨continuing, _, rfl, isContinuing, seen⟩ := List.map_eq_cons_iff.mp seen
  obtain rfl := List.map_eq_nil_iff.mp seen
  simp only [Prod.mk.injEq] at isConfiguring isSetting isLaunching isRelaunching isContinuing
  obtain ⟨start, launched⟩ := Option.isSome_iff_exists.mp isRelaunching.1
  have unlaunched : ∀ exchange ∈ [continuing], exchange.control.launched = none := by
    simpa using isContinuing.1
  obtain ⟨outcomes, debugger, isDebugger, ended, written⟩ := (output_delivered conversed).2.2
    [configuring, setting, launching] relaunching [continuing] [] start rfl launched unlaunched
  refine ⟨_, last, conversed, ?_, start, debugger, outcomes, isDebugger, ?_, ?_⟩
  · simp [isConfiguring, isSetting, isLaunching, isRelaunching, isContinuing]
  · simpa [isRelaunching, isContinuing] using ended
  · rw [written, programText_cons, isRelaunching.2.2, isContinuing.2.2, String.append_empty]

end Adapter

end StackDebugger
