import StackDebugger.Proofs.Adapter.Reaction
import StackDebugger.Proofs.Debugger.Transparency

/-!
# Conversations with a debug client

Whatever requests a client makes, the messages it is sent are numbered without a gap,
and each request is answered by one response, followed by events.  The events of a
request are those of one run of the program, if the request resumes one, and at most
a single event otherwise.
-/

namespace StackDebugger

namespace Debugger

/-- A run that stops leaves a program that is over exactly if the outcome says so. -/
theorem isDone_of_judge {debugger stopped : Debugger} {outcome : Outcome}
    (judged : debugger.judge = .stopped outcome stopped) :
    stopped.isDone = outcome.ending?.isSome := by
  cases done : debugger.isDone with
  | true =>
      rw [judge_of_done done] at judged
      obtain ⟨rfl, rfl⟩ := Progress.stopped.inj judged
      exact done
  | false =>
      cases hit : debugger.hit with
      | some line =>
          rw [judge_of_breakpoint done hit] at judged
          obtain ⟨rfl, rfl⟩ := Progress.stopped.inj judged
          exact done
      | none =>
          cases complete : debugger.mode.stopsAt debugger.depth debugger.currentLine with
          | true =>
              rw [judge_of_step done hit complete] at judged
              obtain ⟨rfl, rfl⟩ := Progress.stopped.inj judged
              exact done
          | false =>
              have going := judge_eq_going_iff.mpr ⟨done, hit, complete, rfl⟩
              rw [going] at judged
              contradiction

theorem isDone_of_advance {debugger stopped : Debugger} {outcome : Outcome}
    (advanced : debugger.advance = .stopped outcome stopped) :
    stopped.isDone = outcome.ending?.isSome := by
  rcases debugger.advance_cases with ⟨-, ended⟩ | ⟨_, next, -, -, judged⟩ |
    ⟨_, fault, failed, -, -, ended⟩
  · rw [ended] at advanced
    obtain ⟨rfl, rfl⟩ := Progress.stopped.inj advanced
    rfl
  · exact isDone_of_judge (judged.symm.trans advanced)
  · rw [ended] at advanced
    obtain ⟨rfl, rfl⟩ := Progress.stopped.inj advanced
    rfl

theorem isDone_of_proceed {debugger final : Debugger} {fuel : Nat} {outcome : Outcome}
    (ended : debugger.proceed fuel = some (outcome, final)) :
    final.isDone = outcome.ending?.isSome := by
  induction fuel generalizing debugger with
  | zero => simp [proceed] at ended
  | succ fuel ih =>
      rw [proceed] at ended
      split at ended
      · exact ih ended
      · next advanced =>
          obtain ⟨rfl, rfl⟩ := Prod.mk.inj (Option.some.inj ended)
          exact isDone_of_advance advanced

theorem isDone_of_resume {debugger final : Debugger} {fuel : Nat} {outcome : Outcome}
    (ended : debugger.resume fuel = some (outcome, final)) :
    final.isDone = outcome.ending?.isSome := by
  unfold resume at ended
  split at ended
  · next done =>
      obtain ⟨rfl, rfl⟩ := Prod.mk.inj (Option.some.inj ended)
      exact done
  · exact isDone_of_proceed ended

end Debugger

/-- The name of the event that content reports. -/
def Content.eventName? : Content → Option String
  | .event name _ => some name
  | _ => none

namespace Adapter

/-- A request of a client, with the files as they are when it is handled. -/
structure Request where
  seq : Nat
  command : String
  arguments : Option Json := none
  files : FileReader

/-- A request that was handled. -/
structure Exchange where
  request : Request
  before : Adapter
  after : Adapter
  messages : List Message

/-- Handles requests one after another. -/
def converse (fuel : Nat) (adapter : Adapter) : List Request → Option (List Exchange × Adapter)
  | [] => some ([], adapter)
  | request :: rest =>
      match adapter.handle fuel request.files request.seq request.command request.arguments with
      | none => none
      | some { adapter := after, messages, .. } =>
          (converse fuel after rest).map fun (later, last) =>
            ({ request, before := adapter, after, messages } :: later, last)

/-- The debugger from which a request resumes a program, if it does so. -/
def resumed? (read : FileReader) (adapter : Adapter) (command : String)
    (arguments : Option Json) : Option Debugger :=
  match command with
  | "launch" =>
      match Launch.ofArguments? arguments with
      | none => none
      | some launch =>
          match read.loadProgram .debug launch.program with
          | .error _ => none
          | .ok loaded =>
              if adapter.configured then
                if launch.stopOnEntry then none
                else some (launch.debugger read loaded.program adapter.requested)
              else none
  | "configurationDone" =>
      if adapter.launched then
        if adapter.stopOnEntry then none else adapter.debugger
      else none
  | "continue" => adapter.debugger
  | "next" => adapter.debugger.map Debugger.armStepOver
  | "stepIn" => adapter.debugger.map Debugger.armStepInto
  | "stepOut" => adapter.debugger.map Debugger.armStepOut
  | _ => none

/-- How the client is told that a run has ended. -/
inductive Ending (after : Debugger) : Outcome → List Event → Prop where
  | breakpoint (line : Nat) :
      after.isDone = false → Ending after (.ok (.breakpoint line)) [Event.stopped "breakpoint"]
  | step : after.isDone = false → Ending after (.ok .step) [Event.stopped "step"]
  | halted : after.isDone = true → Ending after (.ok .halted) (Event.finished 0)
  | failed (fault : Fault) :
      after.isDone = true →
      Ending after (.error fault)
        (Event.output "stderr" (fault.message ++ "\n") :: Event.finished 1)

/-- The events of a request that resumes a program or does not. -/
inductive Reports (fuel : Nat) (resumed after : Option Debugger) : List Event → Prop where
  | nothing : resumed = none → Reports fuel resumed after []
  | initialized : resumed = none → Reports fuel resumed after [Event.initialized]
  | entry : resumed = none → Reports fuel resumed after [Event.stopped "entry"]
  | run {debugger ended : Debugger} {outcome : Outcome} {ending : List Event} :
      resumed = some debugger →
      debugger.resume fuel = some (outcome, ended) →
      after = some ended.deliver.2 →
      Ending ended.deliver.2 outcome ending →
      Reports fuel resumed after (Event.programOutput ended.deliver.1 ++ ending)

/-- What comes of a request that resumes a program or does not, by an adapter that has
sent so many messages. -/
inductive Performs (fuel : Nat) (resumed : Option Debugger) (seq : Nat) :
    Option Reaction → Prop where
  | diverges {debugger : Debugger} :
      resumed = some debugger → debugger.resume fuel = none →
      Performs fuel resumed seq none
  | reports {reaction : Reaction} :
      reaction.adapter.seq = seq → Reports fuel resumed reaction.adapter.debugger reaction.events →
      Performs fuel resumed seq (some reaction)

theorem Reports.resume_ne_none {fuel : Nat} {resumed after : Option Debugger}
    {events : List Event} {debugger : Debugger} (reports : Reports fuel resumed after events)
    (isResumed : resumed = some debugger) : debugger.resume fuel ≠ none := by
  cases reports with
  | nothing isNone | initialized isNone | entry isNone =>
      rw [isNone] at isResumed
      contradiction
  | run isDebugger returned =>
      obtain rfl := Option.some.inj (isDebugger.symm.trans isResumed)
      rw [returned]
      exact Option.some_ne_none _

theorem ending_of_resume {debugger ended : Debugger} {fuel : Nat} {outcome : Outcome}
    (resumed : debugger.resume fuel = some (outcome, ended)) :
    Ending ended.deliver.2 outcome (Event.ofOutcome outcome) := by
  have done : ended.isDone = outcome.ending?.isSome := Debugger.isDone_of_resume resumed
  match outcome with
  | .error fault => exact .failed fault done
  | .ok .halted => exact .halted done
  | .ok .step => exact .step done
  | .ok (.breakpoint line) => exact .breakpoint line done

theorem performs_run (fuel : Nat) (adapter : Adapter) (answer : Answer)
    (debugger : Option Debugger) :
    Performs fuel debugger adapter.seq (adapter.carryOn answer (runReport fuel debugger)) := by
  cases debugger with
  | none => exact .reports rfl (.nothing rfl)
  | some debugger =>
      rw [runReport]
      cases resumed : debugger.resume fuel with
      | none => exact .diverges rfl resumed
      | some result => exact .reports rfl (.run rfl resumed rfl (ending_of_resume resumed))

theorem performs_start (fuel : Nat) (ready stopOnEntry : Bool) (adapter : Adapter)
    (answer : Answer) (debugger : Option Debugger) :
    Performs fuel (if ready then if stopOnEntry then none else debugger else none) adapter.seq
      (adapter.carryOn answer (startReport fuel ready stopOnEntry debugger)) := by
  unfold startReport
  split
  · split
    · exact .reports rfl (.entry rfl)
    · exact performs_run fuel adapter answer debugger
  · exact .reports rfl (.nothing rfl)

theorem resumed?_of_inquiry {command : String} (inquires : command ∉ actions)
    (read : FileReader) (adapter : Adapter) (arguments : Option Json) :
    resumed? read adapter command arguments = none := by
  unfold resumed?
  split
  all_goals first | exact absurd (by decide) inquires | rfl

theorem resumed?_drive (read : FileReader) (adapter : Adapter) (drive : Drive)
    (arguments : Option Json) :
    resumed? read adapter drive.request arguments = adapter.debugger.map drive.arm := by
  cases drive with
  | resume => exact Option.map_id_apply.symm
  | stepOver | stepInto | stepOut => rfl

/-- A request reports a run exactly if it resumes one. -/
theorem Reacts.performs {fuel : Nat} {read : FileReader} {adapter : Adapter}
    {arguments : Option Json} {command : String} {result : Option Reaction}
    (reacts : Reacts fuel read adapter arguments command result) :
    Performs fuel (resumed? read adapter command arguments) adapter.seq result := by
  cases reacts with
  | inquires inquires => exact .reports rfl (.nothing (resumed?_of_inquiry inquires _ _ _))
  | initializes => exact .reports rfl (.initialized rfl)
  | namesNoProgram isLaunch =>
      simp only [resumed?, isLaunch]
      exact .reports rfl (.nothing rfl)
  | loadsNoProgram isLaunch loads =>
      simp only [resumed?, isLaunch, loads]
      exact .reports rfl (.nothing rfl)
  | @launches launch loaded _ isLaunch loads carried =>
      simp only [resumed?, isLaunch, loads, ← carried]
      exact performs_start fuel _ _ (launch.take read loaded.program { adapter with
        stopOnEntry := launch.stopOnEntry }) _ _
  | setsBreakpoints =>
      obtain ⟨debugger, requested, replaced⟩ :=
        replaceBreakpoints_eq (requestedLines arguments) adapter
      rw [replaced]
      exact .reports rfl (.nothing rfl)
  | configures carried =>
      rw [← carried]
      exact performs_start fuel _ _ { adapter with configured := true } _ _
  | drives drive carried =>
      rw [resumed?_drive, ← carried]
      exact performs_run fuel adapter _ _
  | disconnects => exact .reports rfl (.nothing rfl)

/-- The request of an exchange was answered by one response, followed by events that
report no more than the run that the request has resumed. -/
def Exchange.IsAnswered (fuel : Nat) (exchange : Exchange) : Prop :=
  let request := exchange.request
  ∃ (answer : Answer) (events : List Event),
    exchange.messages.map Message.kind = "response" :: events.map (fun _ => "event") ∧
    exchange.messages.map Message.content =
      .response request.seq answer.success request.command answer.message answer.body ::
        events.map (fun event => .event event.name event.body) ∧
    Reports fuel
      (resumed? request.files exchange.before request.command request.arguments)
      exchange.after.debugger events

/-- The names of the events that were sent in an exchange. -/
def Exchange.eventNames (exchange : Exchange) : List String :=
  (exchange.messages.map Message.content).filterMap Content.eventName?

theorem eventNames_of_contents {exchange : Exchange} {requestSeq : Nat} {success : Bool}
    {command : String} {message : Option String} {body : Option Json} {events : List Event}
    (contents : exchange.messages.map Message.content =
      .response requestSeq success command message body ::
        events.map fun event => .event event.name event.body) :
    exchange.eventNames = events.map Event.name := by
  rw [Exchange.eventNames, contents, List.filterMap_cons, List.filterMap_map]
  exact congrFun List.filterMap_eq_map events

/-- Some request resumes a run that does not return. -/
inductive Stalls (fuel : Nat) : Adapter → List Request → Prop where
  | here {adapter : Adapter} {request : Request} {rest : List Request} {debugger : Debugger} :
      resumed? request.files adapter request.command request.arguments = some debugger →
      debugger.resume fuel = none →
      Stalls fuel adapter (request :: rest)
  | later {adapter : Adapter} {request : Request} {rest : List Request} {handled : Handled} :
      adapter.handle fuel request.files request.seq request.command request.arguments =
        some handled →
      Stalls fuel handled.adapter rest →
      Stalls fuel adapter (request :: rest)

/-- A request is handled, unless it resumes a run that does not return. -/
theorem handle_cases (fuel : Nat) (adapter : Adapter) (request : Request) :
    (∃ debugger, resumed? request.files adapter request.command request.arguments =
        some debugger ∧ debugger.resume fuel = none ∧
      adapter.handle fuel request.files request.seq request.command request.arguments = none) ∨
    ∃ handled,
      adapter.handle fuel request.files request.seq request.command request.arguments =
        some handled ∧
      handled.messages.map Message.seq =
        List.range' (adapter.seq + 1) handled.messages.length ∧
      handled.adapter.seq = adapter.seq + handled.messages.length ∧
      Exchange.IsAnswered fuel
        { request, before := adapter, after := handled.adapter, messages := handled.messages } := by
  obtain ⟨result, reacts⟩ := exists_reacts fuel request.files adapter request.command
    request.arguments
  rw [reacts.handle_eq]
  cases reacts.performs with
  | diverges resumed stuck => exact .inl ⟨_, resumed, stuck, rfl⟩
  | @reports reaction sameSeq reports =>
      rw [← sameSeq]
      refine .inr ⟨_, rfl, ?_, ?_, reaction.answer, reaction.events, ?_, ?_, reports⟩
      · rw [Reaction.sent, List.map_cons, map_seq_eventMessages, List.length_cons,
          length_eventMessages, List.range'_succ]
      · rw [Reaction.sent, List.length_cons, length_eventMessages]
        exact Nat.add_right_comm _ _ _
      · rw [Reaction.sent, List.map_cons, map_kind_eventMessages]
      · rw [Reaction.sent, List.map_cons, map_content_eventMessages]

/-- A conversation is carried on to its end, unless some run in it does not return. -/
theorem converse_eq_none_iff {fuel : Nat} {adapter : Adapter} {requests : List Request} :
    converse fuel adapter requests = none ↔ Stalls fuel adapter requests := by
  induction requests generalizing adapter with
  | nil =>
      constructor
      · intro stopped
        contradiction
      · rintro ⟨⟩
  | cons request rest ih =>
      constructor
      · intro stopped
        rcases handle_cases fuel adapter request with ⟨debugger, resumed, stuck, -⟩ |
          ⟨handled, isHandled, -⟩
        · exact .here resumed stuck
        · simp only [converse, isHandled, Option.map_eq_none_iff] at stopped
          exact .later isHandled (ih.mp stopped)
      · intro stalls
        cases stalls with
        | here resumed stuck =>
            rcases handle_cases fuel adapter request with ⟨_, -, -, unhandled⟩ |
              ⟨handled, -, -, -, _, _, -, -, reports⟩
            · simp only [converse, unhandled]
            · exact absurd stuck (reports.resume_ne_none resumed)
        | later isHandled stalls =>
            simp only [converse, isHandled, ih.mpr stalls, Option.map_none]

/-- The messages of a conversation: numbers without a gap, and every request answered. -/
theorem converse_shape {fuel : Nat} {adapter last : Adapter} {requests : List Request}
    {exchanges : List Exchange}
    (conversed : converse fuel adapter requests = some (exchanges, last)) :
    exchanges.map Exchange.request = requests ∧
    (exchanges.flatMap Exchange.messages).map Message.seq =
      List.range' (adapter.seq + 1) (exchanges.flatMap Exchange.messages).length ∧
    ∀ exchange ∈ exchanges, exchange.IsAnswered fuel := by
  induction requests generalizing adapter exchanges with
  | nil =>
      obtain ⟨rfl, -⟩ := Prod.mk.inj (Option.some.inj conversed)
      exact ⟨rfl, rfl, by simp⟩
  | cons request rest ih =>
      rcases handle_cases fuel adapter request with ⟨debugger, -, -, unhandled⟩ |
        ⟨handled, isHandled, numbered, counted, answered⟩
      · simp [converse, unhandled] at conversed
      · simp only [converse, isHandled] at conversed
        obtain ⟨⟨later, final⟩, isLater, equal⟩ := Option.map_eq_some_iff.mp conversed
        obtain ⟨rfl, rfl⟩ := Prod.mk.inj equal
        obtain ⟨laterRequests, laterNumbered, laterAnswered⟩ := ih isLater
        refine ⟨?_, ?_, ?_⟩
        · rw [List.map_cons, laterRequests]
        · rw [List.flatMap_cons, List.map_append, List.length_append, numbered, laterNumbered,
            counted]
          rw [Nat.add_right_comm, List.range'_append_1]
        · intro exchange member
          rcases List.mem_cons.mp member with rfl | member
          · exact answered
          · exact laterAnswered exchange member

/-- The request of an exchange has led to what the exchange says. -/
def Exchange.IsHandled (fuel : Nat) (exchange : Exchange) : Prop :=
  ∃ connected,
    exchange.before.handle fuel exchange.request.files exchange.request.seq
        exchange.request.command exchange.request.arguments =
      some { adapter := exchange.after, messages := exchange.messages, connected }

theorem converse_cons {fuel : Nat} {adapter last : Adapter} {request : Request}
    {requests : List Request} {exchanges : List Exchange}
    (conversed : converse fuel adapter (request :: requests) = some (exchanges, last)) :
    ∃ exchange later, exchanges = exchange :: later ∧ exchange.IsHandled fuel ∧
      exchange.request = request ∧ exchange.before = adapter ∧
      converse fuel exchange.after requests = some (later, last) := by
  rw [converse] at conversed
  split at conversed
  · contradiction
  · next after messages connected isHandled =>
      obtain ⟨⟨later, final⟩, isLater, equal⟩ := Option.map_eq_some_iff.mp conversed
      obtain ⟨rfl, rfl⟩ := Prod.mk.inj equal
      exact ⟨_, later, rfl, ⟨connected, isHandled⟩, rfl, rfl, isLater⟩

theorem isHandled_of_converse {fuel : Nat} {adapter last : Adapter} {requests : List Request}
    {exchanges : List Exchange}
    (conversed : converse fuel adapter requests = some (exchanges, last)) :
    ∀ exchange ∈ exchanges, exchange.IsHandled fuel := by
  induction requests generalizing adapter exchanges with
  | nil =>
      obtain ⟨rfl, -⟩ := Prod.mk.inj (Option.some.inj conversed)
      simp
  | cons request requests ih =>
      obtain ⟨exchange, later, rfl, isHandled, -, rfl, isLater⟩ := converse_cons conversed
      exact List.forall_mem_cons.mpr ⟨isHandled, ih isLater⟩

/-- A part of a conversation is a conversation. -/
theorem converse_split {fuel : Nat} {adapter last : Adapter} {requests : List Request}
    {first rest : List Exchange}
    (conversed : converse fuel adapter requests = some (first ++ rest, last)) :
    ∃ middle, converse fuel adapter (first.map Exchange.request) = some (first, middle) ∧
      converse fuel middle (rest.map Exchange.request) = some (rest, last) ∧
      ∀ filled : first ≠ [], (first.getLast filled).after = middle := by
  induction first generalizing adapter requests with
  | nil =>
      have requested := (converse_shape conversed).1
      rw [List.nil_append] at requested conversed
      rw [requested]
      exact ⟨adapter, rfl, conversed, fun filled => absurd rfl filled⟩
  | cons exchange first ih =>
      cases requests with
      | nil => simp [converse] at conversed
      | cons request requests =>
          obtain ⟨_, later, equal, ⟨connected, isHandled⟩, isRequest, rfl, isLater⟩ :=
            converse_cons conversed
          obtain ⟨rfl, rfl⟩ := List.cons.inj equal
          obtain ⟨middle, isFirst, isRest, isLast⟩ := ih isLater
          refine ⟨middle, ?_, isRest, ?_⟩
          · rw [List.map_cons, converse, isHandled]
            simp only [isFirst, Option.map_some]
          · intro filled
            by_cases single : first = []
            · subst single
              exact (Prod.mk.inj (Option.some.inj isFirst)).2
            · rw [List.getLast_cons single]
              exact isLast single

theorem converse_append {fuel : Nat} {adapter middle : Adapter} {first : List Request}
    {exchanges : List Exchange}
    (conversed : converse fuel adapter first = some (exchanges, middle)) (rest : List Request) :
    converse fuel adapter (first ++ rest) =
      (converse fuel middle rest).map fun (later, last) => (exchanges ++ later, last) := by
  induction first generalizing adapter exchanges with
  | nil =>
      obtain ⟨rfl, rfl⟩ := Prod.mk.inj (Option.some.inj conversed)
      simp
  | cons request first ih =>
      rw [List.cons_append, converse]
      rw [converse] at conversed
      split at conversed
      · contradiction
      · next after messages connected isHandled =>
          obtain ⟨⟨later, final⟩, isLater, equal⟩ := Option.map_eq_some_iff.mp conversed
          obtain ⟨rfl, rfl⟩ := Prod.mk.inj equal
          simp only [ih isLater, Option.map_map]
          rfl

/-- The outbound stream of an adapter.  If every run that the requests resume returns, then
messages are numbered from one on without a gap, and each request is answered by one
response, followed by no events, a single `initialized` or `stopped`, or the report of the
run that it has resumed. -/
theorem outbound_stream {fuel : Nat} {requests : List Request}
    (returns : ¬ Stalls fuel {} requests) :
    ∃ exchanges last, converse fuel {} requests = some (exchanges, last) ∧
      exchanges.map Exchange.request = requests ∧
      (exchanges.flatMap Exchange.messages).map Message.seq =
        List.range' 1 (exchanges.flatMap Exchange.messages).length ∧
      ∀ exchange ∈ exchanges, exchange.IsAnswered fuel := by
  cases conversed : converse fuel {} requests with
  | none => exact absurd (converse_eq_none_iff.mp conversed) returns
  | some result =>
      obtain ⟨exchanges, last⟩ := result
      exact ⟨exchanges, last, rfl, converse_shape conversed⟩

/-- A program that stops at a breakpoint, writes a number and then divides by zero. -/
theorem outbound_stream_division :
    let files : FileReader := fun _ =>
      .ok (Utf8.encode "LIT 7\nLINE 2\nWRITE\nLIT 1\nLIT 0\nBOP /\n".toList)
    let requests : List Request :=
      [{ seq := 1, command := "initialize", files },
        { seq := 2, command := "setBreakpoints", files,
          arguments := some (.ofMembers
            [("breakpoints", .array [.ofMembers [("line", .nat 2)]])]) },
        { seq := 3, command := "launch", files,
          arguments := some (.ofMembers
            [("program", .string "divide.x.cod"), ("stopOnEntry", .bool false)]) },
        { seq := 4, command := "configurationDone", files },
        { seq := 5, command := "continue", files },
        { seq := 6, command := "continue", files }]
    ∃ exchanges last, converse 20 {} requests = some (exchanges, last) ∧
      exchanges.map (fun exchange => exchange.messages.length) = [2, 1, 1, 2, 5, 3] ∧
      (exchanges.flatMap Exchange.messages).map Message.seq = List.range' 1 14 ∧
      ∀ exchange ∈ exchanges, exchange.IsAnswered 20 := by
  intro files requests
  have counted : (converse 20 {} requests).map (fun conversation =>
      conversation.1.map fun exchange => exchange.messages.length) = some [2, 1, 1, 2, 5, 3] := by
    decide +kernel
  have returns : ¬ Stalls 20 {} requests := by
    intro stalls
    rw [converse_eq_none_iff.mpr stalls] at counted
    contradiction
  obtain ⟨exchanges, last, conversed, -, numbered, answered⟩ := outbound_stream returns
  rw [conversed] at counted
  have lengths : exchanges.map (fun exchange => exchange.messages.length) = [2, 1, 1, 2, 5, 3] :=
    Option.some.inj counted
  rw [List.length_flatMap, lengths] at numbered
  exact ⟨exchanges, last, conversed, lengths, numbered, answered⟩

end Adapter

end StackDebugger
