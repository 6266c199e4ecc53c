import StackDebugger.Proofs.Adapter.Conversation

/-!
# Launches that fail

A launch that names no program changes nothing but the numbering.  One whose program cannot be
loaded already settles whether a program waits at its entry, and so it interferes with the program
that is there: if this has not started yet, it does so as the failed launch has asked for it.
-/

namespace StackDebugger

/-- The message with a number that is higher by so much. -/
def Message.shift (count : Nat) (message : Message) : Message :=
  { message with seq := message.seq + count }

/-- Whether the content refuses a request. -/
def Content.isFailure : Content → Bool
  | .response _ success _ _ _ => !success
  | _ => false

/-- Why the program was stopped, if the content says so. -/
def Content.stopReason? : Content → Option String
  | .event "stopped" (some body) => (body.member? "reason").bind Json.string?
  | _ => none

namespace Adapter

/-- The adapter after so many more messages, with a change of whether a program waits at its
entry. -/
def amend (count : Nat) (entry : Bool → Bool) (adapter : Adapter) : Adapter :=
  { adapter with seq := adapter.seq + count, stopOnEntry := entry adapter.stopOnEntry }

def Reaction.amend (count : Nat) (entry : Bool → Bool) (reaction : Reaction) : Reaction :=
  { reaction with adapter := reaction.adapter.amend count entry }

def Handled.amend (count : Nat) (entry : Bool → Bool) (handled : Handled) : Handled :=
  { handled with
    adapter := handled.adapter.amend count entry
    messages := handled.messages.map (Message.shift count) }

/-- The messages with which each of the requests is answered. -/
def answers (fuel : Nat) (adapter : Adapter) (requests : List Request) :
    Option (List (List Message)) :=
  (converse fuel adapter requests).map fun (exchanges, _) => exchanges.map Exchange.messages

/-- The requests are answered as by the other adapter, with numbers that are higher by so much. -/
def AnswersAs (fuel count : Nat) (adapter other : Adapter) (requests : List Request) : Prop :=
  answers fuel adapter requests =
    (answers fuel other requests).map (List.map (List.map (Message.shift count)))

/-- Whether a request settles anew if a program waits at its entry. -/
def settlesEntry (command : String) (arguments : Option Json) : Bool :=
  match command with
  | "launch" => (Launch.ofArguments? arguments).isSome
  | _ => false

/-- Whether it makes a difference to a request if a program waits at its entry. -/
def readsEntry (launched : Bool) (command : String) : Bool :=
  match command with
  | "configurationDone" => launched
  | _ => false

/-- No request asks whether a launched program waits at its entry before one settles it anew. -/
inductive EntryUnread (launched : Bool) : List Request → Prop where
  | nil : EntryUnread launched []
  | settled {request : Request} {rest : List Request} :
      settlesEntry request.command request.arguments = true →
      EntryUnread launched (request :: rest)
  | passed {request : Request} {rest : List Request} :
      settlesEntry request.command request.arguments = false →
      readsEntry launched request.command = false → EntryUnread launched rest →
      EntryUnread launched (request :: rest)

section Amend

variable {fuel count : Nat} {entry : Bool → Bool} {adapter : Adapter}

theorem carryOn_amend (answer : Answer) (reported : Option (List Event × Option Debugger)) :
    (adapter.amend count entry).carryOn answer reported =
      (adapter.carryOn answer reported).map (Reaction.amend count entry) := by
  cases reported with
  | none => rfl
  | some reported => rfl

theorem replaceBreakpoints_amend (lines : List Nat) :
    (adapter.amend count entry).replaceBreakpoints lines =
      (adapter.replaceBreakpoints lines).amend count entry := by
  cases isDebugger : adapter.debugger with
  | none => simp only [replaceBreakpoints, amend, isDebugger]
  | some debugger => simp only [replaceBreakpoints, amend, isDebugger]

theorem startReport_of_unread {launched stopOnEntry : Bool}
    (unread : entry = id ∨ launched = false) (debugger : Option Debugger) :
    startReport fuel launched (entry stopOnEntry) debugger =
      startReport fuel launched stopOnEntry debugger := by
  rcases unread with rfl | rfl
  · rfl
  · rfl

/-- What a request leads to is amended likewise, unless the request has to do with the entry. -/
theorem Reacts.amend {read : FileReader} {command : String} {arguments : Option Json}
    {result : Option Reaction}
    (unread : entry = id ∨
      settlesEntry command arguments = false ∧ readsEntry adapter.launched command = false)
    (reacts : Reacts fuel read adapter arguments command result) :
    Reacts fuel read (adapter.amend count entry) arguments command
      (result.map (Reaction.amend count entry)) := by
  have same {launch : Launch} (isLaunch : Launch.ofArguments? arguments = some launch)
      (isCommand : command = "launch") : entry = id := by
    rcases unread with same | ⟨unsettled, -⟩
    · exact same
    · simp [settlesEntry, isCommand, isLaunch] at unsettled
  cases reacts with
  | inquires inquires => exact .inquires inquires
  | initializes => exact .initializes
  | namesNoProgram isLaunch => exact .namesNoProgram isLaunch
  | loadsNoProgram isLaunch loads =>
      obtain rfl := same isLaunch rfl
      exact .loadsNoProgram isLaunch loads
  | launches isLaunch loads carried =>
      obtain rfl := same isLaunch rfl
      refine .launches isLaunch loads ?_
      rw [← carried, ← carryOn_amend]
      rfl
  | setsBreakpoints =>
      have amended := @setsBreakpoints fuel read (adapter.amend count entry) arguments
      rw [replaceBreakpoints_amend] at amended
      exact amended
  | configures carried =>
      refine .configures ?_
      rw [← carried, ← carryOn_amend]
      exact congrArg _ (startReport_of_unread (unread.imp_right And.right) adapter.debugger)
  | drives drive carried =>
      refine .drives drive ?_
      rw [← carried, ← carryOn_amend]
      rfl
  | disconnects => exact .disconnects

theorem eventMessages_shift (first count : Nat) (events : List Event) :
    eventMessages (first + count) events =
      (eventMessages first events).map (Message.shift count) := by
  induction events generalizing first with
  | nil => rfl
  | cons event rest ih =>
      have later := ih (first + 1)
      rw [Nat.add_right_comm] at later
      exact congrArg _ later

theorem sent_amend (seq : Nat) (command : String) (reaction : Reaction) :
    Reaction.sent seq command (Reaction.amend count entry reaction) =
      (reaction.sent seq command).amend count entry := by
  simp only [Reaction.sent, Handled.amend, Reaction.amend, amend, List.map_cons, Message.shift,
    ← eventMessages_shift, Nat.add_right_comm _ count]

/-- A request is answered alike, unless it has to do with the entry. -/
theorem handle_amend {request : Request}
    (unread : entry = id ∨ settlesEntry request.command request.arguments = false ∧
      readsEntry adapter.launched request.command = false) :
    (adapter.amend count entry).handle fuel request.files request.seq request.command
        request.arguments =
      (adapter.handle fuel request.files request.seq request.command request.arguments).map
        (Handled.amend count entry) := by
  obtain ⟨result, reacts⟩ := exists_reacts fuel request.files adapter request.command
    request.arguments
  rw [reacts.handle_eq, (reacts.amend unread).handle_eq]
  cases result with
  | none => rfl
  | some reaction => exact congrArg some (sent_amend request.seq request.command reaction)

theorem answers_cons (fuel : Nat) (adapter : Adapter) (request : Request) (rest : List Request) :
    answers fuel adapter (request :: rest) =
      (adapter.handle fuel request.files request.seq request.command request.arguments).bind
        fun handled => (answers fuel handled.adapter rest).map (handled.messages :: ·) := by
  rw [answers, converse]
  cases adapter.handle fuel request.files request.seq request.command request.arguments with
  | none => rfl
  | some handled =>
      simp only [answers, Option.map_map, Option.bind_some]
      rfl

/-- Requests are answered alike if the first of them is and the others are then. -/
theorem AnswersAs.cons {other : Adapter} {request : Request} {rest : List Request}
    (amended : adapter.handle fuel request.files request.seq request.command request.arguments =
      (other.handle fuel request.files request.seq request.command request.arguments).map
        (Handled.amend count entry))
    (later : ∀ handled,
      other.handle fuel request.files request.seq request.command request.arguments =
        some handled →
      AnswersAs fuel count (handled.adapter.amend count entry) handled.adapter rest) :
    AnswersAs fuel count adapter other (request :: rest) := by
  rw [AnswersAs, answers_cons, answers_cons, amended]
  cases isHandled : other.handle fuel request.files request.seq request.command
      request.arguments with
  | none => rfl
  | some handled =>
      have alike := later handled isHandled
      rw [AnswersAs] at alike
      simp only [Option.map_some, Option.bind_some, Handled.amend, alike, Option.map_map]
      rfl

/-- How many messages were sent makes no difference but to the numbers of later ones. -/
theorem answersAs_shift (fuel count : Nat) (adapter : Adapter) (requests : List Request) :
    AnswersAs fuel count (adapter.amend count id) adapter requests := by
  induction requests generalizing adapter with
  | nil => rfl
  | cons request rest ih =>
      apply AnswersAs.cons (handle_amend (.inl rfl))
      intro handled _
      exact ih handled.adapter

theorem handle_of_settlesEntry {request : Request}
    (settles : settlesEntry request.command request.arguments = true) :
    (adapter.amend count entry).handle fuel request.files request.seq request.command
        request.arguments =
      (adapter.amend count id).handle fuel request.files request.seq request.command
        request.arguments := by
  unfold settlesEntry at settles
  split at settles
  · next isCommand =>
      obtain ⟨launch, isLaunch⟩ := Option.isSome_iff_exists.mp settles
      rw [isCommand]
      cases loads : request.files.loadProgram .debug launch.program with
      | error error =>
          have reacts (adapter : Adapter) :=
            @Reacts.loadsNoProgram fuel _ adapter _ _ _ isLaunch loads
          rw [(reacts _).handle_eq, (reacts _).handle_eq]
          rfl
      | ok loaded =>
          have reacts (adapter : Adapter) :=
            @Reacts.launches fuel _ adapter _ _ _ _ isLaunch loads rfl
          rw [(reacts _).handle_eq, (reacts _).handle_eq]
          rfl
  · contradiction

/-- Only a launch that names a program launches one. -/
theorem Reacts.launched_eq {read : FileReader} {command : String} {arguments : Option Json}
    {reaction : Reaction} (unsettled : settlesEntry command arguments = false)
    (reacts : Reacts fuel read adapter arguments command (some reaction)) :
    reaction.adapter.launched = adapter.launched := by
  cases reacts with
  | inquires | initializes | namesNoProgram | disconnects => rfl
  | loadsNoProgram isLaunch | launches isLaunch => simp [settlesEntry, isLaunch] at unsettled
  | setsBreakpoints =>
      obtain ⟨debugger, requested, replaced⟩ :=
        replaceBreakpoints_eq (requestedLines arguments) adapter
      rw [replaced]
  | configures carried | drives drive carried =>
      obtain ⟨_, -, rfl⟩ := Option.map_eq_some_iff.mp carried
      rfl

theorem launched_of_handle {request : Request} {handled : Handled}
    (unsettled : settlesEntry request.command request.arguments = false)
    (isHandled : adapter.handle fuel request.files request.seq request.command request.arguments =
      some handled) : handled.adapter.launched = adapter.launched := by
  obtain ⟨reaction, reacts, rfl⟩ := exists_reaction_of_handle isHandled
  exact reacts.launched_eq unsettled

/-- Whether a program waits at its entry makes no difference until a request asks for it. -/
theorem EntryUnread.answersAs {launched : Bool} {requests : List Request}
    (unread : EntryUnread launched requests) (isLaunched : adapter.launched = launched)
    (count : Nat) (entry : Bool → Bool) :
    AnswersAs fuel count (adapter.amend count entry) adapter requests := by
  induction unread generalizing adapter with
  | nil => rfl
  | @settled request rest settles =>
      have shifted := answersAs_shift fuel count adapter (request :: rest)
      rw [AnswersAs, answers_cons] at shifted ⊢
      rw [handle_of_settlesEntry settles]
      exact shifted
  | @passed request rest unsettled unread laterUnread ih =>
      subst isLaunched
      apply AnswersAs.cons (handle_amend (.inr ⟨unsettled, unread⟩))
      intro handled isHandled
      exact ih (launched_of_handle unsettled isHandled)

theorem entryUnread_of_not_launched (requests : List Request) : EntryUnread false requests := by
  induction requests with
  | nil => exact .nil
  | cons request rest ih =>
      cases settles : settlesEntry request.command request.arguments with
      | true => exact .settled settles
      | false =>
          refine .passed settles ?_ ih
          unfold readsEntry
          split
          · rfl
          · rfl

end Amend

/-- The answers tell of a program that waits at its entry. -/
def tellsEntry (answers : Option (List (List Message))) : Bool :=
  answers.any fun replies =>
    replies.any fun messages =>
      messages.any fun message => message.content.stopReason? == some "entry"

/-- The same of events that are reported. -/
def reportsEntry (events : List Event) : Bool :=
  events.any fun event => (Content.event event.name event.body).stopReason? == some "entry"

theorem AnswersAs.tellsEntry_eq {fuel count : Nat} {adapter other : Adapter}
    {requests : List Request} (alike : AnswersAs fuel count adapter other requests) :
    tellsEntry (answers fuel adapter requests) = tellsEntry (answers fuel other requests) := by
  rw [alike]
  simp only [tellsEntry, Option.any_map, List.any_map, Function.comp_def, Message.shift]

theorem reportsEntry_ofOutcome (outcome : Outcome) :
    reportsEntry (Event.ofOutcome outcome) = false := by
  match outcome with
  | .ok (.breakpoint line) =>
      change reportsEntry [Event.stopped "breakpoint"] = false
      decide +kernel
  | .ok .step => decide +kernel
  | .ok .halted => decide +kernel
  | .error fault => rfl

theorem reportsEntry_of_run (fuel : Nat) (debugger : Option Debugger) :
    ((runReport fuel debugger).any fun reported => reportsEntry reported.1) = false := by
  cases debugger with
  | none => rfl
  | some debugger =>
      rw [runReport, Option.any_map]
      cases debugger.resume fuel with
      | none => rfl
      | some result =>
          obtain ⟨outcome, ended⟩ := result
          have ending := reportsEntry_ofOutcome outcome
          unfold reportsEntry at ending
          simp only [Option.any_some, reportsEntry, List.any_append, ending, Bool.or_false]
          unfold Event.programOutput
          split
          · rfl
          · rfl

/-- A start shows whether the program waits at its entry, also by not returning. -/
theorem reportsEntry_of_start (fuel : Nat) (stopOnEntry : Bool) (debugger : Option Debugger) :
    ((startReport fuel true stopOnEntry debugger).any fun reported =>
      reportsEntry reported.1) = stopOnEntry := by
  cases stopOnEntry with
  | true =>
      change reportsEntry [Event.stopped "entry"] = true
      decide +kernel
  | false => exact reportsEntry_of_run fuel debugger

theorem any_eventMessages (first : Nat) (events : List Event) :
    ((eventMessages first events).any fun message =>
      message.content.stopReason? == some "entry") = reportsEntry events := by
  have contents := congrArg (fun contents : List Content =>
    contents.any fun content => content.stopReason? == some "entry")
    (map_content_eventMessages first events)
  simp only [List.any_map] at contents
  exact contents

theorem tellsEntry_of_reacts {fuel : Nat} {adapter : Adapter} {request : Request}
    {result : Option Reaction}
    (reacts : Reacts fuel request.files adapter request.arguments request.command result) :
    tellsEntry (answers fuel adapter [request]) =
      result.any fun reaction => reportsEntry reaction.events := by
  rw [answers_cons, reacts.handle_eq]
  cases result with
  | none => rfl
  | some reaction =>
      change ((false || List.any _ _) || false) = reportsEntry reaction.events
      rw [Bool.or_false, Bool.false_or]
      exact any_eventMessages _ reaction.events

/-- The end of the configuration shows whether the launched program waits at its entry. -/
theorem tellsEntry_configurationDone (fuel : Nat) (adapter : Adapter) {request : Request}
    (isCommand : request.command = "configurationDone") (launched : adapter.launched = true) :
    tellsEntry (answers fuel adapter [request]) = adapter.stopOnEntry := by
  have reacts := @Reacts.configures fuel request.files adapter request.arguments _ rfl
  rw [← isCommand, launched] at reacts
  rw [tellsEntry_of_reacts reacts, carryOn, Option.any_map]
  exact reportsEntry_of_start fuel adapter.stopOnEntry adapter.debugger

/-- Why a launch fails. -/
inductive LaunchFails (read : FileReader) (arguments : Option Json) : String → Prop where
  | nameless :
      Launch.ofArguments? arguments = none →
      LaunchFails read arguments "launch requires a 'program' path"
  | unloaded {launch : Launch} {error : LoadError} :
      Launch.ofArguments? arguments = some launch →
      read.loadProgram .debug launch.program = .error error →
      LaunchFails read arguments error.message

/-- Whether a program is to wait at its entry according to a launch, or as before if no program
is named. -/
def entryAfter (adapter : Adapter) (arguments : Option Json) : Bool :=
  ((Launch.ofArguments? arguments).map Launch.stopOnEntry).getD adapter.stopOnEntry

/-- A known request succeeds, or it is a launch that is answered with the reason why it fails and
has only settled whether a program waits at its entry. -/
theorem Reacts.success_or_fails {fuel : Nat} {read : FileReader} {adapter : Adapter}
    {arguments : Option Json} {command : String} {reaction : Reaction}
    (known : command ∈ actions)
    (reacts : Reacts fuel read adapter arguments command (some reaction)) :
    reaction.answer.success = true ∨
    ∃ reason, LaunchFails read arguments reason ∧
      reaction =
        { adapter := { adapter with stopOnEntry := adapter.entryAfter arguments }
          answer := { success := false, message := some reason } } := by
  cases reacts with
  | inquires unknown => exact absurd known unknown
  | initializes | setsBreakpoints | disconnects => exact .inl rfl
  | namesNoProgram isLaunch =>
      refine .inr ⟨_, .nameless isLaunch, ?_⟩
      simp [entryAfter, isLaunch]
  | loadsNoProgram isLaunch loads =>
      refine .inr ⟨_, .unloaded isLaunch loads, ?_⟩
      simp [entryAfter, isLaunch]
  | launches _ _ carried | configures carried =>
      obtain ⟨_, -, rfl⟩ := Option.map_eq_some_iff.mp carried
      exact .inl rfl
  | drives drive carried =>
      obtain ⟨_, -, rfl⟩ := Option.map_eq_some_iff.mp carried
      cases drive with
      | resume | stepOver | stepInto | stepOut => exact .inl rfl

theorem answer_of_failure {seq : Nat} {command : String} {reaction : Reaction}
    (failed : ∃ message ∈ (reaction.sent seq command).messages,
      message.content.isFailure = true) :
    reaction.answer.success = false := by
  obtain ⟨message, member, isFailure⟩ := failed
  rcases List.mem_cons.mp member with rfl | reported
  · exact (Bool.not_eq_true' _).mp isFailure
  · have content := List.mem_map_of_mem (f := Message.content) reported
    rw [map_content_eventMessages] at content
    obtain ⟨event, -, isEvent⟩ := List.mem_map.mp content
    rw [← isEvent] at isFailure
    contradiction

/-- What is left after a launch that failed. -/
def refused (adapter : Adapter) (request : Request) (reason : String) : Handled :=
  { adapter :=
      { adapter with
        seq := adapter.seq + 1
        stopOnEntry := adapter.entryAfter request.arguments }
    messages :=
      [{ seq := adapter.seq + 1
         kind := "response"
         content := .response request.seq false "launch" (some reason) none }]
    connected := true }

theorem eq_refused_of_failure {fuel : Nat} {adapter : Adapter} {request : Request}
    {handled : Handled} (isLaunch : request.command = "launch")
    (isHandled : adapter.handle fuel request.files request.seq request.command request.arguments =
      some handled)
    (failed : ∃ message ∈ handled.messages, message.content.isFailure = true) :
    ∃ reason, LaunchFails request.files request.arguments reason ∧
      handled = adapter.refused request reason := by
  obtain ⟨reaction, reacts, rfl⟩ := exists_reaction_of_handle isHandled
  have known : request.command ∈ actions := by
    rw [isLaunch]
    decide
  rcases reacts.success_or_fails known with success | ⟨reason, fails, rfl⟩
  · rw [answer_of_failure failed] at success
    contradiction
  · rw [isLaunch]
    exact ⟨reason, fails, rfl⟩

/-- A launch that fails settles how the current program starts.  It is answered with the reason
and nothing else, and all of the adapter is as before but for its numbering and for whether a
program waits at its entry, which is what the failed launch has asked for if it named a program.
Later requests are all answered as if it had not been made, apart from their numbers, exactly if no
program was launched before or it has asked for what was settled anyway.  In any case this is so of
requests of which none ends the configuration before the next launch of a named program. -/
theorem failed_launch_settles_entry {fuel : Nat} {adapter : Adapter} {request : Request}
    {handled : Handled} (isLaunch : request.command = "launch")
    (isHandled : adapter.handle fuel request.files request.seq request.command request.arguments =
      some handled)
    (failed : ∃ message ∈ handled.messages, message.content.isFailure = true) :
    (∃ reason, LaunchFails request.files request.arguments reason ∧
      handled = adapter.refused request reason) ∧
    ((∀ requests, AnswersAs fuel 1 handled.adapter adapter requests) ↔
      adapter.launched = false ∨ adapter.entryAfter request.arguments = adapter.stopOnEntry) ∧
    ∀ requests, EntryUnread true requests → AnswersAs fuel 1 handled.adapter adapter requests := by
  obtain ⟨reason, fails, rfl⟩ := eq_refused_of_failure isLaunch isHandled failed
  have entryOnly : (adapter.refused request reason).adapter =
      adapter.amend 1 fun _ => adapter.entryAfter request.arguments := rfl
  refine ⟨⟨reason, fails, rfl⟩, ⟨?_, ?_⟩, ?_⟩
  · intro alike
    cases launched : adapter.launched with
    | false => exact .inl rfl
    | true =>
        let finishing : Request :=
          { seq := 0, command := "configurationDone", files := request.files }
        have before : tellsEntry (answers fuel adapter [finishing]) = adapter.stopOnEntry :=
          tellsEntry_configurationDone fuel adapter rfl launched
        have after : tellsEntry (answers fuel (adapter.refused request reason).adapter
            [finishing]) = adapter.entryAfter request.arguments :=
          tellsEntry_configurationDone fuel (adapter.refused request reason).adapter rfl launched
        exact .inr (after.symm.trans ((alike [finishing]).tellsEntry_eq.trans before))
  · rintro (unlaunched | same) requests
    · rw [entryOnly]
      exact (entryUnread_of_not_launched requests).answersAs unlaunched 1 _
    · have shifted : (adapter.refused request reason).adapter = adapter.amend 1 id := by
        simp only [refused, amend, same, id]
      rw [shifted]
      exact answersAs_shift fuel 1 adapter requests
  · intro requests unread
    rw [entryOnly]
    cases launched : adapter.launched with
    | false => exact (entryUnread_of_not_launched requests).answersAs launched 1 _
    | true => exact unread.answersAs launched 1 _

/-- A program that waits at its entry is launched, and then one that is not there. -/
theorem failed_launch_settles_entry_missing :
    let files : FileReader := fun path =>
      if path = "write.x.cod" then .ok (Utf8.encode "LIT 1\nWRITE\nHALT\n".toList)
      else .error .notFound
    let launching : Request :=
      { seq := 1, command := "launch", files,
        arguments := some (.ofMembers [("program", .string "write.x.cod")]) }
    let failing : Request :=
      { seq := 2, command := "launch", files,
        arguments := some (.ofMembers
          [("program", .string "missing.x.cod"), ("stopOnEntry", .bool false)]) }
    ∃ exchanges adapter handled, converse 20 {} [launching] = some (exchanges, adapter) ∧
      adapter.handle 20 files 2 "launch" failing.arguments = some handled ∧
      handled = adapter.refused failing
        "could not read missing.x.cod: No such file or directory (os error 2)" ∧
      ¬ ∀ requests, AnswersAs 20 1 handled.adapter adapter requests := by
  intro files launching failing
  have waits : (converse 20 {} [launching]).map (fun conversation =>
      (conversation.2.launched, conversation.2.stopOnEntry)) = some (true, true) := by
    decide +kernel
  obtain ⟨⟨exchanges, adapter⟩, conversed, isWaiting⟩ := Option.map_eq_some_iff.mp waits
  obtain ⟨launched, entry⟩ := Prod.mk.inj isWaiting
  have isHandled : adapter.handle 20 files 2 "launch" failing.arguments =
      some (adapter.refused failing
        "could not read missing.x.cod: No such file or directory (os error 2)") := by
    rfl
  have asked : adapter.entryAfter failing.arguments = false := rfl
  obtain ⟨-, alike, -⟩ := @failed_launch_settles_entry 20 adapter failing _ rfl isHandled
    ⟨_, List.mem_singleton_self _, rfl⟩
  refine ⟨exchanges, adapter, _, conversed, isHandled, rfl, ?_⟩
  rw [alike, asked, launched, entry]
  decide

/-- The same requests without and with a launch that fails: the program that was to wait at its
entry runs to its end. -/
theorem failed_launch_starts_program :
    let files : FileReader := fun path =>
      if path = "write.x.cod" then .ok (Utf8.encode "LIT 1\nWRITE\nHALT\n".toList)
      else .error .notFound
    let launching : Request :=
      { seq := 1, command := "launch", files,
        arguments := some (.ofMembers [("program", .string "write.x.cod")]) }
    let failing : Request :=
      { seq := 2, command := "launch", files,
        arguments := some (.ofMembers
          [("program", .string "missing.x.cod"), ("stopOnEntry", .bool false)]) }
    let finishing : Request := { seq := 3, command := "configurationDone", files }
    let summary (requests : List Request) :=
      (converse 20 {} requests).map fun conversation =>
        conversation.1.map fun exchange =>
          (exchange.messages.any fun message => message.content.isFailure, exchange.eventNames)
    summary [launching, finishing] = some [(false, []), (false, ["stopped"])] ∧
    summary [launching, failing, finishing] =
      some [(false, []), (true, []), (false, ["output", "exited", "terminated"])] := by
  decide +kernel

end Adapter

end StackDebugger
