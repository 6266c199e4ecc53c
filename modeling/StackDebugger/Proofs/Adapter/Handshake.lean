import StackDebugger.Proofs.Adapter.Conversation
import StackDebugger.Proofs.Debugger.BreakpointStops

/-!
# The order of the handshake

Before a program runs, a client launches it, sets breakpoints and says that it is done with
its configuration.  Breakpoints that are set before the launch are remembered and set in the
new program; those that are set behind it replace these.  Either way the adapter has agreed
to the same when the last two are there, and the program starts with whichever of them comes
second.
-/

namespace StackDebugger

namespace Adapter

theorem Launch.debugger_eq (launch : Launch) (read : FileReader) (program : Program)
    (lines : List Nat) :
    launch.debugger read program lines =
      (launch.debugger read program []).withBreakpoints
        (lines.foldl Breakpoints.arm (Breakpoints.ofProgram program)) := by
  have fresh : (launch.debugger read program []).breakpoints = Breakpoints.ofProgram program := by
    unfold Launch.debugger
    simp only [List.foldl_nil]
    split
    · rfl
    · rfl
  rw [← fresh]
  exact Debugger.foldl_setBreakpoint lines (launch.debugger read program [])

/-- Setting breakpoints anew leaves nothing of those that were set before. -/
theorem Launch.debugger_reset (launch : Launch) (read : FileReader) (program : Program)
    (before lines : List Nat) :
    lines.foldl Debugger.setBreakpoint
        (launch.debugger read program before).clearBreakpoints =
      launch.debugger read program lines := by
  have cleared := (Breakpoints.ofProgram program).clear_foldl_arm before
  rw [Debugger.foldl_setBreakpoint, launch.debugger_eq read program before,
    launch.debugger_eq read program lines]
  simp only [Debugger.clearBreakpoints, Debugger.withBreakpoints, cleared]
  rfl

/-- An adapter with breakpoints asked for, and perhaps a program launched and the
configuration done. -/
def agreed (launch : Launch) (files : FileReader) (program : Program) (lines : List Nat)
    (launched configured : Bool) (seq : Nat) : Adapter :=
  match launched with
  | false => { seq, requested := lines, configured }
  | true =>
      { seq
        debugger := some (launch.debugger files program lines)
        sourcePath := some launch.source
        stopOnEntry := launch.stopOnEntry
        launched := true
        configured }

/-- The last request in which breakpoints are set asks for the given lines. -/
structure SetsBreakpoints (lines : List Nat) (requests : List Request) : Prop where
  only : ∀ request ∈ requests, request.command = "setBreakpoints"
  last : requests.getLast?.map (fun request => requestedLines request.arguments) = some lines

def Request.IsLaunch (arguments : Option Json) (files : FileReader) (request : Request) : Prop :=
  request.command = "launch" ∧ request.arguments = arguments ∧ request.files = files

/-- A launch, the end of the configuration and requests for breakpoints, in any order in
which the requests for breakpoints come before the second of the other two. -/
inductive Handshake (arguments : Option Json) (files : FileReader) (lines : List Nat) :
    List Request → Prop where
  | launchedFirst {before between : List Request} {launching finishing : Request} :
      launching.IsLaunch arguments files → finishing.command = "configurationDone" →
      SetsBreakpoints lines (before ++ between) →
      Handshake arguments files lines (before ++ launching :: (between ++ [finishing]))
  | configuredFirst {before between : List Request} {launching finishing : Request} :
      launching.IsLaunch arguments files → finishing.command = "configurationDone" →
      SetsBreakpoints lines (before ++ between) →
      Handshake arguments files lines (before ++ finishing :: (between ++ [launching]))

/-- What was sent behind the response of an exchange, without its numbers. -/
def Exchange.reports (exchange : Exchange) : List (String × Content) :=
  exchange.messages.tail.map fun message => (message.kind, message.content)

theorem converse_cons_of_reacts {fuel : Nat} {adapter : Adapter} {request : Request}
    {reaction : Reaction}
    (reacts : Reacts fuel request.files adapter request.arguments request.command (some reaction))
    (rest : List Request) :
    ∃ seq exchange,
      converse fuel adapter (request :: rest) =
        (converse fuel { reaction.adapter with seq } rest).map (fun (later, last) =>
          (exchange :: later, last)) ∧
      exchange.reports =
        reaction.events.map fun event => ("event", .event event.name event.body) := by
  rw [converse, reacts.handle_eq]
  refine ⟨_, _, rfl, ?_⟩
  exact map_eventMessages Prod.mk _ reaction.events

/-- What the request leads to with which an adapter has agreed to everything. -/
def beginning (fuel : Nat) (launch : Launch) (files : FileReader) (program : Program)
    (lines : List Nat) (seq : Nat) : Option Reaction :=
  (agreed launch files program lines true true seq).carryOn {}
    (startReport fuel true launch.stopOnEntry (some (launch.debugger files program lines)))

section Agreed

variable {launch : Launch} {files : FileReader} {program : Program} {lines : List Nat}
  {launched configured : Bool} {seq fuel : Nat}

theorem agreed_withSeq (other : Nat) :
    { agreed launch files program lines launched configured seq with seq := other } =
      agreed launch files program lines launched configured other := by
  cases launched with
  | false => rfl
  | true => rfl

theorem replaceBreakpoints_agreed (asked : List Nat) :
    (agreed launch files program lines launched configured seq).replaceBreakpoints asked =
      agreed launch files program asked launched configured seq := by
  cases launched with
  | false => rfl
  | true =>
      have reset := launch.debugger_reset files program lines asked
      simp only [agreed, replaceBreakpoints, reset]

/-- Of the requests for breakpoints the last one counts. -/
theorem converse_setBreakpoints {requests : List Request}
    (only : ∀ request ∈ requests, request.command = "setBreakpoints") :
    ∃ exchanges next,
      converse fuel (agreed launch files program lines launched configured seq) requests =
        some (exchanges, agreed launch files program
          ((requests.getLast?.map fun request => requestedLines request.arguments).getD lines)
          launched configured next) := by
  induction requests generalizing lines seq with
  | nil => exact ⟨[], seq, rfl⟩
  | cons request requests ih =>
      have ⟨first, others⟩ := List.forall_mem_cons.mp only
      have reacts := @Reacts.setsBreakpoints fuel request.files
        (agreed launch files program lines launched configured seq) request.arguments
      rw [replaceBreakpoints_agreed, ← first] at reacts
      obtain ⟨next, exchange, conversed, -⟩ := converse_cons_of_reacts reacts requests
      rw [agreed_withSeq] at conversed
      obtain ⟨later, last, isLater⟩ := @ih (requestedLines request.arguments) next others
      rw [isLater] at conversed
      refine ⟨exchange :: later, last, conversed.trans ?_⟩
      rw [List.getLast?_cons]
      cases requests.getLast? with
      | none => rfl
      | some final => rfl

theorem launch_agreed {arguments : Option Json} {loaded : LoadedProgram}
    (isLaunch : Launch.ofArguments? arguments = some launch)
    (loads : files.loadProgram .debug launch.program = .ok loaded) :
    Reacts fuel files (agreed launch files loaded.program lines false configured seq) arguments
      "launch"
      (if configured then beginning fuel launch files loaded.program lines seq
        else some { adapter := agreed launch files loaded.program lines true false seq }) := by
  refine .launches isLaunch loads ?_
  cases configured with
  | false => rfl
  | true => rfl

theorem configure_agreed (read : FileReader) (arguments : Option Json) :
    Reacts fuel read (agreed launch files program lines launched false seq) arguments
      "configurationDone"
      (if launched then beginning fuel launch files program lines seq
        else some { adapter := agreed launch files program lines false true seq }) := by
  refine .configures ?_
  cases launched with
  | false => rfl
  | true => rfl

end Agreed

/-- What is reported when a launched program starts, and what is left then. -/
def opening (fuel : Nat) (launch : Launch) (debugger : Debugger) :
    Option (List Event × Debugger) :=
  if launch.stopOnEntry then some ([Event.stopped "entry"], debugger)
  else
    (debugger.resume fuel).map fun (outcome, ended) =>
      (Event.programOutput ended.deliver.1 ++ Event.ofOutcome outcome, ended.deliver.2)

theorem startReport_eq_opening (fuel : Nat) (launch : Launch) (debugger : Debugger) :
    startReport fuel true launch.stopOnEntry (some debugger) =
      (opening fuel launch debugger).map fun (events, opened) => (events, some opened) := by
  rw [startReport, if_pos rfl, opening]
  split
  · rfl
  · rw [runReport, Option.map_map]
    rfl

theorem breakpoints_of_opening {fuel : Nat} {launch : Launch} {debugger opened : Debugger}
    {events : List Event} (isOpened : opening fuel launch debugger = some (events, opened)) :
    opened.breakpoints = debugger.breakpoints := by
  unfold opening at isOpened
  split at isOpened
  · obtain ⟨-, rfl⟩ := Prod.mk.inj (Option.some.inj isOpened)
    rfl
  · obtain ⟨⟨outcome, ended⟩, resumed, equal⟩ := Option.map_eq_some_iff.mp isOpened
    obtain ⟨-, rfl⟩ := Prod.mk.inj equal
    have kept := Debugger.breakpoints_of_resume resumed
    exact kept

theorem resume_of_opening_eq_none {fuel : Nat} {launch : Launch} {debugger : Debugger}
    (unopened : opening fuel launch debugger = none) :
    launch.stopOnEntry = false ∧ debugger.resume fuel = none := by
  unfold opening at unopened
  split at unopened
  · contradiction
  · next goes => exact ⟨Bool.eq_false_iff.mpr goes, Option.map_eq_none_iff.mp unopened⟩

/-- A conversation has ended with the start of a launched program. -/
structure Opens (launch : Launch) (opened : List Event × Debugger)
    (conversation : List Exchange × Adapter) : Prop where
  adapter : ∃ seq, conversation.2 =
    { seq
      debugger := some opened.2
      sourcePath := some launch.source
      stopOnEntry := launch.stopOnEntry
      launched := true
      configured := true }
  reports : conversation.1.getLast?.map Exchange.reports =
    some (opened.1.map fun event => ("event", .event event.name event.body))

theorem Opens.alike {launch : Launch} {opened : List Event × Debugger}
    {left right : List Exchange × Adapter} (opens : Opens launch opened left)
    (alsoOpens : Opens launch opened right) :
    { left.2 with seq := 0 } = { right.2 with seq := 0 } ∧
      left.1.getLast?.map Exchange.reports = right.1.getLast?.map Exchange.reports := by
  obtain ⟨seq, isLeft⟩ := opens.adapter
  obtain ⟨other, isRight⟩ := alsoOpens.adapter
  refine ⟨?_, opens.reports.trans alsoOpens.reports.symm⟩
  rw [isLeft, isRight]

theorem opens_prepend {launch : Launch} {opened : Option (List Event × Debugger)}
    {conversation : Option (List Exchange × Adapter)} (earlier : List Exchange)
    (opens : Option.Rel (Opens launch) opened conversation) :
    Option.Rel (Opens launch) opened
      (conversation.map fun (later, last) => (earlier ++ later, last)) := by
  cases opens with
  | none => exact .none
  | @some opened conversation opens =>
      apply Option.Rel.some
      refine ⟨opens.adapter, ?_⟩
      have reports := opens.reports
      obtain ⟨final, isFinal, -⟩ := Option.map_eq_some_iff.mp reports
      rw [isFinal] at reports
      rw [List.getLast?_append, isFinal, Option.some_or]
      exact reports

theorem opens_of_reacts {fuel seq : Nat} {launch : Launch} {files : FileReader}
    {program : Program} {lines : List Nat} {adapter : Adapter} {request : Request}
    (reacts : Reacts fuel request.files adapter request.arguments request.command
      (beginning fuel launch files program lines seq)) :
    Option.Rel (Opens launch) (opening fuel launch (launch.debugger files program lines))
      (converse fuel adapter [request]) := by
  rw [beginning, startReport_eq_opening] at reacts
  cases isOpened : opening fuel launch (launch.debugger files program lines) with
  | none =>
      rw [isOpened] at reacts
      rw [converse, reacts.handle_eq]
      exact .none
  | some opened =>
      rw [isOpened] at reacts
      obtain ⟨next, exchange, conversed, reports⟩ := converse_cons_of_reacts reacts []
      rw [conversed]
      apply Option.Rel.some
      refine ⟨⟨next, rfl⟩, ?_⟩
      exact congrArg some reports

theorem SetsBreakpoints.lines_eq {lines : List Nat} {before between : List Request}
    (sets : SetsBreakpoints lines (before ++ between)) :
    (between.getLast?.map fun request => requestedLines request.arguments).getD
      ((before.getLast?.map fun request => requestedLines request.arguments).getD []) = lines := by
  have last := sets.last
  rw [List.getLast?_append] at last
  cases isLast : between.getLast? with
  | none =>
      rw [isLast, Option.none_or] at last
      rw [last]
      rfl
  | some request =>
      rw [isLast] at last
      exact Option.some.inj last

/-- Breakpoints may be set before and between two requests of which the first is noted and
the second starts the program. -/
theorem SetsBreakpoints.opens {fuel : Nat} {launch : Launch} {files : FileReader}
    {program : Program} {lines : List Nat} {launched configured : Bool}
    {before between : List Request} {first second : Request}
    (sets : SetsBreakpoints lines (before ++ between))
    (noted : ∀ lines seq,
      Reacts fuel first.files (agreed launch files program lines false false seq) first.arguments
        first.command
        (some { adapter := agreed launch files program lines launched configured seq }))
    (started : ∀ lines seq,
      Reacts fuel second.files (agreed launch files program lines launched configured seq)
        second.arguments second.command (beginning fuel launch files program lines seq)) :
    Option.Rel (Opens launch) (opening fuel launch (launch.debugger files program lines))
      (converse fuel {} (before ++ first :: (between ++ [second]))) := by
  have ⟨onlyBefore, onlyBetween⟩ := List.forall_mem_append.mp sets.only
  obtain ⟨earlier, seq, isEarlier⟩ := @converse_setBreakpoints launch files program [] false false
    0 fuel before onlyBefore
  obtain ⟨next, exchange, isNoted, -⟩ := converse_cons_of_reacts (noted _ seq)
    (between ++ [second])
  rw [agreed_withSeq] at isNoted
  obtain ⟨later, last, isLater⟩ := @converse_setBreakpoints launch files program
    ((before.getLast?.map fun request => requestedLines request.arguments).getD []) launched
    configured next fuel between onlyBetween
  rw [sets.lines_eq] at isLater
  rw [converse_append isLater] at isNoted
  change Option.Rel _ _ (converse fuel (agreed launch files program [] false false 0) _)
  rw [converse_append isEarlier, isNoted]
  apply opens_prepend
  apply opens_prepend [exchange]
  apply opens_prepend
  exact opens_of_reacts (started lines last)

/-- Every handshake ends with the same start of the program. -/
theorem Handshake.opens {fuel : Nat} {arguments : Option Json} {files : FileReader}
    {lines : List Nat} {launch : Launch} {loaded : LoadedProgram} {requests : List Request}
    (handshake : Handshake arguments files lines requests)
    (isLaunch : Launch.ofArguments? arguments = some launch)
    (loads : files.loadProgram .debug launch.program = .ok loaded) :
    Option.Rel (Opens launch) (opening fuel launch (launch.debugger files loaded.program lines))
      (converse fuel {} requests) := by
  cases handshake with
  | @launchedFirst before between launching finishing isLaunching isFinishing sets =>
      obtain ⟨isCommand, rfl, rfl⟩ := isLaunching
      apply @SetsBreakpoints.opens fuel launch _ _ _ true false _ _ _ _ sets
      · intro lines seq
        rw [isCommand]
        exact launch_agreed isLaunch loads
      · intro lines seq
        rw [isFinishing]
        exact configure_agreed _ _
  | @configuredFirst before between launching finishing isLaunching isFinishing sets =>
      obtain ⟨isCommand, rfl, rfl⟩ := isLaunching
      apply @SetsBreakpoints.opens fuel launch _ _ _ false true _ _ _ _ sets
      · intro lines seq
        rw [isFinishing]
        exact configure_agreed _ _
      · intro lines seq
        rw [isCommand]
        exact launch_agreed isLaunch loads

/-- The order of the handshake does not matter.  Any two handshakes about the same launch and
the same lines end with the same adapter, apart from its numbering, and with the same reports
of the second of launch and configuration, unless the first run of the program does not
return.  The breakpoints in the end are those lines asked for that the program marks. -/
theorem handshake_order {fuel : Nat} {arguments : Option Json} {files : FileReader}
    {lines : List Nat} {launch : Launch} {loaded : LoadedProgram} {first second : List Request}
    (isLaunch : Launch.ofArguments? arguments = some launch)
    (loads : files.loadProgram .debug launch.program = .ok loaded)
    (isFirst : Handshake arguments files lines first)
    (isSecond : Handshake arguments files lines second) :
    Option.Rel
      (fun left right : List Exchange × Adapter =>
        { left.2 with seq := 0 } = { right.2 with seq := 0 } ∧
        left.1.getLast?.map Exchange.reports = right.1.getLast?.map Exchange.reports)
      (converse fuel {} first) (converse fuel {} second) ∧
    (converse fuel {} first = none →
      launch.stopOnEntry = false ∧
      (launch.debugger files loaded.program lines).resume fuel = none) ∧
    ∀ exchanges last, converse fuel {} first = some (exchanges, last) →
      last.sourcePath = some launch.source ∧ last.stopOnEntry = launch.stopOnEntry ∧
      last.requested = [] ∧ last.launched = true ∧ last.configured = true ∧
      ∃ debugger, last.debugger = some debugger ∧
        ∀ line, debugger.breakpoints.isArmed line = true ↔
          line ∈ lines ∧ ∃ index, loaded.program.fetch? index = some (.line (some line)) := by
  have firstOpens := @Handshake.opens fuel _ _ _ _ _ _ isFirst isLaunch loads
  have secondOpens := @Handshake.opens fuel _ _ _ _ _ _ isSecond isLaunch loads
  generalize isOpened : opening fuel launch (launch.debugger files loaded.program lines) = opened
    at firstOpens secondOpens
  generalize converse fuel {} first = left at firstOpens ⊢
  generalize converse fuel {} second = right at secondOpens ⊢
  cases firstOpens with
  | none =>
      cases secondOpens with
      | none =>
          refine ⟨.none, fun _ => resume_of_opening_eq_none isOpened, ?_⟩
          intro exchanges last conversed
          contradiction
  | @some opened conversation opens =>
      cases secondOpens with
      | some alsoOpens =>
          refine ⟨.some (opens.alike alsoOpens), by simp, ?_⟩
          rintro exchanges last ⟨⟩
          obtain ⟨seq, isLast⟩ := opens.adapter
          have kept := breakpoints_of_opening isOpened
          obtain rfl : last = _ := isLast
          refine ⟨rfl, rfl, rfl, rfl, rfl, opened.2, rfl, ?_⟩
          intro line
          rw [kept, launch.debugger_eq]
          exact Breakpoints.isArmed_ofProgram

/-- Breakpoints that are replaced behind the launch, and breakpoints that are set before it,
where one of the lines asked for is not marked. -/
theorem handshake_order_marked :
    let files : FileReader := fun _ =>
      .ok (Utf8.encode "LINE 1\nLIT 7\nWRITE\nLINE 3\nLIT 8\nWRITE\n".toList)
    let arguments : Option Json :=
      some (.ofMembers [("program", .string "count.x.cod"), ("stopOnEntry", .bool false)])
    let setting (lines : List Nat) : Request :=
      { seq := 1, command := "setBreakpoints", files,
        arguments := some (.ofMembers
          [("breakpoints", .array (lines.map fun line => .ofMembers [("line", .nat line)]))]) }
    let launching : Request := { seq := 2, command := "launch", files, arguments }
    let finishing : Request := { seq := 3, command := "configurationDone", files }
    ∃ exchanges last others final debugger,
      converse 20 {} [setting [1], launching, setting [3, 2], finishing] =
        some (exchanges, last) ∧
      converse 20 {} [finishing, setting [3, 2], launching] = some (others, final) ∧
      { last with seq := 0 } = { final with seq := 0 } ∧
      exchanges.getLast?.map Exchange.reports = others.getLast?.map Exchange.reports ∧
      (exchanges.getLast?.map fun exchange => exchange.reports.length) = some 2 ∧
      last.debugger = some debugger ∧
      ∀ line, debugger.breakpoints.isArmed line = true → line ∈ [3, 2] := by
  intro files arguments setting launching finishing
  have loadable : ((Launch.ofArguments? arguments).bind fun launch =>
      (files.loadProgram .debug launch.program).toOption).isSome := by
    decide +kernel
  obtain ⟨loaded, isLoadable⟩ := Option.isSome_iff_exists.mp loadable
  obtain ⟨launch, isLaunch, isLoaded⟩ := Option.bind_eq_some_iff.mp isLoadable
  have loads : files.loadProgram .debug launch.program = .ok loaded := by
    cases result : files.loadProgram .debug launch.program with
    | error error => simp [result, Except.toOption] at isLoaded
    | ok program => simpa [result, Except.toOption] using isLoaded
  have replaces : SetsBreakpoints [3, 2] ([setting [1]] ++ [setting [3, 2]]) :=
    ⟨by simp [setting], by decide +kernel⟩
  have sets : SetsBreakpoints [3, 2] ([] ++ [setting [3, 2]]) :=
    ⟨by simp [setting], by decide +kernel⟩
  have launches : launching.IsLaunch arguments files := ⟨rfl, rfl, rfl⟩
  have finishes : finishing.command = "configurationDone" := rfl
  have isFirst : Handshake arguments files [3, 2]
      [setting [1], launching, setting [3, 2], finishing] :=
    .launchedFirst launches finishes replaces
  have isSecond : Handshake arguments files [3, 2] [finishing, setting [3, 2], launching] :=
    .configuredFirst launches finishes sets
  have checked : (converse 20 {} [setting [1], launching, setting [3, 2], finishing]).map
      (fun conversation => conversation.1.getLast?.map fun exchange => exchange.reports.length) =
        some (some 2) := by
    decide +kernel
  obtain ⟨⟨exchanges, last⟩, conversed, counted⟩ := Option.map_eq_some_iff.mp checked
  obtain ⟨alike, -, settled⟩ := handshake_order isLaunch loads isFirst isSecond
  obtain ⟨-, -, -, -, -, debugger, isDebugger, armed⟩ := settled exchanges last conversed
  rw [conversed] at alike
  generalize isOther : converse 20 {} [finishing, setting [3, 2], launching] = other at alike
  cases alike with
  | @some _ other alike =>
      exact ⟨exchanges, last, other.1, other.2, debugger, conversed, rfl, alike.1, alike.2,
        counted, isDebugger, fun line isArmed => ((armed line).mp isArmed).1⟩

end Adapter

end StackDebugger
