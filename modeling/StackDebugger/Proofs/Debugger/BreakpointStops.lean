import StackDebugger.Proofs.Debugger.PlainBuild

/-!
# Stops at breakpoints

A program that is resumed again and again stops at a breakpoint exactly where an
uninterrupted run of it reaches a line with one.  `linesReached` lists the lines that
a run reaches, each with the debugger just behind it.  One step of a run with
breakpoints is compared with the same step of the uninterrupted run: they agree,
except that a line with a breakpoint pauses the first.
-/

namespace StackDebugger

theorem LineSet.mem_ofLines {line : Nat} {lines : List Nat} :
    line ∈ LineSet.ofLines lines ↔ line ∈ lines := by
  have folded : ∀ (set : LineSet),
      line ∈ lines.foldl (fun set line => insert line set) set ↔ line ∈ lines ∨ line ∈ set := by
    induction lines with
    | nil => simp
    | cons first lines ih =>
        intro set
        rw [List.foldl_cons, ih, mem_insert, List.mem_cons]
        tauto
  rw [ofLines, folded]
  simp

theorem Program.mem_markedLines {program : Program} {line : Nat} :
    line ∈ program.markedLines ↔ ∃ index, program.fetch? index = some (.line (some line)) := by
  rw [markedLines, LineSet.mem_ofLines, List.mem_filterMap]
  constructor
  · rintro ⟨instruction, member, marked⟩
    obtain ⟨index, fetched⟩ := List.mem_iff_getElem?.mp member
    obtain rfl : instruction = .line (some line) := by
      cases instruction with
      | line number =>
          obtain rfl : number = some line := marked
          rfl
      | _ => contradiction
    exact ⟨index, by simpa [fetch?] using fetched⟩
  · rintro ⟨index, fetched⟩
    refine ⟨.line (some line), List.mem_iff_getElem?.mpr ⟨index, ?_⟩, rfl⟩
    simpa [fetch?] using fetched

namespace Breakpoints

theorem isArmed_arm {breakpoints : Breakpoints} {line other : Nat} :
    (breakpoints.arm line).isArmed other = true ↔
      breakpoints.isArmed other = true ∨ (other = line ∧ breakpoints.isValid line = true) := by
  by_cases valid : breakpoints.isValid line = true
  · simp [arm, valid, isArmed, or_comm]
  · simp [arm, valid]

@[simp] theorem isValid_arm (breakpoints : Breakpoints) (line other : Nat) :
    (breakpoints.arm line).isValid other = breakpoints.isValid other := by
  unfold arm
  split <;> rfl

theorem isArmed_foldl_arm {breakpoints : Breakpoints} {lines : List Nat} {line : Nat} :
    (lines.foldl arm breakpoints).isArmed line = true ↔
      breakpoints.isArmed line = true ∨ (line ∈ lines ∧ breakpoints.isValid line = true) := by
  induction lines generalizing breakpoints with
  | nil => simp
  | cons first lines ih =>
      rw [List.foldl_cons, ih, isArmed_arm, isValid_arm, List.mem_cons]
      constructor
      · rintro ((armed | ⟨rfl, valid⟩) | ⟨member, valid⟩)
        · exact .inl armed
        · exact .inr ⟨.inl rfl, valid⟩
        · exact .inr ⟨.inr member, valid⟩
      · rintro (armed | ⟨rfl | member, valid⟩)
        · exact .inl (.inl armed)
        · exact .inl (.inr ⟨rfl, valid⟩)
        · exact .inr ⟨member, valid⟩

theorem clear_foldl_arm (breakpoints : Breakpoints) (lines : List Nat) :
    (lines.foldl arm breakpoints).clear = breakpoints.clear := by
  induction lines generalizing breakpoints with
  | nil => rfl
  | cons line lines ih =>
      rw [List.foldl_cons, ih]
      unfold arm
      split
      · rfl
      · rfl

theorem isArmed_ofProgram {program : Program} {lines : List Nat} {line : Nat} :
    (lines.foldl arm (ofProgram program)).isArmed line = true ↔
      line ∈ lines ∧ ∃ index, program.fetch? index = some (.line (some line)) := by
  have valid : (ofProgram program).isValid line = true ↔
      ∃ index, program.fetch? index = some (.line (some line)) := by
    rw [isValid, List.contains_iff_mem]
    exact Program.mem_markedLines
  have unarmed : ¬ (ofProgram program).isArmed line = true := Bool.false_ne_true
  rw [isArmed_foldl_arm, valid]
  simp [unarmed]

end Breakpoints

namespace Debugger

def withBreakpoints (debugger : Debugger) (breakpoints : Breakpoints) : Debugger :=
  { debugger with breakpoints }

/-- A running debugger as a breakpoint leaves it. -/
def paused (debugger : Debugger) (breakpoints : Breakpoints) : Debugger :=
  (debugger.withState { debugger.state with running := false }).withBreakpoints breakpoints

theorem foldl_setBreakpoint (lines : List Nat) (debugger : Debugger) :
    lines.foldl setBreakpoint debugger =
      debugger.withBreakpoints (lines.foldl Breakpoints.arm debugger.breakpoints) := by
  induction lines generalizing debugger with
  | nil => rfl
  | cons line lines ih =>
      rw [List.foldl_cons, ih]
      rfl

theorem breakpoints_of_advance (debugger : Debugger) :
    debugger.advance.debugger.breakpoints = debugger.breakpoints := by
  rcases debugger.advance_cases with ⟨-, advanced⟩ | ⟨instruction, next, -, carried, advanced⟩ |
    ⟨instruction, fault, failed, -, carried, advanced⟩
  · rw [advanced]
    rfl
  · obtain ⟨running, hit, mode, judged⟩ := next.exists_judge_debugger_eq
    rw [advanced, judged]
    exact (carriedOut_of_run_eq_ok carried).breakpoints
  · obtain ⟨stack, terminal, -, rfl⟩ := eq_of_run_eq_error carried
    rw [advanced]
    rfl

theorem breakpoints_of_proceed {debugger final : Debugger} {fuel : Nat} {outcome : Outcome}
    (ended : debugger.proceed fuel = some (outcome, final)) :
    final.breakpoints = debugger.breakpoints := by
  induction fuel generalizing debugger with
  | zero => simp [proceed] at ended
  | succ fuel ih =>
      have advanced := debugger.breakpoints_of_advance
      rw [proceed] at ended
      split at ended
      · next isGoing =>
          rw [isGoing] at advanced
          exact (ih ended).trans advanced
      · next isStopped =>
          obtain ⟨-, rfl⟩ := Prod.mk.inj (Option.some.inj ended)
          rw [isStopped] at advanced
          exact advanced

theorem breakpoints_of_resume {debugger final : Debugger} {fuel : Nat} {outcome : Outcome}
    (ended : debugger.resume fuel = some (outcome, final)) :
    final.breakpoints = debugger.breakpoints := by
  unfold resume at ended
  split at ended
  · obtain ⟨-, rfl⟩ := Prod.mk.inj (Option.some.inj ended)
    rfl
  · exact @breakpoints_of_proceed debugger.setRunning final fuel outcome ended

/-- The line that the next instruction marks, with the debugger behind it. -/
def lineReached? (debugger : Debugger) : Option (Nat × Debugger) :=
  match (debugger.machine.program.fetch? debugger.state.pc).bind Program.markedLine? with
  | some line => some (line, debugger.advance.debugger)
  | none => none

/-- The lines that a run of at most so many instructions reaches, each with the
debugger just behind it. -/
def linesReached : Nat → Debugger → List (Nat × Debugger)
  | 0, _ => []
  | fuel + 1, debugger =>
      debugger.lineReached?.toList ++
        match debugger.advance with
        | .going next => linesReached fuel next
        | .stopped _ _ => []

/-- A run that nothing has disturbed is under way. -/
structure Underway (debugger : Debugger) : Prop where
  undisturbed : Undisturbed debugger
  untraced : debugger.tracing = false
  going : debugger.isDone = false
  running : debugger.state.running = true

theorem Undisturbed.advance {debugger next : Debugger} (undisturbed : Undisturbed debugger)
    (isGoing : debugger.advance = .going next) : Undisturbed next := by
  rcases debugger.advance_cases with ⟨-, advanced⟩ | ⟨_, carried, -, isCarried, advanced⟩ |
    ⟨_, _, _, -, -, advanced⟩
  · simp [advanced] at isGoing
  · obtain ⟨-, -, -, rfl⟩ := judge_eq_going_iff.mp (advanced.symm.trans isGoing)
    exact undisturbed.carriedOut (carriedOut_of_run_eq_ok isCarried)
  · simp [advanced] at isGoing

theorem Underway.advance {debugger next : Debugger} (underway : Underway debugger)
    (isGoing : debugger.advance = .going next) : Underway next := by
  have inStep : InStep debugger debugger.setRunning.machine :=
    ⟨underway.untraced, underway.going, rfl, rfl⟩
  have follows := inStep.advance underway.running
  rw [isGoing] at follows
  obtain ⟨running, _, _, nextInStep⟩ := follows
  exact ⟨underway.undisturbed.advance isGoing, nextInStep.untraced, nextInStep.going, running⟩

theorem lineReached?_of_fetch? {debugger : Debugger} {instruction : Instruction Jump}
    (fetched : debugger.machine.program.fetch? debugger.state.pc = some instruction)
    (breakpoints : Breakpoints) :
    (debugger.lineReached?.filter fun stop => breakpoints.isArmed stop.1) =
      (instruction.armedLine? breakpoints).map fun line => (line, debugger.advance.debugger) := by
  have reached : debugger.lineReached? =
      (Program.markedLine? instruction).map fun line => (line, debugger.advance.debugger) := by
    rw [lineReached?, fetched, Option.bind_some]
    cases Program.markedLine? instruction <;> rfl
  rw [reached]
  cases instruction with
  | line number =>
      cases number with
      | none => rfl
      | some number =>
          by_cases armed : breakpoints.isArmed number = true
          · simp [Program.markedLine?, Instruction.armedLine?, armed]
          · simp [Program.markedLine?, Instruction.armedLine?, armed]
  | _ => rfl

theorem judge_of_unhit {debugger : Debugger} (unhit : debugger.hit = none)
    (mode : debugger.mode = .untilBreakpoint) :
    debugger.judge =
      if debugger.isDone then .stopped (.ok .halted) debugger else .going debugger := by
  unfold judge
  rw [unhit, mode]
  rfl

theorem judge_of_hit {debugger : Debugger} (going : debugger.isDone = false)
    (unhit : debugger.hit = none) (mode : debugger.mode = .untilBreakpoint) (line : Nat) :
    judge { debugger with hit := some line } = .stopped (.ok (.breakpoint line)) debugger := by
  have stopped := @judge_of_breakpoint { debugger with hit := some line } line going rfl
  rw [stopped, ← unhit, ← mode]

/-- A line of the source is passed without a fault. -/
theorem exists_step_of_armedLine? {program : Program} {state : State}
    {instruction : Instruction Jump} {breakpoints : Breakpoints} {line : Nat}
    (fetched : program.fetch? state.pc = some instruction)
    (armed : instruction.armedLine? breakpoints = some line) :
    ∃ stepped, (State.step program).run state = .ok () stepped ∧
      stepped.halted = state.halted := by
  cases instruction with
  | line number =>
      refine ⟨_, State.run_step_of_some fetched, ?_⟩
      exact congrArg Switches.halted (Instruction.switches_shown (.line number) state)
  | _ => simp [Instruction.armedLine?] at armed

/-- The debugger behind an instruction that the machine has carried out. -/
def behind (debugger : Debugger) (instruction : Instruction Jump) (stepped : State) : Debugger :=
  { debugger.withState stepped with
    activations := instruction.track stepped.stack debugger.activations }

section Step

variable {debugger : Debugger} {instruction : Instruction Jump} {breakpoints : Breakpoints}

theorem Undisturbed.armedLine?_eq_none (undisturbed : Undisturbed debugger)
    (instruction : Instruction Jump) :
    instruction.armedLine? debugger.breakpoints = none := by
  unfold Instruction.armedLine?
  split
  · simp [Breakpoints.isArmed, undisturbed.disarmed]
  · rfl

/-- With any breakpoints, an instruction is carried out as the machine does it. -/
theorem Underway.run_carryOut (underway : Underway debugger)
    (fetched : debugger.machine.program.fetch? debugger.state.pc = some instruction)
    (breakpoints : Breakpoints) :
    (carryOut instruction).run (debugger.withBreakpoints breakpoints) =
      match (State.step debugger.machine.program).run debugger.state with
      | .error fault failed =>
          .error fault ((debugger.withState failed).withBreakpoints breakpoints)
      | .ok _ stepped =>
          match instruction.armedLine? breakpoints with
          | some line =>
              .ok () { (debugger.behind instruction stepped).paused breakpoints with
                hit := some line }
          | none => .ok () ((debugger.behind instruction stepped).withBreakpoints breakpoints) := by
  let held := debugger.withBreakpoints breakpoints
  have untraced : held.tracing = false := underway.untraced
  have carried := run_carryOut_of_untraced untraced fetched
  refine carried.trans ?_
  change (match (State.step debugger.machine.program).run debugger.state with
    | .error fault failed => _
    | .ok _ stepped => _) = _
  cases (State.step debugger.machine.program).run debugger.state with
  | error fault failed => rfl
  | ok value stepped =>
      have heldBreakpoints : held.breakpoints = breakpoints := rfl
      simp only [heldBreakpoints, Instruction.interrupt]
      cases instruction.armedLine? breakpoints with
      | none => rfl
      | some line => rfl

theorem Underway.advance_of_step {stepped : State} {value : Unit} (underway : Underway debugger)
    (fetched : debugger.machine.program.fetch? debugger.state.pc = some instruction)
    (isStep : (State.step debugger.machine.program).run debugger.state = .ok value stepped)
    (unarmed : instruction.armedLine? breakpoints = none) :
    (debugger.withBreakpoints breakpoints).advance =
      if stepped.halted then
        .stopped (.ok .halted) ((debugger.behind instruction stepped).withBreakpoints breakpoints)
      else .going ((debugger.behind instruction stepped).withBreakpoints breakpoints) := by
  have carried := underway.run_carryOut fetched breakpoints
  rw [isStep, unarmed] at carried
  rw [advance_of_carryOut carried fetched]
  exact judge_of_unhit underway.undisturbed.hit underway.undisturbed.mode

/-- Where a line with a breakpoint comes next, a run with breakpoints is paused behind
it, and the uninterrupted run goes on. -/
theorem Underway.advance_of_armed {line : Nat} (underway : Underway debugger)
    (fetched : debugger.machine.program.fetch? debugger.state.pc = some instruction)
    (armed : instruction.armedLine? breakpoints = some line) :
    ∃ next, debugger.advance = .going next ∧
      (debugger.withBreakpoints breakpoints).advance =
        .stopped (.ok (.breakpoint line)) (next.paused breakpoints) := by
  obtain ⟨stepped, isStep, sameHalted⟩ := exists_step_of_armedLine? fetched armed
  have notHalted : stepped.halted = false := sameHalted.trans underway.going
  refine ⟨debugger.behind instruction stepped, ?_, ?_⟩
  · have disarmed := underway.undisturbed.armedLine?_eq_none instruction
    refine (underway.advance_of_step fetched isStep disarmed).trans ?_
    rw [notHalted]
    rfl
  · have carried := underway.run_carryOut fetched breakpoints
    rw [isStep, armed] at carried
    rw [advance_of_carryOut carried fetched]
    have going : ((debugger.behind instruction stepped).paused breakpoints).isDone = false :=
      notHalted
    exact judge_of_hit going underway.undisturbed.hit underway.undisturbed.mode line

/-- Elsewhere the two runs do the same. -/
theorem Underway.advance_of_unarmed (underway : Underway debugger)
    (unarmed : ∀ instruction,
      debugger.machine.program.fetch? debugger.state.pc = some instruction →
        instruction.armedLine? breakpoints = none) :
    (debugger.withBreakpoints breakpoints).advance =
      match debugger.advance with
      | .going next => .going (next.withBreakpoints breakpoints)
      | .stopped outcome final => .stopped outcome (final.withBreakpoints breakpoints) := by
  cases fetched : debugger.machine.program.fetch? debugger.state.pc with
  | none =>
      have stops : debugger.advance = .stopped (.ok .halted) debugger.turnOff :=
        advance_of_end fetched
      rw [stops]
      exact advance_of_end fetched
  | some instruction =>
      have disarmed := underway.undisturbed.armedLine?_eq_none instruction
      cases isStep : (State.step debugger.machine.program).run debugger.state with
      | ok value stepped =>
          have plain : debugger.advance = _ := underway.advance_of_step fetched isStep disarmed
          rw [plain, underway.advance_of_step fetched isStep (unarmed _ fetched)]
          split <;> rfl
      | error fault failed =>
          have plain : (carryOut instruction).run debugger = _ :=
            underway.run_carryOut fetched debugger.breakpoints
          have carried := underway.run_carryOut fetched breakpoints
          rw [isStep] at plain carried
          rw [advance_of_fault plain fetched, advance_of_fault carried fetched]
          rfl

end Step

/-- The lines with a breakpoint that a run reaches. -/
def stops (breakpoints : Breakpoints) (fuel : Nat) (debugger : Debugger) :
    List (Nat × Debugger) :=
  (debugger.linesReached fuel).filter fun stop => breakpoints.isArmed stop.1

section Runs

variable {debugger final : Debugger} {breakpoints : Breakpoints} {fuel : Nat} {ending : Outcome}

theorem stops_succ (breakpoints : Breakpoints) (fuel : Nat) (debugger : Debugger) :
    stops breakpoints (fuel + 1) debugger =
      (debugger.lineReached?.filter fun stop => breakpoints.isArmed stop.1).toList ++
        match debugger.advance with
        | .going next => stops breakpoints fuel next
        | .stopped _ _ => [] := by
  rw [stops, linesReached, List.filter_append, Option.toList_filter]
  cases debugger.advance with
  | going next => rfl
  | stopped outcome final => rfl

/-- The next instruction pauses a run with breakpoints, or both runs do the same. -/
theorem Underway.advance_cases (underway : Underway debugger) (breakpoints : Breakpoints) :
    (∃ line next,
      (debugger.lineReached?.filter fun stop => breakpoints.isArmed stop.1) =
          some (line, next) ∧
        debugger.advance = .going next ∧
        (debugger.withBreakpoints breakpoints).advance =
          .stopped (.ok (.breakpoint line)) (next.paused breakpoints)) ∨
      (debugger.lineReached?.filter fun stop => breakpoints.isArmed stop.1) = none ∧
        (debugger.withBreakpoints breakpoints).advance =
          match debugger.advance with
          | .going next => .going (next.withBreakpoints breakpoints)
          | .stopped outcome final => .stopped outcome (final.withBreakpoints breakpoints) := by
  cases fetched : debugger.machine.program.fetch? debugger.state.pc with
  | none =>
      refine .inr ⟨by simp [lineReached?, fetched], underway.advance_of_unarmed ?_⟩
      simp [fetched]
  | some instruction =>
      rw [lineReached?_of_fetch? fetched]
      cases armed : instruction.armedLine? breakpoints with
      | some line =>
          obtain ⟨next, isGoing, isStopped⟩ := underway.advance_of_armed fetched armed
          refine .inl ⟨line, next, ?_, isGoing, isStopped⟩
          rw [isGoing]
          rfl
      | none =>
          refine .inr ⟨rfl, underway.advance_of_unarmed ?_⟩
          intro other isOther
          rw [fetched] at isOther
          obtain rfl := Option.some.inj isOther
          exact armed

theorem Underway.proceed_to_end (underway : Underway debugger)
    (ended : debugger.proceed fuel = some (ending, final))
    (noStop : stops breakpoints fuel debugger = []) :
    (debugger.withBreakpoints breakpoints).proceed fuel =
      some (ending, final.withBreakpoints breakpoints) := by
  induction fuel generalizing debugger with
  | zero => simp [Debugger.proceed] at ended
  | succ fuel ih =>
      rw [stops_succ] at noStop
      rw [Debugger.proceed] at ended ⊢
      rcases underway.advance_cases breakpoints with ⟨line, next, isStop, -, -⟩ | ⟨-, same⟩
      · simp [isStop] at noStop
      · rw [same]
        cases advanced : debugger.advance with
        | stopped outcome stopped =>
            rw [advanced] at ended
            obtain ⟨rfl, rfl⟩ := Prod.mk.inj (Option.some.inj ended)
            rfl
        | going next =>
            rw [advanced] at ended noStop
            exact ih (underway.advance advanced) ended (List.append_eq_nil_iff.mp noStop).2

/-- A run with breakpoints is paused at the first stop, from where the uninterrupted
run goes on to the same end past the remaining ones. -/
theorem Underway.proceed_to_stop {line : Nat} {reached : Debugger}
    {later : List (Nat × Debugger)} (underway : Underway debugger)
    (ended : debugger.proceed fuel = some (ending, final))
    (firstStop : stops breakpoints fuel debugger = (line, reached) :: later) :
    (debugger.withBreakpoints breakpoints).proceed fuel =
        some (.ok (.breakpoint line), reached.paused breakpoints) ∧
      Underway reached ∧ ∃ rest ≤ fuel, reached.proceed rest = some (ending, final) ∧
        stops breakpoints rest reached = later := by
  induction fuel generalizing debugger with
  | zero => simp [Debugger.proceed] at ended
  | succ fuel ih =>
      rw [stops_succ] at firstStop
      rw [Debugger.proceed] at ended ⊢
      rcases underway.advance_cases breakpoints with ⟨_, next, isStop, isGoing, isStopped⟩ |
        ⟨noStop, same⟩
      · rw [isStop, isGoing] at firstStop
        rw [isGoing] at ended
        obtain ⟨here, isLater⟩ := List.cons.inj firstStop
        obtain ⟨rfl, rfl⟩ := Prod.mk.inj here
        rw [isStopped]
        exact ⟨rfl, underway.advance isGoing, fuel, Nat.le_succ fuel, ended, isLater⟩
      · rw [same]
        cases advanced : debugger.advance with
        | stopped outcome stopped => simp [noStop, advanced] at firstStop
        | going next =>
            rw [advanced] at ended
            rw [noStop, advanced] at firstStop
            obtain ⟨paused, reachedUnderway, rest, enough, endedLater, isLater⟩ :=
              ih (underway.advance advanced) ended firstStop
            exact ⟨paused, reachedUnderway, rest, Nat.le_succ_of_le enough, endedLater, isLater⟩

theorem Underway.resume_paused (underway : Underway debugger) (breakpoints : Breakpoints)
    (fuel : Nat) :
    (debugger.paused breakpoints).resume fuel =
      (debugger.withBreakpoints breakpoints).proceed fuel := by
  have isRunning : { debugger.state with running := true } = debugger.state := by
    rw [← underway.running]
  have resumed : (debugger.paused breakpoints).resume fuel =
      ((debugger.withState { debugger.state with running := true }).withBreakpoints
        breakpoints).proceed fuel :=
    if_neg (Bool.eq_false_iff.mp underway.going)
  rw [resumed, isRunning]
  rfl

theorem session_resume {next : Debugger} {outcome : Outcome} {operations : List Operation}
    (resumed : debugger.resume fuel = some (outcome, next)) :
    debugger.session fuel (.resume :: operations) =
      (next.session fuel operations).map fun (later, last) => (outcome :: later, last) := by
  simp only [session, resumed]

/-- What a run answers when it is paused at a stop. -/
def stopOutcome (stop : Nat × Debugger) : Outcome :=
  .ok (.breakpoint stop.1)

variable {limit : Nat}

/-- Resumed often enough, a run with breakpoints makes every stop and then ends. -/
theorem Underway.session_to_end {stopList : List (Nat × Debugger)} (underway : Underway debugger)
    (ended : debugger.proceed fuel = some (ending, final)) (enough : fuel ≤ limit)
    (isStops : stops breakpoints fuel debugger = stopList) :
    (debugger.paused breakpoints).session limit (List.replicate (stopList.length + 1) .resume) =
      some (stopList.map stopOutcome ++ [ending], final.withBreakpoints breakpoints) := by
  induction stopList generalizing debugger fuel with
  | nil =>
      have resumed := proceed_mono enough (underway.proceed_to_end ended isStops)
      rw [← underway.resume_paused] at resumed
      exact session_resume resumed
  | cons stop later ih =>
      obtain ⟨line, reached⟩ := stop
      obtain ⟨paused, reachedUnderway, rest, within, endedLater, isLater⟩ :=
        underway.proceed_to_stop ended isStops
      have resumed := proceed_mono enough paused
      rw [← underway.resume_paused] at resumed
      rw [List.length_cons, List.replicate_succ, session_resume resumed,
        ih reachedUnderway endedLater (Nat.le_trans within enough) isLater]
      rfl

/-- Resumed as often, a run with breakpoints is paused at any one of its stops. -/
theorem Underway.session_to_stop {before after : List (Nat × Debugger)} {line : Nat}
    {reached : Debugger} (underway : Underway debugger)
    (ended : debugger.proceed fuel = some (ending, final)) (enough : fuel ≤ limit)
    (isStops : stops breakpoints fuel debugger = before ++ (line, reached) :: after) :
    (debugger.paused breakpoints).session limit (List.replicate (before.length + 1) .resume) =
      some (before.map stopOutcome ++ [.ok (.breakpoint line)], reached.paused breakpoints) := by
  induction before generalizing debugger fuel with
  | nil =>
      obtain ⟨paused, -⟩ := underway.proceed_to_stop ended isStops
      have resumed := proceed_mono enough paused
      rw [← underway.resume_paused] at resumed
      exact session_resume resumed
  | cons stop before ih =>
      obtain ⟨_, earlier⟩ := stop
      obtain ⟨paused, earlierUnderway, rest, within, endedLater, isLater⟩ :=
        underway.proceed_to_stop ended isStops
      have resumed := proceed_mono enough paused
      rw [← underway.resume_paused] at resumed
      rw [List.length_cons, List.replicate_succ, session_resume resumed,
        ih earlierUnderway endedLater (Nat.le_trans within enough) isLater]
      rfl

end Runs

/-- No stop at a breakpoint is missed and none is invented.  Let an uninterrupted run of
a program end, and let breakpoints be set on lines that accept them.  Resumed again and
again, the program stops at the lines with breakpoints that the uninterrupted run
reaches, in their order and as often, and then ends in the same way; at each stop it is
where the uninterrupted run is just behind that line, except that it is paused. -/
theorem breakpoint_stops_exact {program : Program} {source : List String} {terminal : Terminal}
    {lines : List Nat} {fuel : Nat} {ending : Outcome} {final : Debugger}
    (accepted : ∀ line ∈ lines, (create program source terminal).reset.acceptsBreakpoint line)
    (ended : (create program source terminal).reset.resume fuel = some (ending, final)) :
    let fresh := (create program source terminal).reset
    let armed := lines.foldl setBreakpoint fresh
    let reached := (fresh.setRunning.linesReached fuel).filter fun stop => stop.1 ∈ lines
    ending.ending?.isSome ∧
    armed.session fuel (List.replicate (reached.length + 1) .resume) =
      some (reached.map (fun stop => .ok (.breakpoint stop.1)) ++ [ending],
        { final with breakpoints := armed.breakpoints }) ∧
    ∀ before line debugger after, reached = before ++ (line, debugger) :: after →
      armed.session fuel (List.replicate (before.length + 1) .resume) =
        some (before.map (fun stop => .ok (.breakpoint stop.1)) ++ [.ok (.breakpoint line)],
          { debugger.withState { debugger.state with running := false } with
            breakpoints := armed.breakpoints }) := by
  intro fresh armed reached
  have underway : Underway fresh.setRunning := ⟨⟨rfl, rfl, rfl⟩, rfl, rfl, rfl⟩
  have folded : armed =
      fresh.withBreakpoints (lines.foldl Breakpoints.arm fresh.breakpoints) :=
    foldl_setBreakpoint lines fresh
  have isArmed : armed = fresh.setRunning.paused armed.breakpoints := by
    rw [folded]
    rfl
  have carries : ∀ line, armed.breakpoints.isArmed line = true ↔ line ∈ lines := by
    intro line
    have disarmed : ¬ fresh.breakpoints.isArmed line = true := Bool.false_ne_true
    rw [folded]
    refine Breakpoints.isArmed_foldl_arm.trans ⟨?_, fun member => .inr ⟨member, ?_⟩⟩
    · rintro (isArmed | ⟨member, -⟩)
      · exact absurd isArmed disarmed
      · exact member
    · exact accepted line member
  have isReached : stops armed.breakpoints fuel fresh.setRunning = reached := by
    apply List.filter_congr
    intro stop _
    rw [Bool.eq_iff_iff, carries, decide_eq_true_iff]
  obtain ⟨result, isEnding⟩ := underway.undisturbed.exists_ending ended
  refine ⟨by simp [isEnding], ?_, ?_⟩
  · rw [isArmed]
    exact underway.session_to_end ended (Nat.le_refl fuel) isReached
  · intro before line debugger after isSplit
    rw [isArmed]
    exact underway.session_to_stop ended (Nat.le_refl fuel) (isReached.trans isSplit)

/-- A line with a breakpoint that is reached twice, each time right behind another one
without. -/
theorem breakpoint_stops_exact_loop :
    let program : Program :=
      { code := #[.lit 1 none, .label "again", .line (some 3), .line (some 4),
          .falseBranch ⟨"end", 8⟩, .lit 0 none, .line none, .goto ⟨"again", 1⟩, .label "end",
          .line (some 9)]
        labels := [("again", 1), ("end", 8)] }
    let fresh := (create program [] {}).reset
    ∃ final, fresh.resume 17 = some (.ok .halted, final) ∧
      (fresh.setBreakpoint 4).session 17 [.resume, .resume, .resume] =
        some ([.ok (.breakpoint 4), .ok (.breakpoint 4), .ok .halted],
          { final with breakpoints := (fresh.setBreakpoint 4).breakpoints }) := by
  intro program fresh
  obtain ⟨final, ended⟩ : ∃ final, fresh.resume 17 = some (.ok .halted, final) := ⟨_, rfl⟩
  obtain ⟨first, second, isReached⟩ : ∃ first second,
      ((fresh.setRunning.linesReached 17).filter fun stop => stop.1 ∈ [4]) =
        [(4, first), (4, second)] := ⟨_, _, rfl⟩
  have accepted : ∀ line ∈ [4], fresh.acceptsBreakpoint line := by decide
  have stopped := (breakpoint_stops_exact accepted ended).2.1
  rw [isReached] at stopped
  exact ⟨final, ended, stopped⟩

end Debugger

end StackDebugger
