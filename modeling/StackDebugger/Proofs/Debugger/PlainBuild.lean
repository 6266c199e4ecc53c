import StackDebugger.Proofs.Debugger.Transparency
import StackDebugger.Proofs.Machine.Stripping

/-!
# The plain build of a program

A bytecode text can be loaded with its source annotations, for the debugger, or
without them, for the plain machine.  Both builds do the same: one run ends if and
only if the other does, and then with the same result, the same output and the
same stack.  The run under the debugger is compared with a plain run of the same
annotated program first, and that run with the one without annotations.
-/

namespace StackDebugger.Debugger

/-- Nothing but the end of the program will stop a run. -/
structure Undisturbed (debugger : Debugger) : Prop where
  disarmed : debugger.breakpoints.armed = []
  hit : debugger.hit = none
  mode : debugger.mode = .untilBreakpoint

/-- The plain machine was left as the debugger was: with the same output and stack, and
with return addresses that name the same calls. -/
structure LeftAlike (program : Program) (debugger : Debugger) (plain : Machine) : Prop where
  output : plain.state.terminal.output = debugger.state.terminal.output
  values : plain.state.stack.values = debugger.state.stack.values
  bases : plain.state.stack.bases = debugger.state.stack.bases
  returns : plain.state.returns = debugger.state.returns.map program.keptBefore
  calls : ∀ address ∈ debugger.state.returns,
    program.CallAt address ∧ program.stripped.CallAt (program.keptBefore address)

theorem Undisturbed.carriedOut {instruction : Instruction Jump} {debugger next : Debugger}
    (undisturbed : Undisturbed debugger) (carriedOut : CarriedOut instruction debugger next) :
    Undisturbed next := by
  have notArmed : instruction.armedLine? debugger.breakpoints = none := by
    unfold Instruction.armedLine?
    split
    · simp [Breakpoints.isArmed, undisturbed.disarmed]
    · rfl
  refine ⟨?_, ?_, carriedOut.mode.trans undisturbed.mode⟩
  · rw [carriedOut.breakpoints]
    exact undisturbed.disarmed
  · rw [carriedOut.hit, notArmed, undisturbed.hit]
    rfl

/-- A run that nothing disturbs only returns when the program has ended. -/
theorem Undisturbed.exists_ending {debugger final : Debugger} {fuel : Nat} {outcome : Outcome}
    (undisturbed : Undisturbed debugger)
    (ended : debugger.proceed fuel = some (outcome, final)) :
    ∃ result, outcome.ending? = some result := by
  induction fuel generalizing debugger with
  | zero => simp [Debugger.proceed] at ended
  | succ fuel ih =>
      rw [Debugger.proceed] at ended
      rcases debugger.advance_cases with ⟨-, advanced⟩ | ⟨_, next, -, carried, advanced⟩ |
        ⟨_, fault, failed, -, -, advanced⟩
      · rw [advanced] at ended
        obtain ⟨rfl, -⟩ := Prod.mk.inj (Option.some.inj ended)
        exact ⟨.ok (), rfl⟩
      · have still := undisturbed.carriedOut (carriedOut_of_run_eq_ok carried)
        cases done : next.isDone with
        | true =>
            have judged : next.judge = .stopped (.ok .halted) next := by simp [judge, done]
            rw [advanced, judged] at ended
            obtain ⟨rfl, -⟩ := Prod.mk.inj (Option.some.inj ended)
            exact ⟨.ok (), rfl⟩
        | false =>
            have judged : next.judge = .going next :=
              judge_eq_going_iff.mpr ⟨done, still.hit, by rw [still.mode]; rfl, rfl⟩
            rw [advanced, judged] at ended
            exact ih still ended
      · rw [advanced] at ended
        obtain ⟨rfl, -⟩ := Prod.mk.inj (Option.some.inj ended)
        exact ⟨.error fault, rfl⟩

section Builds

variable {program : Program} {source : List String} {terminal : Terminal}

/-- Where a run under the debugger returns, the plain build ends alike. -/
theorem exists_run_of_resume {fuel : Nat} {outcome : Outcome} {debugger : Debugger}
    (isResolved : program.IsResolved) (neverDumps : program.NeverDumps)
    (ended : (create program source terminal).reset.resume fuel = some (outcome, debugger)) :
    ∃ plainFuel result plain,
      (Machine.create program.stripped terminal).run plainFuel = some (result, plain) ∧
      outcome.ending? = some result ∧ LeftAlike program debugger plain := by
  have inStep := inStep_create program source terminal
  have matched := inStep.resume ended
  have undisturbed : Undisturbed (create program source terminal).reset.setRunning :=
    ⟨rfl, rfl, rfl⟩
  obtain ⟨result, isEnding⟩ := undisturbed.exists_ending ended
  rw [isEnding] at matched
  cases matched with
  | @ended annotatedFuel _ final _ done annotatedEnded same =>
      obtain ⟨plainFuel, plain, plainEnded, strippedTo⟩ :=
        (Machine.StrippedTo.initial program terminal).proceed isResolved neverDumps annotatedEnded
      have corresponds := strippedTo.state
      have pending := strippedTo.pending
      rw [same] at corresponds pending
      refine ⟨plainFuel, result, plain, plainEnded, isEnding, ?_, ?_, ?_, corresponds.returns, ?_⟩
      · rw [corresponds.terminal]
      · rw [corresponds.stack]
      · rw [corresponds.stack]
      · intro address member
        obtain ⟨destination, isCall⟩ := pending address member
        exact ⟨⟨destination, isCall⟩, _, Program.fetch?_stripped isCall rfl⟩

/-- Where the plain build ends, a run under the debugger returns. -/
theorem exists_resume_of_run {fuel : Nat} {result : Except Fault Unit × Machine}
    (isResolved : program.IsResolved) (neverDumps : program.NeverDumps)
    (ended : (Machine.create program.stripped terminal).run fuel = some result) :
    ∃ debugFuel debugResult,
      (create program source terminal).reset.resume debugFuel = some debugResult := by
  obtain ⟨annotatedFuel, annotatedResult, annotatedEnded⟩ :=
    (Machine.StrippedTo.initial program terminal).exists_proceed isResolved neverDumps ended
  have inStep := (inStep_create program source terminal).setRunning
  obtain ⟨outcome, final, debugEnded⟩ := inStep.exists_proceed rfl annotatedEnded
  exact ⟨annotatedFuel, (outcome, final), debugEnded⟩

end Builds

/-- The two builds of a text without `DUMP ON` agree.  One loads if and only if the
other does, and the plain build is the debug build without its source annotations;
the plain run ends if and only if the run under the debugger returns, and then with
the same result, output and stack, and with return addresses that name the same
calls. -/
theorem builds_agree {text : String}
    (undumped : ∀ line ∈ Text.lines text.toList,
      decodeLine .debug line ≠ .instruction (.dump .on)) :
    ((∃ base, Program.load .base text = .ok base) ↔
      ∃ debug, Program.load .debug text = .ok debug) ∧
    ∀ base debug, Program.load .base text = .ok base → Program.load .debug text = .ok debug →
      base.program = debug.program.stripped ∧
      ∀ source terminal,
        ((∃ fuel result, (Machine.create base.program terminal).run fuel = some result) ↔
          ∃ fuel result,
            (create debug.program source terminal).reset.resume fuel = some result) ∧
        ∀ fuel result plain debugFuel outcome debugger,
          (Machine.create base.program terminal).run fuel = some (result, plain) →
          (create debug.program source terminal).reset.resume debugFuel =
            some (outcome, debugger) →
          outcome.ending? = some result ∧ LeftAlike debug.program debugger plain := by
  refine ⟨Program.exists_load_base_iff, ?_⟩
  intro base debug isBase isDebug
  have isStripped := Program.eq_stripped_of_load isBase isDebug
  have isResolved := Program.isResolved_of_load isDebug
  have neverDumps : debug.program.NeverDumps := by
    intro index fetched
    obtain ⟨line, inText, decoded⟩ := Program.exists_line_of_load isDebug fetched
    exact undumped line inText decoded
  refine ⟨isStripped, ?_⟩
  intro source terminal
  rw [isStripped]
  refine ⟨⟨?_, ?_⟩, ?_⟩
  · rintro ⟨fuel, result, ended⟩
    exact exists_resume_of_run isResolved neverDumps ended
  · rintro ⟨fuel, ⟨outcome, debugger⟩, ended⟩
    obtain ⟨plainFuel, result, plain, plainEnded, -⟩ :=
      exists_run_of_resume isResolved neverDumps ended
    exact ⟨plainFuel, (result, plain), plainEnded⟩
  · intro fuel result plain debugFuel outcome debugger ended debugEnded
    obtain ⟨plainFuel, other, otherPlain, otherEnded, isEnding, leftAlike⟩ :=
      exists_run_of_resume isResolved neverDumps debugEnded
    have unique := Machine.proceed_unique ended otherEnded
    obtain ⟨rfl, rfl⟩ := Prod.mk.inj unique
    exact ⟨isEnding, leftAlike⟩

/-- A text with annotations before a call and in it, which fails in the call. -/
def failingCall : String :=
  "FUNCTION main 1 2\nARGS 0\nCALL f\nHALT\nLABEL f\nLINE 1\nLIT 7\nLIT 0\nBOP /\nRETURN\n"

theorem builds_agree_failingCall :
    ∃ base debug plain debugger,
      Program.load .base failingCall = .ok base ∧ Program.load .debug failingCall = .ok debug ∧
      (Machine.create base.program {}).run 9 = some (.error .divisionByZero, plain) ∧
      (create debug.program [] {}).reset.resume 9 = some (.error .divisionByZero, debugger) ∧
      base.program = debug.program.stripped ∧
      debugger.state.returns = [2] ∧ plain.state.returns = [1] ∧
      LeftAlike debug.program debugger plain := by
  have undumped : ∀ line ∈ Text.lines failingCall.toList,
      decodeLine .debug line ≠ .instruction (.dump .on) := by decide +kernel
  obtain ⟨debug, isDebug, debugger, debugEnded, pending⟩ :
      ∃ debug, Program.load .debug failingCall = .ok debug ∧
        ∃ debugger, (create debug.program [] {}).reset.resume 9 =
          some (.error .divisionByZero, debugger) ∧ debugger.state.returns = [2] :=
    ⟨_, rfl, _, rfl, rfl⟩
  obtain ⟨base, isBase, plain, ended, plainPending⟩ :
      ∃ base, Program.load .base failingCall = .ok base ∧
        ∃ plain, (Machine.create base.program {}).run 9 =
          some (.error .divisionByZero, plain) ∧ plain.state.returns = [1] :=
    ⟨_, rfl, _, rfl, rfl⟩
  obtain ⟨isStripped, agree⟩ := (builds_agree undumped).2 base debug isBase isDebug
  obtain ⟨-, leftAlike⟩ := (agree [] {}).2 _ _ plain _ _ debugger ended debugEnded
  exact ⟨base, debug, plain, debugger, isBase, isDebug, ended, debugEnded, isStripped, pending,
    plainPending, leftAlike⟩

end StackDebugger.Debugger
