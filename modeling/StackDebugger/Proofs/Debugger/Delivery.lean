import StackDebugger.Proofs.Debugger.Session
import StackDebugger.Proofs.Machine.Correspondence

/-!
# Output that is taken away

A program only ever adds to its output and never looks at it.  So what a front end does
with the output between runs, taking some of it away or not, makes no difference to any
run.  This is shown for every change of a terminal that respects writing and leaves the
input alone: sessions commute with it.  Two such changes matter, putting back all that was
delivered, and replacing what was delivered by a given text.
-/

namespace StackDebugger

namespace Terminal

/-- A program that writes to the terminal and reads from it cannot notice the change. -/
structure Unnoticed (change : Terminal → Terminal) : Prop where
  write : ∀ terminal text, change (terminal.write text) = (change terminal).write text
  input : ∀ terminal, (change terminal).input = terminal.input
  withInput : ∀ terminal input, change { terminal with input } = { change terminal with input }

/-- Puts back all that was delivered. -/
def putBack (terminal : Terminal) : Terminal :=
  { terminal with delivered := "", pending := terminal.output }

theorem putBack_take (terminal : Terminal) : terminal.take.2.putBack = terminal.putBack := by
  rw [putBack, output_take]
  rfl

theorem putBack_of_fresh {terminal : Terminal} (fresh : terminal.delivered = "") :
    terminal.putBack = terminal := by
  obtain ⟨input, delivered, pending⟩ := terminal
  obtain rfl : delivered = "" := fresh
  simp [putBack, output]

theorem take_of_empty {terminal : Terminal} (empty : terminal.pending = "") :
    terminal.take = ("", terminal) := by
  obtain ⟨input, delivered, pending⟩ := terminal
  obtain rfl : pending = "" := empty
  simp [take]

theorem unnoticed_putBack : Unnoticed putBack where
  write terminal text := by simp [putBack, write, output, String.append_assoc]
  input _ := rfl
  withInput _ _ := rfl

theorem unnoticed_withDelivered (delivered : String) :
    Unnoticed fun terminal => { terminal with delivered } where
  write _ _ := rfl
  input _ := rfl
  withInput _ _ := rfl

variable {change : Terminal → Terminal}

theorem Unnoticed.prompted (unnoticed : Unnoticed change) (terminal : Terminal)
    (input : List Text.RawLine) :
    { (change terminal).write readPrompt with input } =
      change { terminal.write readPrompt with input } := by
  rw [← unnoticed.write]
  exact (unnoticed.withInput _ input).symm

theorem Unnoticed.readIntegerFrom (unnoticed : Unnoticed change) (terminal : Terminal)
    (lines : List Text.RawLine) :
    (change terminal).readIntegerFrom lines =
      ((terminal.readIntegerFrom lines).1, change (terminal.readIntegerFrom lines).2) := by
  induction lines generalizing terminal with
  | nil => simp only [Terminal.readIntegerFrom, unnoticed.prompted]
  | cons line rest ih =>
      simp only [Terminal.readIntegerFrom, unnoticed.prompted]
      cases Utf8.decode? line with
      | none => rfl
      | some text =>
          simp only
          cases Decimal.int32? (Text.trim text) with
          | some value => rfl
          | none =>
              simp only
              rw [← unnoticed.write, ih]

theorem Unnoticed.readInteger (unnoticed : Unnoticed change) (terminal : Terminal) :
    (change terminal).readInteger =
      (terminal.readInteger.1, change terminal.readInteger.2) := by
  rw [Terminal.readInteger, unnoticed.input, unnoticed.readIntegerFrom, Terminal.readInteger]

theorem Unnoticed.indistinguishable (unnoticed : Unnoticed change) :
    Indistinguishable fun left right => right = change left := by
  refine ⟨?_, ?_, ?_⟩
  · rintro left _ text rfl
    exact (unnoticed.write left text).symm
  · rintro left _ rfl
    rw [unnoticed.readInteger]
  · rintro left _ rfl
    rw [unnoticed.readInteger]

end Terminal

/-- Changes the state in which an effect has ended. -/
def EffectResult.onState {σ α : Type} (change : σ → σ) :
    EStateM.Result Fault σ α → EStateM.Result Fault σ α
  | .ok value state => .ok value (change state)
  | .error fault state => .error fault (change state)

def State.onTerminal (change : Terminal → Terminal) (state : State) : State :=
  { state with terminal := change state.terminal }

def Debugger.onTerminal (change : Terminal → Terminal) (debugger : Debugger) : Debugger :=
  debugger.withState (debugger.state.onTerminal change)

section Unnoticed

variable {change : Terminal → Terminal}

theorem State.Corresponds.eq_onTerminal {state image : State}
    (corresponds : State.Corresponds id (fun left right => right = change left) state image)
    (switches : image.switches = state.switches) : image = state.onTerminal change := by
  obtain ⟨pc, stack, returns, running, halted, dumping, terminal⟩ := image
  obtain rfl : pc = state.pc := corresponds.pc
  obtain rfl : stack = state.stack := corresponds.stack
  obtain rfl : returns = state.returns := corresponds.returns.trans (List.map_id _)
  obtain rfl : running = state.running := congrArg Switches.running switches
  obtain rfl : halted = state.halted := congrArg Switches.halted switches
  obtain rfl : dumping = state.dumping := corresponds.dumping
  obtain rfl : terminal = change state.terminal := corresponds.terminal
  rfl

theorem Instruction.run_execute_onTerminal (unnoticed : Terminal.Unnoticed change)
    (instruction : Instruction Jump) (state : State) :
    instruction.execute.run (state.onTerminal change) =
      EffectResult.onState (State.onTerminal change) (instruction.execute.run state) := by
  have corresponds : State.Corresponds id (fun left right => right = change left) state
      (state.onTerminal change) := ⟨rfl, (List.map_id _).symm, rfl, rfl, rfl⟩
  have results := instruction.simulates_execute unnoticed.indistinguishable corresponds
  rw [instruction.relocate_id] at results
  -- The simulation does not compare the switches; an instruction sets them by itself.
  generalize isLeft : instruction.execute.run state = left at results ⊢
  generalize isRight : instruction.execute.run (state.onTerminal change) = right at results ⊢
  cases results with
  | ok ended =>
      rw [EffectResult.onState, ended.eq_onTerminal]
      rw [(Instruction.executes_of_execute_eq_ok isLeft).2,
        (Instruction.executes_of_execute_eq_ok isRight).2]
      rfl
  | error failed =>
      rw [EffectResult.onState, failed.eq_onTerminal]
      obtain ⟨_, _, -, rfl⟩ := Instruction.eq_of_execute_eq_error isLeft
      obtain ⟨_, _, -, rfl⟩ := Instruction.eq_of_execute_eq_error isRight
      rfl

theorem State.writeLine_onTerminal (unnoticed : Terminal.Unnoticed change) (state : State)
    (text : String) :
    (state.onTerminal change).writeLine text = (state.writeLine text).onTerminal change := by
  simp only [writeLine, onTerminal, Terminal.writeLine, unnoticed.write]

theorem Instruction.shown_onTerminal (unnoticed : Terminal.Unnoticed change)
    (instruction : Instruction Jump) (state : State) :
    instruction.shown (state.onTerminal change) = (instruction.shown state).onTerminal change := by
  unfold shown
  change (if state.dumping && !instruction.isDump then _ else _) = _
  split
  · rw [← State.writeLine_onTerminal unnoticed, ← State.writeLine_onTerminal unnoticed]
    rfl
  · rfl

namespace Debugger

theorem writeLine_onTerminal (unnoticed : Terminal.Unnoticed change) (debugger : Debugger)
    (text : String) :
    (debugger.onTerminal change).writeLine text = (debugger.writeLine text).onTerminal change :=
  congrArg debugger.withState (State.writeLine_onTerminal unnoticed debugger.state text)

end Debugger

namespace Instruction

theorem announceExit_onTerminal (unnoticed : Terminal.Unnoticed change)
    (instruction : Instruction Jump) (debugger : Debugger) :
    instruction.announceExit (debugger.onTerminal change) =
      (instruction.announceExit debugger).map (Debugger.onTerminal change) := by
  unfold announceExit
  split
  · change (if debugger.tracing then Except.map _ debugger.state.stack.peek else _) = _
    split
    · cases debugger.state.stack.peek with
      | error fault => rfl
      | ok value => exact congrArg Except.ok (debugger.writeLine_onTerminal unnoticed _)
    · rfl
  · rfl

theorem announceEntry_onTerminal (unnoticed : Terminal.Unnoticed change)
    (instruction : Instruction Jump) (debugger : Debugger) :
    instruction.announceEntry (debugger.onTerminal change) =
      (instruction.announceEntry debugger).onTerminal change := by
  unfold announceEntry
  split
  · change (if debugger.tracing && 1 < debugger.depth then _ else _) = _
    split
    · exact debugger.writeLine_onTerminal unnoticed _
    · rfl
  · rfl

theorem interrupt_onTerminal (instruction : Instruction Jump) (breakpoints : Breakpoints)
    (state : State) :
    instruction.interrupt breakpoints (state.onTerminal change) =
      (instruction.interrupt breakpoints state).onTerminal change := by
  unfold interrupt
  split
  · rfl
  · rfl

theorem note_onTerminal (instruction : Instruction Jump) (debugger : Debugger) :
    instruction.note (debugger.onTerminal change) =
      (instruction.note debugger).onTerminal change := by
  have interrupted : instruction.interrupt debugger.breakpoints (debugger.state.onTerminal change) =
      (instruction.interrupt debugger.breakpoints debugger.state).onTerminal change :=
    instruction.interrupt_onTerminal debugger.breakpoints debugger.state
  exact congrArg (fun state => { debugger.withState state with
    activations := instruction.track debugger.state.stack debugger.activations
    hit := (instruction.armedLine? debugger.breakpoints).or debugger.hit }) interrupted

theorem run_observe_onTerminal (unnoticed : Terminal.Unnoticed change)
    (instruction : Instruction Jump) (debugger : Debugger) :
    instruction.observe.run (debugger.onTerminal change) =
      EffectResult.onState (Debugger.onTerminal change) (instruction.observe.run debugger) := by
  rw [run_observe, run_observe, announceExit_onTerminal unnoticed]
  cases instruction.announceExit debugger with
  | error fault => rfl
  | ok announced =>
      have state : (announced.onTerminal change).state = announced.state.onTerminal change := rfl
      simp only [Except.map, state]
      rw [run_execute_onTerminal unnoticed]
      cases instruction.execute.run announced.state with
      | error fault state => rfl
      | ok done state =>
          simp only [EffectResult.onState]
          rw [← announceEntry_onTerminal unnoticed, ← note_onTerminal]
          rfl

end Instruction

namespace Debugger

/-- A change that commutes with each instruction and with judging commutes with what comes
next. -/
theorem advance_onDebugger {change : Debugger → Debugger} {debugger : Debugger}
    (fetch : (change debugger).machine.program.fetch? (change debugger).state.pc =
      debugger.machine.program.fetch? debugger.state.pc)
    (turnOff : ∀ debugger, (change debugger).turnOff = change debugger.turnOff)
    (carryOut : ∀ instruction, (carryOut instruction).run (change debugger) =
      EffectResult.onState change ((carryOut instruction).run debugger))
    (judge : ∀ debugger, (change debugger).judge = debugger.judge.onDebugger change) :
    (change debugger).advance = debugger.advance.onDebugger change := by
  rcases debugger.advance_cases with ⟨atEnd, advanced⟩ |
    ⟨instruction, next, fetched, carried, advanced⟩ |
    ⟨instruction, fault, failed, fetched, carried, advanced⟩
  · rw [advanced, advance_of_end (fetch.trans atEnd), turnOff]
    rfl
  · have carriedToo := carryOut instruction
    rw [carried] at carriedToo
    rw [advanced, ← judge]
    exact advance_of_carryOut carriedToo (fetch.trans fetched)
  · have failedToo := carryOut instruction
    rw [carried] at failedToo
    rw [advanced, advance_of_fault failedToo (fetch.trans fetched), turnOff]
    rfl

theorem run_carryOut_onTerminal (unnoticed : Terminal.Unnoticed change)
    (instruction : Instruction Jump) (debugger : Debugger) :
    (carryOut instruction).run (debugger.onTerminal change) =
      EffectResult.onState (onTerminal change) ((carryOut instruction).run debugger) := by
  rw [run_carryOut, run_carryOut, Instruction.run_observe_onTerminal unnoticed]
  cases instruction.observe.run debugger with
  | error fault failed => rfl
  | ok done observed =>
      simp only [EffectResult.onState]
      have shown := instruction.shown_onTerminal unnoticed observed.state
      change EStateM.Result.ok () (observed.withState
        (instruction.shown (observed.state.onTerminal change)).advance) = _
      rw [shown]
      rfl

theorem judge_onTerminal (debugger : Debugger) :
    (debugger.onTerminal change).judge = debugger.judge.onDebugger (onTerminal change) := by
  cases done : debugger.isDone with
  | true =>
      have stillDone : (debugger.onTerminal change).isDone = true := done
      rw [judge_of_done done, judge_of_done stillDone]
      rfl
  | false =>
      have stillGoing : (debugger.onTerminal change).isDone = false := done
      cases hit : debugger.hit with
      | some line =>
          have stillHit : (debugger.onTerminal change).hit = some line := hit
          rw [judge_of_breakpoint done hit, judge_of_breakpoint stillGoing stillHit]
          rfl
      | none =>
          cases complete : debugger.mode.stopsAt debugger.depth debugger.currentLine with
          | true =>
              rw [judge_of_step done hit complete,
                @judge_of_step (debugger.onTerminal change) stillGoing hit complete]
              rfl
          | false =>
              rw [judge_eq_going_iff.mpr ⟨done, hit, complete, rfl⟩]
              exact judge_eq_going_iff.mpr ⟨stillGoing, hit, complete, rfl⟩

theorem unnoticed_onTerminal (unnoticed : Terminal.Unnoticed change) :
    Unnoticed (onTerminal change) where
  isDone _ := rfl
  setRunning _ := rfl
  advance debugger := advance_onDebugger rfl (fun _ => rfl)
    (run_carryOut_onTerminal unnoticed · debugger) judge_onTerminal
  adjust adjustment _ := by cases adjustment <;> rfl

/-- What no program notices makes no difference to a session. -/
theorem session_onTerminal (unnoticed : Terminal.Unnoticed change) (fuel : Nat)
    (operations : List Operation) (debugger : Debugger) :
    (debugger.onTerminal change).session fuel operations =
      (debugger.session fuel operations).map fun (outcomes, final) =>
        (outcomes, final.onTerminal change) :=
  (unnoticed_onTerminal unnoticed).session fuel operations debugger

/-- A session delivers nothing by itself. -/
theorem delivered_of_session {debugger final : Debugger} {fuel : Nat}
    {operations : List Operation} {outcomes : List Outcome}
    (ended : debugger.session fuel operations = some (outcomes, final)) :
    final.state.terminal.delivered = debugger.state.terminal.delivered := by
  have commutes := session_onTerminal
    (Terminal.unnoticed_withDelivered debugger.state.terminal.delivered) fuel operations debugger
  change debugger.session fuel operations = _ at commutes
  rw [ended] at commutes
  have same := (Prod.mk.inj (Option.some.inj commutes)).2
  rw [same]
  rfl

/-- The debugger as it would be if its output had never been taken away. -/
def undelivered (debugger : Debugger) : Debugger :=
  debugger.onTerminal Terminal.putBack

@[simp] theorem undelivered_deliver (debugger : Debugger) :
    debugger.deliver.2.undelivered = debugger.undelivered :=
  congrArg (fun terminal => debugger.withState { debugger.state with terminal })
    debugger.state.terminal.putBack_take

theorem undelivered_of_fresh {debugger : Debugger}
    (fresh : debugger.state.terminal.delivered = "") : debugger.undelivered = debugger :=
  congrArg (fun terminal => debugger.withState { debugger.state with terminal })
    (Terminal.putBack_of_fresh fresh)

theorem deliver_of_empty {debugger : Debugger} (empty : debugger.state.terminal.pending = "") :
    debugger.deliver = ("", debugger) := by
  have taken := Terminal.take_of_empty empty
  rw [deliver, State.deliver, taken]
  rfl

theorem session_append {debugger middle : Debugger} {fuel : Nat} {first second : List Operation}
    {outcomes : List Outcome}
    (ended : debugger.session fuel first = some (outcomes, middle)) :
    debugger.session fuel (first ++ second) =
      (middle.session fuel second).map fun (later, final) => (outcomes ++ later, final) := by
  induction first generalizing debugger outcomes with
  | nil =>
      obtain ⟨rfl, rfl⟩ := Prod.mk.inj (Option.some.inj ended)
      simp
  | cons operation first ih =>
      cases operation with
      | adjust adjustment => exact ih ended
      | resume =>
          simp only [session, List.cons_append] at ended ⊢
          cases resumed : debugger.resume fuel with
          | none => simp [resumed] at ended
          | some result =>
              simp only [resumed] at ended ⊢
              obtain ⟨⟨later, last⟩, isLater, equal⟩ := Option.map_eq_some_iff.mp ended
              obtain ⟨rfl, rfl⟩ := Prod.mk.inj equal
              rw [ih isLater, Option.map_map]
              rfl

end Debugger

end Unnoticed

end StackDebugger
