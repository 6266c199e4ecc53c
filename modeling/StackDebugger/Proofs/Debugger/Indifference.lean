import StackDebugger.Proofs.Debugger.Delivery

/-!
# What no run depends on

The source listing is only ever shown, and output that was written is never read again.  So
two debuggers that differ in nothing else go through any session with the same outcomes and
still differ in nothing else.  `Debugger.bare` is the debugger without both.  The step that is
armed is read by no instruction either, only between them.
-/

namespace StackDebugger

/-- Changes what no instruction reads: the listing and the step that is armed. -/
def Debugger.refit (listing : Array String → Array String) (arming : RunMode → RunMode)
    (debugger : Debugger) : Debugger :=
  { debugger with source := listing debugger.source, mode := arming debugger.mode }

def Debugger.withListing (source : Array String) (debugger : Debugger) : Debugger :=
  { debugger with source }

section Listing

variable {source : Array String}
variable (listing : Array String → Array String) (arming : RunMode → RunMode)

namespace Instruction

theorem announceExit_refit (instruction : Instruction Jump) (debugger : Debugger) :
    instruction.announceExit (debugger.refit listing arming) =
      (instruction.announceExit debugger).map (Debugger.refit listing arming) := by
  unfold announceExit
  split
  · change (if debugger.tracing then Except.map _ debugger.state.stack.peek else _) = _
    split
    · cases debugger.state.stack.peek with
      | error fault => rfl
      | ok value => rfl
    · rfl
  · rfl

theorem announceEntry_refit (instruction : Instruction Jump) (debugger : Debugger) :
    instruction.announceEntry (debugger.refit listing arming) =
      (instruction.announceEntry debugger).refit listing arming := by
  unfold announceEntry
  split
  · change (if debugger.tracing && 1 < debugger.depth then _ else _) = _
    split
    · rfl
    · rfl
  · rfl

theorem run_observe_refit (instruction : Instruction Jump) (debugger : Debugger) :
    instruction.observe.run (debugger.refit listing arming) =
      EffectResult.onState (Debugger.refit listing arming)
        (instruction.observe.run debugger) := by
  rw [run_observe, run_observe, announceExit_refit]
  cases instruction.announceExit debugger with
  | error fault => rfl
  | ok announced =>
      have state : (announced.refit listing arming).state = announced.state := rfl
      simp only [Except.map, state]
      cases instruction.execute.run announced.state with
      | error fault state => rfl
      | ok done state =>
          simp only [EffectResult.onState]
          rw [← announceEntry_refit]
          rfl

end Instruction

namespace Debugger

theorem run_carryOut_refit (instruction : Instruction Jump) (debugger : Debugger) :
    (carryOut instruction).run (debugger.refit listing arming) =
      EffectResult.onState (refit listing arming) ((carryOut instruction).run debugger) := by
  rw [run_carryOut, run_carryOut, Instruction.run_observe_refit]
  cases instruction.observe.run debugger with
  | error fault failed => rfl
  | ok done observed => rfl

theorem judge_withListing (debugger : Debugger) :
    (debugger.withListing source).judge = debugger.judge.onDebugger (withListing source) := by
  cases done : debugger.isDone with
  | true =>
      rw [judge_of_done done]
      exact judge_of_done done
  | false =>
      cases hit : debugger.hit with
      | some line =>
          rw [judge_of_breakpoint done hit]
          exact judge_of_breakpoint done hit
      | none =>
          cases complete : debugger.mode.stopsAt debugger.depth debugger.currentLine with
          | true =>
              rw [judge_of_step done hit complete]
              exact judge_of_step done hit complete
          | false =>
              rw [judge_eq_going_iff.mpr ⟨done, hit, complete, rfl⟩]
              exact judge_eq_going_iff.mpr ⟨done, hit, complete, rfl⟩

theorem unnoticed_withListing (source : Array String) : Unnoticed (withListing source) where
  isDone _ := rfl
  setRunning _ := rfl
  advance debugger := advance_onDebugger rfl (fun _ => rfl)
    (run_carryOut_refit (fun _ => source) id · debugger) judge_withListing
  adjust adjustment _ := by cases adjustment <;> rfl

end Debugger

end Listing

namespace Terminal

/-- The terminal with nothing written to it. -/
def blank (terminal : Terminal) : Terminal :=
  { input := terminal.input }

/-- What is written to a terminal stands behind what was written to an earlier one. -/
def behind (earlier terminal : Terminal) : Terminal :=
  { terminal with
    delivered := earlier.delivered
    pending := earlier.pending ++ terminal.pending }

theorem behind_blank (terminal : Terminal) : terminal.behind terminal.blank = terminal := by
  simp [behind, blank]

theorem unnoticed_behind (earlier : Terminal) : Unnoticed earlier.behind where
  write terminal text := by simp [behind, write, String.append_assoc]
  input _ := rfl
  withInput _ _ := rfl

end Terminal

namespace Debugger

/-- The debugger without its listing and with nothing written to its terminal. -/
def bare (debugger : Debugger) : Debugger :=
  (debugger.onTerminal Terminal.blank).withListing #[]

/-- Gives the listing and the output of an original to a debugger. -/
def furnish (original debugger : Debugger) : Debugger :=
  (debugger.onTerminal original.state.terminal.behind).withListing original.source

theorem furnish_bare (debugger : Debugger) : debugger.furnish debugger.bare = debugger :=
  congrArg (fun terminal => debugger.withState { debugger.state with terminal })
    debugger.state.terminal.behind_blank

theorem bare_furnish (original debugger : Debugger) :
    (original.furnish debugger).bare = debugger.bare := rfl

theorem unnoticed_furnish (original : Debugger) : Unnoticed original.furnish :=
  (unnoticed_withListing original.source).comp
    (unnoticed_onTerminal original.state.terminal.unnoticed_behind)

theorem isDone_alike {left right : Debugger} (alike : left.bare = right.bare) :
    left.isDone = right.isDone := by
  have done : left.bare.isDone = right.bare.isDone := by rw [alike]
  exact done

theorem bare_deliver (debugger : Debugger) : debugger.deliver.2.bare = debugger.bare := rfl

theorem bare_adjust (adjustment : Adjustment) (debugger : Debugger) :
    (adjustment.apply debugger).bare = adjustment.apply debugger.bare := by
  cases adjustment <;> rfl

/-- What a session leads to, output and listing apart, is settled by the bare debugger. -/
theorem session_bare (fuel : Nat) (operations : List Operation) (debugger : Debugger) :
    (debugger.session fuel operations).map (fun (outcomes, final) => (outcomes, final.bare)) =
      (debugger.bare.session fuel operations).map
        fun (outcomes, final) => (outcomes, final.bare) := by
  have furnished := debugger.unnoticed_furnish.session fuel operations debugger.bare
  rw [furnish_bare] at furnished
  simp only [furnished, Option.map_map, Function.comp_def, bare_furnish]

/-- Debuggers that differ in listing and output alone go through a session alike. -/
theorem session_alike {left right : Debugger} (alike : left.bare = right.bare) (fuel : Nat)
    (operations : List Operation) :
    Option.Rel (fun ended other => ended.1 = other.1 ∧ ended.2.bare = other.2.bare)
      (left.session fuel operations) (right.session fuel operations) := by
  have same := left.session_bare fuel operations
  rw [alike, ← right.session_bare] at same
  cases isLeft : left.session fuel operations with
  | none =>
      rw [isLeft] at same
      rw [Option.map_eq_none_iff.mp same.symm]
      exact .none
  | some ended =>
      rw [isLeft] at same
      obtain ⟨other, isOther, equal⟩ := Option.map_eq_some_iff.mp same.symm
      obtain ⟨outcomes, final⟩ := Prod.mk.inj equal
      rw [isOther]
      exact .some ⟨outcomes.symm, final.symm⟩

end Debugger

end StackDebugger
