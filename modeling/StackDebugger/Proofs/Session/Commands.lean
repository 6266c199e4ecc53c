import StackDebugger.Proofs.Debugger.Indifference
import StackDebugger.Session.Basic

/-!
# What commands do to the debugger

A command asks some operations of the debugger and shows some text.  With a screen of its
own a session leaves the debugger exactly where these operations lead; without one the text
is written to the program's terminal, and nothing else is different.
-/

namespace StackDebugger

/-- The operations on the debugger that a command asks for. -/
def Command.operations : Command → List Operation
  | .help | .listBreakpoints | .listSource | .showFunction | .showActivations | .showVariables
  | .showCalls => []
  | .resume => [.resume]
  | .stepOver => [.adjust .armStepOver, .resume]
  | .stepInto => [.adjust .armStepInto, .resume]
  | .stepOut => [.adjust .armStepOut, .resume]
  | .setBreakpoints lines => lines.map fun line => .adjust (.setBreakpoint line)
  | .clearBreakpoints lines => lines.map fun line => .adjust (.clearBreakpoint line)
  | .trace => [.adjust .startTracing]
  | .quit => [.adjust .turnOff]

namespace Session

/-- A session goes on unless one of its runs has failed. -/
def verdict : List Outcome → Except Fault Unit
  | [] => .ok ()
  | .ok _ :: rest => verdict rest
  | .error fault :: _ => .error fault

/-- From an original session a debugger was led somewhere, and the next session stands
there too, apart from the text that was shown. -/
structure Follows (original : Session) (debugger : Debugger) (next : Session) : Prop where
  alike : next.debugger.bare = debugger.bare
  apart : original.screen.isSome → next.debugger = debugger
  script : next.script = original.script
  screen : next.screen.isSome = original.screen.isSome

namespace Follows

variable {original next : Session} {debugger : Debugger}

theorem refl (session : Session) : Follows session session.debugger session :=
  ⟨rfl, fun _ => rfl, rfl, rfl⟩

theorem rebase (follows : Follows original debugger next) : Follows next debugger next :=
  ⟨follows.alike, fun present => follows.apart (follows.screen.symm.trans present), rfl, rfl⟩

theorem print (follows : Follows original debugger next) (text : String) :
    Follows original debugger (next.print text) := by
  unfold Session.print
  split
  · next shown isScreen =>
      have isSome : next.screen.isSome = true := by rw [isScreen]; rfl
      exact ⟨follows.alike, follows.apart, follows.script, isSome.symm.trans follows.screen⟩
  · next isScreen =>
      have absent : original.screen.isSome = false := by rw [← follows.screen, isScreen]; rfl
      refine ⟨follows.alike, ?_, follows.script, follows.screen⟩
      intro present
      rw [absent] at present
      contradiction

theorem adjust (follows : Follows original debugger next) (adjustment : Adjustment) :
    Follows original (adjustment.apply debugger) (next.modifyDebugger adjustment.apply) := by
  refine ⟨?_, fun present => congrArg adjustment.apply (follows.apart present), follows.script,
    follows.screen⟩
  change (adjustment.apply next.debugger).bare = (adjustment.apply debugger).bare
  rw [Debugger.bare_adjust, Debugger.bare_adjust, follows.alike]

theorem setBreakpoints (follows : Follows original debugger next) (fuel : Nat)
    (lines : List Nat) :
    ∃ final,
      debugger.session fuel (Command.setBreakpoints lines).operations = some ([], final) ∧
      Follows original final (next.setBreakpoints lines) := by
  induction lines generalizing debugger next with
  | nil => exact ⟨debugger, rfl, follows⟩
  | cons line lines ih =>
      rw [Session.setBreakpoints]
      apply ih
      split
      · exact follows.adjust (.setBreakpoint line)
      · exact (follows.print _).adjust (.setBreakpoint line)

theorem clearBreakpoints (follows : Follows original debugger next) (fuel : Nat)
    (lines : List Nat) :
    ∃ final,
      debugger.session fuel (Command.clearBreakpoints lines).operations = some ([], final) ∧
      Follows original final (next.modifyDebugger fun debugger =>
        lines.foldl (fun debugger line => debugger.clearBreakpoint line) debugger) := by
  induction lines generalizing debugger next with
  | nil => exact ⟨debugger, rfl, follows⟩
  | cons line lines ih => exact ih (follows.adjust (.clearBreakpoint line))

end Follows

/-- What has come of a command whose operations have ended on the debugger. -/
structure CarriesOut (original : Session) (ended : List Outcome × Debugger)
    (result : SessionResult) : Prop where
  verdict : result.1 = Session.verdict ended.1
  follows : Follows original ended.2 result.2

theorem resume_carriesOut {original session : Session} (fuel : Nat)
    (follows : Follows original session.debugger session) :
    Option.Rel (CarriesOut original) (session.debugger.session fuel [.resume])
      (session.resume fuel) := by
  unfold resume
  rw [Debugger.session]
  cases session.debugger.resume fuel with
  | none => exact .none
  | some result =>
      obtain ⟨outcome, debugger⟩ := result
      have stopped : Follows original debugger { session with debugger } :=
        ⟨rfl, fun _ => rfl, follows.script, follows.screen⟩
      cases outcome with
      | error fault => exact .some ⟨rfl, stopped⟩
      | ok stop =>
          simp only
          split
          · exact .some ⟨rfl, stopped⟩
          · exact .some ⟨rfl, stopped.print _⟩

theorem step_carriesOut (fuel : Nat) (session : Session) (adjustment : Adjustment) :
    Option.Rel (CarriesOut session)
      (session.debugger.session fuel [.adjust adjustment, .resume])
      ((session.modifyDebugger adjustment.apply).resume fuel) :=
  @resume_carriesOut session (session.modifyDebugger adjustment.apply) fuel
    ((Follows.refl session).adjust adjustment)

/-- A command leads to an answer exactly if its operations do. -/
theorem dispatch_carriesOut (fuel : Nat) (session : Session) (command : Command) :
    Option.Rel (CarriesOut session) (session.debugger.session fuel command.operations)
      (session.dispatch fuel command) := by
  have start := Follows.refl session
  cases command with
  | help | listBreakpoints | listSource | showFunction | showActivations | showVariables
  | showCalls => exact .some ⟨rfl, start.print _⟩
  | resume => exact resume_carriesOut fuel start
  | stepOver => exact step_carriesOut fuel session .armStepOver
  | stepInto => exact step_carriesOut fuel session .armStepInto
  | stepOut => exact step_carriesOut fuel session .armStepOut
  | setBreakpoints lines =>
      obtain ⟨final, ended, follows⟩ := start.setBreakpoints fuel lines
      rw [ended]
      exact .some ⟨rfl, follows.print _⟩
  | clearBreakpoints lines =>
      obtain ⟨final, ended, follows⟩ := start.clearBreakpoints fuel lines
      rw [ended]
      exact .some ⟨rfl, follows.print _⟩
  | trace => exact .some ⟨rfl, (start.adjust .startTracing).print _⟩
  | quit => exact .some ⟨rfl, start.adjust .turnOff⟩

/-- A command leads a session where its operations lead the debugger that it follows. -/
theorem Follows.dispatch {original session : Session} {debugger : Debugger}
    (follows : Follows original debugger session) (fuel : Nat) (command : Command) :
    Option.Rel (CarriesOut original) (debugger.session fuel command.operations)
      (session.dispatch fuel command) := by
  have carriesOut := dispatch_carriesOut fuel session command
  have sessions := Debugger.session_alike follows.alike fuel command.operations
  have equal : original.screen.isSome →
      session.debugger.session fuel command.operations =
        debugger.session fuel command.operations :=
    fun present => congrArg (Debugger.session fuel command.operations) (follows.apart present)
  generalize session.debugger.session fuel command.operations = own at carriesOut sessions equal
  generalize debugger.session fuel command.operations = ended at sessions equal ⊢
  generalize session.dispatch fuel command = result at carriesOut ⊢
  cases carriesOut with
  | none =>
      cases sessions with
      | none => exact .none
  | some carried =>
      cases sessions with
      | some same =>
          apply Option.Rel.some
          refine ⟨carried.verdict.trans (congrArg Session.verdict same.1),
            carried.follows.alike.trans same.2, ?_, carried.follows.script.trans follows.script,
            carried.follows.screen.trans follows.screen⟩
          intro present
          have own := carried.follows.apart (follows.screen.trans present)
          exact own.trans (congrArg Prod.snd (Option.some.inj (equal present)))

end Session

end StackDebugger
