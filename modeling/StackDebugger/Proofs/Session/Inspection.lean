import StackDebugger.Proofs.Session.Commands

/-!
# Inspection is inert

What a script does to the debugger can be said without anything that is shown: a line that
is no command does nothing, and a command does its operations.  A session with a script
follows this.  As commands that only ask about the program have no operations, a script can
do without them and without lines that are no commands: the session has the same result and
leaves the same debugger.
-/

namespace StackDebugger

/-- Whether a command only asks about the program. -/
def Command.isInspection : Command → Bool
  | .help | .listBreakpoints | .listSource | .showFunction | .showActivations | .showVariables
  | .showCalls => true
  | _ => false

theorem Command.operations_of_isInspection {command : Command}
    (inspects : command.isInspection = true) : command.operations = [] := by
  cases command <;> first | rfl | contradiction

namespace Debugger

/-- Obeys a command line and shows nothing. -/
def obeyLine (fuel : Nat) (line : Text.RawLine) (debugger : Debugger) :
    Option (Except Fault Unit × Debugger) :=
  match Utf8.decode? line with
  | none => some (.error .malformedInput, debugger)
  | some text =>
      match Command.parse text with
      | .error _ => some (.ok (), debugger)
      | .ok command =>
          (debugger.session fuel command.operations).map fun (outcomes, next) =>
            (Session.verdict outcomes, next)

/-- Obeys command lines until the program is over or fails.  Without another line the
program is ended. -/
def obey (fuel : Nat) : List Text.RawLine → Debugger → Option (Except Fault Unit × Debugger)
  | [], debugger => some (.ok (), if debugger.isDone then debugger else debugger.turnOff)
  | line :: rest, debugger =>
      if debugger.isDone then some (.ok (), debugger)
      else
        match debugger.obeyLine fuel line with
        | none => none
        | some (.ok _, next) => obey fuel rest next
        | some (.error fault, failed) => some (.error fault, failed)

theorem obey_of_done {debugger : Debugger} (done : debugger.isDone = true) (fuel : Nat)
    (lines : List Text.RawLine) : debugger.obey fuel lines = some (.ok (), debugger) := by
  cases lines with
  | nil => rw [obey, if_pos done]
  | cons line rest => rw [obey, if_pos done]

end Debugger

namespace Session

/-- Whether a line is text that is no command, or a command that only asks about the
program. -/
def isInert (line : Text.RawLine) : Bool :=
  match Utf8.decode? line with
  | none => false
  | some text =>
      match Command.parse text with
      | .error _ => true
      | .ok command => command.isInspection

/-- One script is another without some of its inert lines. -/
inductive Trimmed : List Text.RawLine → List Text.RawLine → Prop where
  | nil : Trimmed [] []
  | keep (line : Text.RawLine) {full fewer : List Text.RawLine} :
      Trimmed full fewer → Trimmed (line :: full) (line :: fewer)
  | drop {line : Text.RawLine} {full fewer : List Text.RawLine} :
      isInert line = true → Trimmed full fewer → Trimmed (line :: full) fewer

theorem obeyLine_of_isInert {line : Text.RawLine} (inert : isInert line = true) (fuel : Nat)
    (debugger : Debugger) : debugger.obeyLine fuel line = some (.ok (), debugger) := by
  unfold isInert at inert
  unfold Debugger.obeyLine
  cases decoded : Utf8.decode? line with
  | none => simp [decoded] at inert
  | some text =>
      simp only [decoded] at inert ⊢
      cases parsed : Command.parse text with
      | error failure => rfl
      | ok command =>
          simp only [parsed] at inert
          simp only [Command.operations_of_isInspection inert]
          rfl

theorem Trimmed.obey {full fewer : List Text.RawLine} (trimmed : Trimmed full fewer) (fuel : Nat)
    (debugger : Debugger) : debugger.obey fuel full = debugger.obey fuel fewer := by
  induction trimmed generalizing debugger with
  | nil => rfl
  | keep line trimmed ih => simp only [Debugger.obey, ih]
  | drop inert trimmed ih =>
      rw [Debugger.obey, obeyLine_of_isInert inert]
      split
      · next done => exact (Debugger.obey_of_done done fuel _).symm
      · exact ih debugger

/-- What was to be obeyed has been obeyed by a session. -/
structure Obeys (original : Session) (ended : Except Fault Unit × Debugger)
    (result : SessionResult) : Prop where
  verdict : result.1 = ended.1
  follows : Follows original ended.2 result.2

theorem Follows.obey {original session : Session} {debugger : Debugger}
    (follows : Follows original debugger session) (fuel : Nat) (line : Text.RawLine) :
    Option.Rel (Obeys original) (debugger.obeyLine fuel line) (session.obey fuel line) := by
  unfold Debugger.obeyLine Session.obey
  cases Utf8.decode? line with
  | none => exact .some ⟨rfl, follows⟩
  | some text =>
      simp only
      cases Command.parse text with
      | error failure =>
          cases failure with
          | empty => exact .some ⟨rfl, follows⟩
          | unbalanced | unknown | badLine | missingLines => exact .some ⟨rfl, follows.print _⟩
      | ok command =>
          have carriesOut := follows.dispatch fuel command
          simp only
          generalize debugger.session fuel command.operations = ended at carriesOut ⊢
          generalize session.dispatch fuel command = result at carriesOut ⊢
          cases carriesOut with
          | none => exact .none
          | some carried => exact .some ⟨carried.verdict, carried.follows⟩

/-- What a script was to do has been done by a session that began as the original one. -/
structure Ends (original : Session) (ended : Except Fault Unit × Debugger)
    (result : SessionResult) : Prop where
  verdict : result.1 = ended.1
  alike : result.2.debugger.bare = ended.2.bare
  apart : original.screen.isSome → result.2.debugger = ended.2

theorem Follows.ends {original next : Session} {debugger : Debugger}
    (follows : Follows original debugger next) (verdict : Except Fault Unit) :
    Ends original (verdict, debugger) (verdict, next) :=
  ⟨rfl, follows.alike, follows.apart⟩

theorem Ends.rebase {original next : Session} {ended : Option (Except Fault Unit × Debugger)}
    {result : Option SessionResult} (screen : next.screen.isSome = original.screen.isSome)
    (ends : Option.Rel (Ends next) ended result) : Option.Rel (Ends original) ended result := by
  cases ends with
  | none => exact .none
  | some ends => exact .some ⟨ends.verdict, ends.alike, fun present =>
      ends.apart (screen.trans present)⟩

theorem converse_of_done {session : Session} (done : session.debugger.isDone = true)
    (fuel rounds : Nat) :
    session.converse fuel (rounds + 1) = some (.ok (), session.print farewell) :=
  if_pos done

theorem converse_of_empty {session : Session} (going : session.debugger.isDone = false)
    (scripted : (session.print commandPrompt).script = some []) (fuel rounds : Nat) :
    session.converse fuel (rounds + 1) =
      some (.ok (), ((session.print commandPrompt).modifyDebugger Debugger.turnOff).print
        farewell) := by
  simp [converse, going, takeTurn, takeLine?, scripted]

theorem converse_of_line {session : Session} {line : Text.RawLine} {rest : List Text.RawLine}
    (going : session.debugger.isDone = false)
    (scripted : (session.print commandPrompt).script = some (line :: rest)) (fuel rounds : Nat) :
    session.converse fuel (rounds + 1) =
      match ({ session.print commandPrompt with script := some rest } : Session).obey fuel line with
      | none => none
      | some (.ok _, next) => next.converse fuel rounds
      | some (.error fault, failed) => some (.error fault, failed) := by
  simp only [converse, going, takeTurn, takeLine?, scripted, Bool.false_eq_true, if_false]
  cases obey fuel _ line with
  | none => rfl
  | some result =>
      obtain ⟨verdict, next⟩ := result
      cases verdict with
      | error fault => rfl
      | ok done => rfl

theorem converse_ends_of_done {session : Session} {debugger : Debugger}
    (follows : Follows session debugger session) (done : debugger.isDone = true)
    (fuel rounds : Nat) (lines : List Text.RawLine) :
    Option.Rel (Ends session) (debugger.obey fuel lines) (session.converse fuel (rounds + 1)) := by
  have alsoDone := (Debugger.isDone_alike follows.alike).trans done
  rw [Debugger.obey_of_done done, converse_of_done alsoDone]
  exact .some ((follows.print farewell).ends (.ok ()))

/-- A session takes the lines of its script until there is none or the program is over. -/
theorem converse_ends {fuel rounds : Nat} {lines : List Text.RawLine} {session : Session}
    {debugger : Debugger} (enough : lines.length ≤ rounds) (scripted : session.script = some lines)
    (follows : Follows session debugger session) :
    Option.Rel (Ends session) (debugger.obey fuel lines) (session.converse fuel (rounds + 1)) := by
  induction lines generalizing rounds session debugger with
  | nil =>
      cases done : debugger.isDone with
      | true => exact converse_ends_of_done follows done fuel rounds []
      | false =>
          have going := (Debugger.isDone_alike follows.alike).trans done
          have prompted := follows.print commandPrompt
          have stopped := (prompted.adjust .turnOff).print farewell
          rw [Debugger.obey, done, converse_of_empty going (prompted.script.trans scripted)]
          exact .some (stopped.ends (.ok ()))
  | cons line lines ih =>
      cases done : debugger.isDone with
      | true => exact converse_ends_of_done follows done fuel rounds (line :: lines)
      | false =>
          have going := (Debugger.isDone_alike follows.alike).trans done
          have prompted := follows.print commandPrompt
          let taken : Session := { session.print commandPrompt with script := some lines }
          have takes : Follows taken debugger taken :=
            ⟨prompted.alike, prompted.rebase.apart, rfl, rfl⟩
          have obeys := takes.obey fuel line
          rw [Debugger.obey, done, converse_of_line going (prompted.script.trans scripted)]
          change Option.Rel _ _ (match taken.obey fuel line with
            | none => _ | some (.ok _, _) => _ | some (.error _, _) => _)
          generalize debugger.obeyLine fuel line = ended at obeys ⊢
          generalize taken.obey fuel line = result at obeys ⊢
          cases obeys with
          | none => exact .none
          | @some ended result obeyed =>
              obtain ⟨verdict, next⟩ := result
              obtain ⟨_, reached⟩ := ended
              obtain ⟨rfl, obeyed⟩ := obeyed
              apply Ends.rebase (obeyed.screen.trans prompted.screen)
              cases verdict with
              | error fault => exact .some (obeyed.rebase.ends (.error fault))
              | ok _ =>
                  obtain ⟨rounds, rfl⟩ : ∃ fewer, rounds = fewer + 1 :=
                    Nat.exists_eq_add_one.mpr (Nat.lt_of_lt_of_le (Nat.succ_pos _) enough)
                  exact ih (Nat.le_of_succ_le_succ enough) obeyed.script obeyed.rebase

/-- A whole session does what its script does to the debugger before its first step. -/
theorem run_ends {session : Session} {lines : List Text.RawLine}
    (scripted : session.script = some lines) (fuel : Nat) :
    Option.Rel (Ends session) (session.debugger.reset.obey fuel lines) (session.run fuel) := by
  have begins : Follows session session.debugger.reset session.begin :=
    ((Follows.refl session).adjust .reset).print _
  have isScript := begins.script.trans scripted
  have counted : session.begin.lineCount = lines.length := by rw [lineCount, isScript]
  apply Ends.rebase begins.screen
  apply converse_ends _ isScript begins.rebase
  rw [counted]
  exact Nat.le_succ _

/-- Inspection and lines that are no commands are inert.  A script and the same script without
some such lines give the same result and leave debuggers that differ in what was shown alone.
Where the answers go to a screen, so that nothing but the program writes to its terminal, the
debuggers are the same, with the same output.  One session answers nothing exactly if the
other does, which is when a run does not return. -/
theorem inert_lines {full fewer : List Text.RawLine} (trimmed : Trimmed full fewer) (fuel : Nat)
    (debugger : Debugger) (screen other : Option String) :
    Option.Rel
      (fun left right : SessionResult =>
        left.1 = right.1 ∧ left.2.debugger.bare = right.2.debugger.bare ∧
        (screen.isSome → other.isSome → left.2.debugger = right.2.debugger))
      (run fuel { debugger, script := some full, screen })
      (run fuel { debugger, script := some fewer, screen := other }) := by
  have ends := @run_ends { debugger, script := some full, screen } full rfl fuel
  have endsToo := @run_ends { debugger, script := some fewer, screen := other } fewer rfl fuel
  rw [trimmed.obey] at ends
  generalize debugger.reset.obey fuel fewer = ended at ends endsToo
  generalize run fuel { debugger, script := some full, screen } = left at ends ⊢
  generalize run fuel { debugger, script := some fewer, screen := other } = right at endsToo ⊢
  cases ends with
  | none =>
      cases endsToo with
      | none => exact .none
  | some ends =>
      cases endsToo with
      | some endsToo =>
          exact .some ⟨ends.verdict.trans endsToo.verdict.symm,
            ends.alike.trans endsToo.alike.symm,
            fun present also => (ends.apart present).trans (endsToo.apart also).symm⟩

/-- A script with one line of each kind that can be left out; one of them names a line that
could carry a breakpoint, and a word that is no line. -/
theorem inert_lines_breakpoint :
    let program : Program :=
      { code := #[.line (some 1), .lit 7 (some "x"), .write, .line (some 2), .lit 8 none, .write] }
    let debugger := Debugger.create program ["x = 7", "8"] {}
    let script (lines : List String) : List Text.RawLine :=
      lines.map fun line => Utf8.encode line.toList
    let full := script ["zz\n", "sb 1 x\n", "sb 2\n", "c\n", "v\n", "fest\n", "stk\n", "\n",
      "b 'x\n", "cb\n", "tr\n", "p\n", "dfn\n", "b\n", "?\n", "c\n"]
    let fewer := script ["sb 2\n", "c\n", "tr\n", "c\n"]
    ∃ left right,
      run 9 { debugger, script := some full, screen := some "" } = some left ∧
      run 9 { debugger, script := some fewer, screen := some "" } = some right ∧
      left.1 = right.1 ∧ left.2.debugger = right.2.debugger ∧
      right.2.debugger.breakpoints.armed = [2] ∧ right.2.debugger.tracing = true ∧
      right.2.debugger.state.terminal.output = "7\n8\n" := by
  intro program debugger script full fewer
  have trimmed : Trimmed full fewer := by
    refine .drop (by decide +kernel) (.drop (by decide +kernel) (.keep _ (.keep _ ?_)))
    iterate 6 refine .drop (by decide +kernel) ?_
    refine .keep _ ?_
    iterate 4 refine .drop (by decide +kernel) ?_
    exact .keep _ .nil
  have checked : (run 9 { debugger, script := some fewer, screen := some "" }).map
      (fun result => (result.2.debugger.breakpoints.armed, result.2.debugger.tracing,
        result.2.debugger.state.terminal.output)) = some ([2], true, "7\n8\n") := by
    decide +kernel
  obtain ⟨right, isRight, seen⟩ := Option.map_eq_some_iff.mp checked
  have alike := inert_lines trimmed 9 debugger (some "") (some "")
  rw [isRight] at alike
  generalize isLeft : run 9 { debugger, script := some full, screen := some "" } = left at alike
  cases alike with
  | @some left _ alike =>
      obtain ⟨armed, tracing, written⟩ : _ ∧ _ ∧ _ := by simpa only [Prod.mk.injEq] using seen
      exact ⟨left, right, rfl, isRight, alike.1, alike.2.2 rfl rfl, armed, tracing, written⟩

end Session

end StackDebugger
