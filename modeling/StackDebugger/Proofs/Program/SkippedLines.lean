import StackDebugger.Proofs.Program.Annotation
import StackDebugger.Proofs.Text.Words

/-!
# Lines that are left out

A line of a bytecode text gives an instruction, or it is blank or malformed and gives none.
Lines of the second kind can be taken out of a text and put into it wherever a line can begin:
the same program is loaded, or the same fault is reported.  `Thinned` says of two texts that one
has fewer such lines; what is taken out is a line with its ending, which may be a line feed, a
carriage return with a line feed, or nothing at the end of the text.

`LoadedProgram.Accounts` says what has become of each line of a text that was loaded.
-/

namespace StackDebugger

namespace DecodedLine

/-- Whether a line gives no instruction. -/
def isIdle : DecodedLine → Bool
  | .blank | .malformed _ => true
  | .instruction _ => false

theorem instruction?_of_isIdle {decoded : DecodedLine} (idle : decoded.isIdle = true) :
    decoded.instruction? = none := by
  cases decoded with
  | blank | malformed reason => rfl
  | instruction instruction => contradiction

/-- What is reported about a line. -/
def reports (number : Nat) (line : List Char) : DecodedLine → List SkippedLine
  | .malformed reason => [{ number, text := String.ofList line, reason }]
  | .blank | .instruction _ => []

theorem isSome_instruction? (decoded : DecodedLine) :
    decoded.instruction?.isSome = !decoded.isIdle := by
  cases decoded <;> rfl

end DecodedLine

/-- One text is another without some of its lines that give no instruction. -/
inductive Thinned (set : InstructionSet) : List Char → List Char → Prop where
  | keepLast {line : List Char} : '\n' ∉ line → Thinned set line line
  | dropLast {line : List Char} :
      '\n' ∉ line → (decodeLine set line).isIdle = true → Thinned set line []
  | keep {line full fewer : List Char} :
      '\n' ∉ line → Thinned set full fewer →
      Thinned set (line ++ '\n' :: full) (line ++ '\n' :: fewer)
  | drop {line full fewer : List Char} :
      '\n' ∉ line → (decodeLine set line).isIdle = true → Thinned set full fewer →
      Thinned set (line ++ '\n' :: full) fewer
  /-- The line feed goes with what stood behind it. -/
  | keepUnended {line full : List Char} :
      '\n' ∉ line → Thinned set full [] → Thinned set (line ++ '\n' :: full) line

/-- The instructions that the lines of a text give. -/
def instructionsOf (set : InstructionSet) (text : List Char) : List (Instruction String) :=
  (Text.lines text).filterMap fun line => (decodeLine set line).instruction?

variable {set : InstructionSet}

/-- The carriage return of a line's ending makes no difference to the line. -/
theorem decodeLine_withoutReturn (set : InstructionSet) (line : List Char) :
    decodeLine set (Text.withoutReturn line) = decodeLine set line := by
  rw [decodeLine, decodeLine, Text.words_withoutReturn]

theorem instructionsOf_line {line : List Char} (noFeed : '\n' ∉ line) (rest : List Char) :
    instructionsOf set (line ++ '\n' :: rest) =
      (decodeLine set line).instruction?.toList ++ instructionsOf set rest := by
  rw [instructionsOf, Text.lines_append_of_noFeed noFeed, List.filterMap_cons,
    decodeLine_withoutReturn, instructionsOf]
  cases (decodeLine set line).instruction? with
  | none => rfl
  | some instruction => rfl

theorem instructionsOf_last {line : List Char} (noFeed : '\n' ∉ line) :
    instructionsOf set line = (decodeLine set line).instruction?.toList := by
  rw [instructionsOf, Text.lines_of_noFeed noFeed]
  cases line with
  | nil => rfl
  | cons c line =>
      rw [List.isEmpty_cons, if_neg Bool.false_ne_true, List.filterMap_cons]
      cases (decodeLine set (c :: line)).instruction? with
      | none => rfl
      | some instruction => rfl

/-- Lines that give no instruction make no difference to the instructions of a text. -/
theorem Thinned.instructionsOf_eq {full fewer : List Char} (thinned : Thinned set full fewer) :
    instructionsOf set full = instructionsOf set fewer := by
  induction thinned with
  | keepLast noFeed => rfl
  | dropLast noFeed idle =>
      rw [instructionsOf_last noFeed, DecodedLine.instruction?_of_isIdle idle]
      rfl
  | keep noFeed _ ih => rw [instructionsOf_line noFeed, instructionsOf_line noFeed, ih]
  | drop noFeed idle _ ih =>
      rw [instructionsOf_line noFeed, DecodedLine.instruction?_of_isIdle idle, ih]
      rfl
  | keepUnended noFeed _ ih =>
      rw [instructionsOf_line noFeed, ih, instructionsOf_last noFeed]
      exact List.append_nil _

theorem program_load (set : InstructionSet) (text : String) :
    (Program.load set text).map LoadedProgram.program =
      Program.resolve (instructionsOf set text.toList) := by
  rw [Program.load, instructionsOf, ← decodeLines_fst set 1]
  simp only
  cases Program.resolve (decodeLines set 1 (Text.lines text.toList)).1 with
  | error failure => rfl
  | ok program => rfl

/-- The number of instructions that lines before an index give. -/
def instructionsBefore (set : InstructionSet) (lines : List (List Char)) (index : Nat) : Nat :=
  (lines.take index).countP fun line => !(decodeLine set line).isIdle

namespace LoadedProgram

/-- What was reported about the line with a number. -/
def reports (loaded : LoadedProgram) (number : Nat) : List SkippedLine :=
  loaded.skipped.filter fun skipped => skipped.number == number

/-- What has become of a line: it is an instruction of the program, or it is blank, or it was
left out and reported once. -/
def AccountsFor (loaded : LoadedProgram) (position number : Nat) (line : List Char) :
    DecodedLine → Prop
  | .blank => loaded.reports number = []
  | .instruction instruction =>
      (loaded.program.fetch? position).map Instruction.symbolic = some instruction ∧
        loaded.reports number = []
  | .malformed reason => loaded.reports number = [{ number, text := String.ofList line, reason }]

/-- Every line is accounted for, in the order of the lines, and nothing else is loaded or
reported. -/
structure Accounts (loaded : LoadedProgram) (set : InstructionSet) (lines : List (List Char)) :
    Prop where
  each : ∀ (index : Nat) (line : List Char), lines[index]? = some line →
    loaded.AccountsFor (instructionsBefore set lines index) (index + 1) line (decodeLine set line)
  size : loaded.program.size = instructionsBefore set lines lines.length
  numbers : ∀ skipped ∈ loaded.skipped, 1 ≤ skipped.number ∧ skipped.number ≤ lines.length
  ascending : loaded.skipped.Pairwise fun earlier later => earlier.number < later.number

end LoadedProgram

theorem number_of_mem_decodeLines {lines : List (List Char)} {start : Nat} {skipped : SkippedLine}
    (member : skipped ∈ (decodeLines set start lines).2) :
    start ≤ skipped.number ∧ skipped.number < start + lines.length := by
  induction lines generalizing start with
  | nil => simp [decodeLines] at member
  | cons line lines ih =>
      have later (inRest : skipped ∈ (decodeLines set (start + 1) lines).2) :
          start ≤ skipped.number ∧ skipped.number < start + (line :: lines).length := by
        have bounds := ih inRest
        rw [List.length_cons]
        omega
      rw [decodeLines] at member
      cases decoded : decodeLine set line with
      | blank => exact later (by simpa [decoded] using member)
      | instruction instruction => exact later (by simpa [decoded] using member)
      | malformed reason =>
          simp only [decoded, List.mem_cons] at member
          rcases member with rfl | inRest
          · rw [List.length_cons]
            dsimp only
            omega
          · exact later inRest

theorem pairwise_decodeLines (set : InstructionSet) (start : Nat) (lines : List (List Char)) :
    (decodeLines set start lines).2.Pairwise fun earlier later =>
      earlier.number < later.number := by
  induction lines generalizing start with
  | nil => exact List.Pairwise.nil
  | cons line lines ih =>
      rw [decodeLines]
      cases decodeLine set line with
      | blank => exact ih (start + 1)
      | instruction instruction => exact ih (start + 1)
      | malformed reason =>
          refine List.pairwise_cons.mpr ⟨?_, ih (start + 1)⟩
          intro later member
          exact (number_of_mem_decodeLines member).1

/-- The reports about one of the lines numbered from `start` are what that line gives rise
to. -/
theorem filter_decodeLines {lines : List (List Char)} {line : List Char} {index : Nat}
    (start : Nat) (found : lines[index]? = some line) :
    ((decodeLines set start lines).2.filter fun skipped => skipped.number == start + index) =
      (decodeLine set line).reports (start + index) line := by
  induction lines generalizing start index with
  | nil => simp at found
  | cons first lines ih =>
      cases index with
      | zero =>
          obtain rfl : first = line := by simpa using found
          have none : ((decodeLines set (start + 1) lines).2.filter fun skipped =>
              skipped.number == start + 0) = [] := by
            apply List.filter_eq_nil_iff.mpr
            intro skipped member
            have behind := (number_of_mem_decodeLines member).1
            simp only [beq_iff_eq]
            omega
          rw [decodeLines]
          cases decodeLine set first with
          | blank => exact none
          | instruction instruction => exact none
          | malformed reason =>
              refine (List.filter_cons_of_pos ?_).trans (congrArg _ none)
              simp
      | succ index =>
          have later := ih (start + 1) (by simpa using found)
          rw [Nat.add_assoc, Nat.add_comm 1 index] at later
          rw [decodeLines]
          cases decodeLine set first with
          | blank => exact later
          | instruction instruction => exact later
          | malformed reason =>
              refine (List.filter_cons_of_neg ?_).trans later
              simp

theorem length_filterMap_instruction? (set : InstructionSet) (lines : List (List Char)) :
    (lines.filterMap fun line => (decodeLine set line).instruction?).length =
      instructionsBefore set lines lines.length := by
  rw [List.length_filterMap_eq_countP, instructionsBefore, List.take_length]
  simp only [DecodedLine.isSome_instruction?]

/-- An instruction stands behind those of the lines before its line. -/
theorem getElem?_filterMap_instruction? {lines : List (List Char)} {line : List Char}
    {index : Nat} {instruction : Instruction String} (found : lines[index]? = some line)
    (decoded : decodeLine set line = .instruction instruction) :
    (lines.filterMap fun line => (decodeLine set line).instruction?)[
      instructionsBefore set lines index]? = some instruction := by
  obtain ⟨inside, isLine⟩ := List.getElem?_eq_some_iff.mp found
  have cut : lines = lines.take index ++ line :: lines.drop (index + 1) := by
    rw [← isLine, List.getElem_cons_drop, List.take_append_drop]
  have before : ((lines.take index).filterMap fun line =>
      (decodeLine set line).instruction?).length = instructionsBefore set lines index := by
    rw [length_filterMap_instruction?, instructionsBefore, instructionsBefore, List.take_length]
  generalize instructionsBefore set lines index = position at before ⊢
  rw [cut, List.filterMap_append, List.filterMap_cons, decoded, ← before]
  simp [DecodedLine.instruction?]

theorem Program.accounts_of_load {text : String} {loaded : LoadedProgram}
    (isLoaded : load set text = .ok loaded) : loaded.Accounts set (Text.lines text.toList) := by
  obtain ⟨resolved, isSkipped⟩ := load_eq_ok_iff.mp isLoaded
  have symbolic := (resolve_eq_ok_iff.mp resolved).symbolic
  refine ⟨?_, ?_, ?_, ?_⟩
  · intro index line found
    have reported : loaded.reports (index + 1) =
        (decodeLine set line).reports (index + 1) line := by
      rw [LoadedProgram.reports, isSkipped, Nat.add_comm index 1]
      exact filter_decodeLines 1 found
    cases decoded : decodeLine set line with
    | blank | malformed reason =>
        rw [decoded] at reported
        exact reported
    | instruction instruction =>
        rw [decoded] at reported
        refine ⟨?_, reported⟩
        rw [fetch?, ← Array.getElem?_toList, ← List.getElem?_map, symbolic]
        exact getElem?_filterMap_instruction? found decoded
  · rw [size, ← Array.length_toList, ← List.length_map, symbolic, length_filterMap_instruction?]
  · intro skipped member
    rw [isSkipped] at member
    have bounds := number_of_mem_decodeLines member
    omega
  · rw [isSkipped]
    exact pairwise_decodeLines set 1 _

/-- Lines that give no instruction change nothing but what is reported.  Whatever blank and
malformed lines are taken out of a text or put into it, the same program is loaded or the same
fault of its labels reported.  Of a text that is loaded every line is accounted for: in their
order the lines give the instructions of the program, are blank, or are reported with their
number, their text and the reason.  And a text is loaded alike with line feeds and with
carriage returns before them. -/
theorem Program.idle_lines_make_no_difference (set : InstructionSet) :
    (∀ full fewer : String, Thinned set full.toList fewer.toList →
      (load set full).map LoadedProgram.program = (load set fewer).map LoadedProgram.program) ∧
    (∀ text loaded, load set text = .ok loaded →
      loaded.Accounts set (Text.lines text.toList)) ∧
    ∀ text : String, '\r' ∉ text.toList →
      load set (String.ofList (Text.withReturns text.toList)) = load set text := by
  refine ⟨?_, fun text loaded => accounts_of_load, ?_⟩
  · intro full fewer thinned
    rw [program_load, program_load, thinned.instructionsOf_eq]
  · intro text noReturn
    have sameLines : Text.lines (Text.withReturns text.toList) = Text.lines text.toList :=
      Text.linesAfter_withReturns List.not_mem_nil noReturn
    rw [load, load, String.toList_ofList, sameLines]

/-- A blank line and two malformed ones, of which one is ended by a carriage return with its line
feed and the other one by nothing, are taken out from around the instructions of a text. -/
theorem Program.idle_lines_make_no_difference_endings :
    let fewer := "GOTO end\nWRITE\nLABEL end"
    let full := "GOTO end\n\nBOGUS\r\nWRITE\nLABEL end\nLIT x"
    let program : Program :=
      { code := #[.goto ⟨"end", 2⟩, .write, .label "end"], labels := [("end", 2)] }
    let loaded : LoadedProgram :=
      { program
        skipped := [⟨3, "BOGUS", .unknownMnemonic "BOGUS"⟩, ⟨6, "LIT x", .badInteger .lit "x"⟩] }
    (load .base fewer).map LoadedProgram.program = .ok program ∧
      (load .base full).map LoadedProgram.program = .ok program ∧
      load .base full = .ok loaded ∧ loaded.Accounts .base (Text.lines full.toList) ∧
      load .base "GOTO end\r\nWRITE\r\nLABEL end" = load .base fewer := by
  intro fewer full program loaded
  have isLoaded : load .base full = .ok loaded := by decide +kernel
  have isFewer : fewer.toList =
      "GOTO end".toList ++ '\n' :: ("WRITE".toList ++ '\n' :: "LABEL end".toList) := by
    decide +kernel
  have isFull : full.toList =
      "GOTO end".toList ++ '\n' :: ([] ++ '\n' :: ("BOGUS\r".toList ++ '\n' ::
        ("WRITE".toList ++ '\n' :: ("LABEL end".toList ++ '\n' :: "LIT x".toList)))) := by
    decide +kernel
  have thinned : Thinned .base full.toList fewer.toList := by
    rw [isFull, isFewer]
    refine .keep (by decide +kernel) (.drop (by decide +kernel) (by decide +kernel) ?_)
    refine .drop (by decide +kernel) (by decide +kernel) (.keep (by decide +kernel) ?_)
    exact .keepUnended (by decide +kernel) (.dropLast (by decide +kernel) (by decide +kernel))
  have ended : String.ofList (Text.withReturns fewer.toList) =
      "GOTO end\r\nWRITE\r\nLABEL end" := by
    decide +kernel
  obtain ⟨thins, accounts, returns⟩ := idle_lines_make_no_difference .base
  have fromFull : (load .base full).map LoadedProgram.program = .ok program := by
    rw [isLoaded]
    rfl
  have fromReturns := returns fewer (by decide +kernel)
  rw [ended] at fromReturns
  exact ⟨(thins full fewer thinned).symm.trans fromFull, fromFull, isLoaded,
    accounts full loaded isLoaded, fromReturns⟩

end StackDebugger
