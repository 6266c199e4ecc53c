import StackDebugger.Collections
import StackDebugger.Instruction.Text

/-!
# Programs

A program is a sequence of instructions whose jumps have addresses, together
with the address of every label.  A sequence of instructions becomes a program
when every label is declared at most once and every jump names a declared label.
A repeated declaration is reported before any jump is looked at, and of several
faults of one kind the one at the least index is reported.  Each line of a
bytecode text gives an instruction, is blank, or is skipped with the reason;
skipped lines do not stop the load, labels that cannot be resolved do.
-/

namespace StackDebugger

/-- Labels with the index of the instruction that declares them, in the order
of their declarations. -/
abbrev LabelTable := List (String × Nat)

/-- A sequence of instructions whose jumps have been given their addresses. -/
structure Program where
  code : Array (Instruction Jump) := #[]
  labels : LabelTable := []
  deriving DecidableEq, Repr

namespace Program

/-- The instruction at an index. -/
def fetch? (program : Program) (index : Nat) : Option (Instruction Jump) :=
  program.code[index]?

/-- The number of instructions. -/
def size (program : Program) : Nat :=
  program.code.size

/-- The index at which a label is declared. -/
def addressOf? (program : Program) (label : String) : Option Nat :=
  program.labels.lookup label

/-- The source line that an instruction marks. -/
def markedLine? : Instruction Jump → Option Nat
  | .line number => number
  | _ => none

/-- The source lines that the program marks. -/
def markedLines (program : Program) : LineSet :=
  LineSet.ofLines (program.code.toList.filterMap markedLine?)

end Program

/-- Why a sequence of instructions is not a program. -/
inductive ResolveError where
  | duplicateLabel (label : String) (first second : Nat)
  | unresolvedLabel (label : String) (index : Nat)
  deriving DecidableEq, Repr

/-- What an error says. -/
def ResolveError.message : ResolveError → String
  | .duplicateLabel label first second =>
      "label '" ++ label ++ "' defined twice (instructions " ++ toString first ++ " and " ++
        toString second ++ ")"
  | .unresolvedLabel label index =>
      "instruction " ++ toString index ++ " jumps to unknown label '" ++ label ++ "'"

namespace Program

/-- Extends a table by the labels declared in instructions that start at an
index. -/
def collectLabels (table : LabelTable) (index : Nat) :
    List (Instruction String) → Except ResolveError LabelTable
  | [] => .ok table
  | .label name :: rest =>
      match table.lookup name with
      | some first => .error (.duplicateLabel name first index)
      | none => collectLabels (table ++ [(name, index)]) (index + 1) rest
  | _ :: rest => collectLabels table (index + 1) rest

/-- The address of the label that the jump at an index names. -/
def resolveJump (table : LabelTable) (index : Nat) (label : String) : Except ResolveError Jump :=
  match table.lookup label with
  | some target => .ok { label, target }
  | none => .error (.unresolvedLabel label index)

/-- Gives the jumps in instructions that start at an index their addresses. -/
def resolveJumps (table : LabelTable) (index : Nat) :
    List (Instruction String) → Except ResolveError (List (Instruction Jump))
  | [] => .ok []
  | instruction :: rest =>
      match instruction.traverse (resolveJump table index) with
      | .error failure => .error failure
      | .ok resolved =>
          match resolveJumps table (index + 1) rest with
          | .error failure => .error failure
          | .ok later => .ok (resolved :: later)

/-- Puts a program together from instructions whose jumps name labels. -/
def resolve (code : List (Instruction String)) : Except ResolveError Program :=
  match collectLabels [] 0 code with
  | .error failure => .error failure
  | .ok labels =>
      match resolveJumps labels 0 code with
      | .error failure => .error failure
      | .ok resolved => .ok { code := resolved.toArray, labels }

end Program

/-- A line that was left out, counted from one. -/
structure SkippedLine where
  number : Nat
  text : String
  reason : DecodeFailure
  deriving DecidableEq, Repr

/-- A program with the lines of its text that were left out. -/
structure LoadedProgram where
  program : Program
  skipped : List SkippedLine
  deriving DecidableEq, Repr

/-- The instructions of lines numbered from `number`, and the lines left
out. -/
def decodeLines (set : InstructionSet) (number : Nat) :
    List (List Char) → List (Instruction String) × List SkippedLine
  | [] => ([], [])
  | line :: rest =>
      let (code, skipped) := decodeLines set (number + 1) rest
      match decodeLine set line with
      | .blank => (code, skipped)
      | .instruction instruction => (instruction :: code, skipped)
      | .malformed reason =>
          (code, { number, text := String.ofList line, reason } :: skipped)

/-- Loads a bytecode text. -/
def Program.load (set : InstructionSet) (text : String) : Except ResolveError LoadedProgram :=
  let (code, skipped) := decodeLines set 1 (Text.lines text.toList)
  match Program.resolve code with
  | .error failure => .error failure
  | .ok program => .ok { program, skipped }

end StackDebugger
