import StackDebugger.Instruction.Basic
import StackDebugger.Text.Basic

/-!
# Lines of bytecode

A line is blank, an instruction, or malformed.  Its first word names an
instruction, and the debug set adds the source annotations to the base set.  The
other words are the operands; words beyond the operands of the mnemonic are
ignored, and the leftmost operand that is missing or malformed is the one
reported.  An instruction is written as its mnemonic and its operands, with one
space before each operand.
-/

namespace StackDebugger

/-- Which instructions a program may use. -/
inductive InstructionSet where
  | base
  | debug
  deriving DecidableEq, Repr

/-- The words that name an instruction. -/
inductive Mnemonic where
  | args
  | bop
  | call
  | dump
  | falseBranch
  | goto
  | halt
  | load
  | label
  | lit
  | pop
  | read
  | ret
  | store
  | write
  | line
  | function
  | formal
  deriving DecidableEq, Repr

namespace Mnemonic

/-- Every mnemonic once. -/
def all : List Mnemonic :=
  [.args, .bop, .call, .dump, .falseBranch, .goto, .halt, .load, .label, .lit, .pop, .read,
    .ret, .store, .write, .line, .function, .formal]

/-- How a mnemonic is written. -/
def word : Mnemonic → String
  | .args => "ARGS"
  | .bop => "BOP"
  | .call => "CALL"
  | .dump => "DUMP"
  | .falseBranch => "FALSEBRANCH"
  | .goto => "GOTO"
  | .halt => "HALT"
  | .load => "LOAD"
  | .label => "LABEL"
  | .lit => "LIT"
  | .pop => "POP"
  | .read => "READ"
  | .ret => "RETURN"
  | .store => "STORE"
  | .write => "WRITE"
  | .line => "LINE"
  | .function => "FUNCTION"
  | .formal => "FORMAL"

/-- Whether a mnemonic names a source annotation. -/
def isDebugOnly : Mnemonic → Bool
  | .line | .function | .formal => true
  | _ => false

/-- Whether an instruction set has the mnemonic. -/
def belongsTo (mnemonic : Mnemonic) : InstructionSet → Bool
  | .base => !mnemonic.isDebugOnly
  | .debug => true

/-- The mnemonic that a word is in an instruction set. -/
def ofWord? (set : InstructionSet) (word : String) : Option Mnemonic :=
  all.find? fun mnemonic => mnemonic.word == word && mnemonic.belongsTo set

@[simp] theorem ofWord?_word (mnemonic : Mnemonic) :
    ofWord? .debug mnemonic.word = some mnemonic := by
  cases mnemonic <;> decide

end Mnemonic

/-- Why a line is not an instruction. -/
inductive DecodeFailure where
  | unknownMnemonic (word : String)
  | missingOperand (mnemonic : Mnemonic) (position : Nat)
  | badInteger (mnemonic : Mnemonic) (word : String)
  | badOperator (word : String)
  deriving DecidableEq, Repr

/-- What a failure says about its line. -/
def DecodeFailure.message : DecodeFailure → String
  | .unknownMnemonic word => "unknown mnemonic '" ++ word ++ "'"
  | .missingOperand mnemonic position =>
      mnemonic.word ++ " is missing operand " ++ toString position
  | .badInteger mnemonic word =>
      mnemonic.word ++ " expects an integer, got '" ++ word ++ "'"
  | .badOperator word => "unknown operator '" ++ word ++ "'"

/-- The mnemonic of a line with the words after it. -/
structure Operands where
  mnemonic : Mnemonic
  words : List String

namespace Operands

/-- The operand at a position. -/
def required (operands : Operands) (position : Nat) : Except DecodeFailure String :=
  match operands.words[position]? with
  | some word => .ok word
  | none => .error (.missingOperand operands.mnemonic position)

/-- Reads a word as a number of some kind. -/
def number {α : Type} (operands : Operands) (read? : List Char → Option α) (word : String) :
    Except DecodeFailure α :=
  match read? word.toList with
  | some value => .ok value
  | none => .error (.badInteger operands.mnemonic word)

/-- The operand at a position, read as a number of some kind. -/
def requiredNumber {α : Type} (operands : Operands) (read? : List Char → Option α)
    (position : Nat) : Except DecodeFailure α := do
  operands.number read? (← operands.required position)

/-- The operand at a position, read as a number of some kind if it is there. -/
def optionalNumber {α : Type} (operands : Operands) (read? : List Char → Option α)
    (position : Nat) : Except DecodeFailure (Option α) :=
  match operands.words[position]? with
  | none => .ok none
  | some word => (operands.number read? word).map some

/-- The instruction that a mnemonic and its operands make. -/
def decode (operands : Operands) : Except DecodeFailure (Instruction String) :=
  let named (position : Nat) := operands.words[position]?
  match operands.mnemonic with
  | .lit => return .lit (← operands.requiredNumber Decimal.int32? 0) (named 1)
  | .load => return .load (← operands.requiredNumber Decimal.size? 0) (named 1)
  | .store => return .store (← operands.requiredNumber Decimal.size? 0) (named 1)
  | .args => return .args (← operands.requiredNumber Decimal.size? 0)
  | .bop => do
      let word ← operands.required 0
      match Operator.ofSymbol? word with
      | some operator => return .bop operator
      | none => throw (.badOperator word)
  | .call => return .call (← operands.required 0)
  | .goto => return .goto (← operands.required 0)
  | .falseBranch => return .falseBranch (← operands.required 0)
  | .ret => return .ret (named 0)
  | .label => return .label (← operands.required 0)
  | .halt => return .halt
  | .pop => return .pop ((← operands.optionalNumber Decimal.size? 0).getD 1)
  | .read => return .read
  | .write => return .write
  | .dump =>
      match named 0 with
      | none => return .dump .now
      | some "ON" => return .dump .on
      | some "OFF" => return .dump .off
      | some word => throw (.badOperator word)
  | .line => return .line (← operands.requiredNumber Decimal.marker? 0)
  | .function => do
      let name ← operands.required 0
      let first ← operands.requiredNumber Decimal.marker? 1
      let last ← operands.requiredNumber Decimal.marker? 2
      return .function name first last
  | .formal => do
      let name ← operands.required 0
      let offset ← operands.optionalNumber Decimal.size? 1
      return .formal name offset

end Operands

/-- What one line of bytecode turns out to be. -/
inductive DecodedLine where
  | blank
  | instruction (instruction : Instruction String)
  | malformed (failure : DecodeFailure)
  deriving DecidableEq, Repr

/-- Decodes the words of a line. -/
def DecodedLine.ofWords (set : InstructionSet) : List String → DecodedLine
  | [] => .blank
  | head :: words =>
      match Mnemonic.ofWord? set head with
      | none => .malformed (.unknownMnemonic head)
      | some mnemonic =>
          match ({ mnemonic, words } : Operands).decode with
          | .ok decoded => .instruction decoded
          | .error failure => .malformed failure

/-- Decodes one line of bytecode. -/
def decodeLine (set : InstructionSet) (line : List Char) : DecodedLine :=
  .ofWords set ((Text.words line).map String.ofList)

end StackDebugger

namespace StackDebugger.Instruction

/-- An operand that may be missing, with the space before it. -/
def optionalOperand : Option String → String
  | none => ""
  | some operand => " " ++ operand

/-- The line of bytecode that stands for an instruction. -/
def render : Instruction String → String
  | .lit value name => "LIT " ++ Decimal.ofInt32 value ++ optionalOperand name
  | .load offset name => "LOAD " ++ toString offset ++ optionalOperand name
  | .store offset name => "STORE " ++ toString offset ++ optionalOperand name
  | .args count => "ARGS " ++ toString count
  | .bop operator => "BOP " ++ operator.symbol
  | .call destination => "CALL " ++ destination
  | .ret owner => "RETURN" ++ optionalOperand owner
  | .goto destination => "GOTO " ++ destination
  | .falseBranch destination => "FALSEBRANCH " ++ destination
  | .label name => "LABEL " ++ name
  | .halt => "HALT"
  | .pop count => "POP " ++ toString count
  | .read => "READ"
  | .write => "WRITE"
  | .dump .now => "DUMP"
  | .dump .on => "DUMP ON"
  | .dump .off => "DUMP OFF"
  | .line number => "LINE " ++ Decimal.ofMarker number
  | .function name first last =>
      "FUNCTION " ++ name ++ " " ++ Decimal.ofMarker first ++ " " ++ Decimal.ofMarker last
  | .formal name offset => "FORMAL " ++ name ++ optionalOperand (offset.map toString)

end StackDebugger.Instruction
