/-!
# Operators and instructions

The binary operators of the machine work on 32-bit integers.  Arithmetic wraps;
comparisons and the two logical operators answer zero or one.  An instruction is
parametrised by what its jumps carry: a label before the program is put
together, a label with its address afterwards.
-/

namespace StackDebugger

/-- The operators that combine the two topmost values. -/
inductive Operator where
  | add
  | sub
  | mul
  | div
  | eq
  | ne
  | lt
  | le
  | gt
  | ge
  | and
  | or
  deriving DecidableEq, Repr

namespace Operator

/-- Every operator once. -/
def all : List Operator :=
  [.add, .sub, .mul, .div, .eq, .ne, .lt, .le, .gt, .ge, .and, .or]

/-- How an operator is written. -/
def symbol : Operator → String
  | .add => "+"
  | .sub => "-"
  | .mul => "*"
  | .div => "/"
  | .eq => "=="
  | .ne => "!="
  | .lt => "<"
  | .le => "<="
  | .gt => ">"
  | .ge => ">="
  | .and => "&"
  | .or => "|"

/-- The operator that a word names. -/
def ofSymbol? (word : String) : Option Operator :=
  all.find? fun operator => operator.symbol == word

/-- Truth as a machine integer. -/
def truth (condition : Bool) : Int32 :=
  if condition then 1 else 0

/-- The value of an operator on the deeper and the upper of the two topmost values.
Only division by zero has no result. -/
def eval? (operator : Operator) (left right : Int32) : Option Int32 :=
  match operator with
  | .add => some (left + right)
  | .sub => some (left - right)
  | .mul => some (left * right)
  | .div => if right = 0 then none else some (left / right)
  | .eq => some (truth (left == right))
  | .ne => some (truth (left != right))
  | .lt => some (truth (left < right))
  | .le => some (truth (left ≤ right))
  | .gt => some (truth (left > right))
  | .ge => some (truth (left ≥ right))
  | .and => some (truth (left != 0 && right != 0))
  | .or => some (truth (left != 0 || right != 0))

@[simp] theorem ofSymbol?_symbol (operator : Operator) :
    ofSymbol? operator.symbol = some operator := by
  cases operator <;> decide

end Operator

/-- What a `DUMP` instruction asks for. -/
inductive DumpMode where
  /-- Show the stack once. -/
  | now
  /-- Show every later instruction and the stack after it. -/
  | on
  /-- Stop showing them. -/
  | off
  deriving DecidableEq, Repr

/-- The instructions of the machine, whose jumps carry a `ρ`. -/
inductive Instruction (ρ : Type) where
  | lit (value : Int32) (name : Option String)
  | load (offset : Nat) (name : Option String)
  | store (offset : Nat) (name : Option String)
  | args (count : Nat)
  | bop (operator : Operator)
  | call (destination : ρ)
  | ret (owner : Option String)
  | goto (destination : ρ)
  | falseBranch (destination : ρ)
  | label (name : String)
  | halt
  | pop (count : Nat)
  | read
  | write
  | dump (mode : DumpMode)
  /-- The source line that is reached; native code has none. -/
  | line (number : Option Nat)
  /-- The function that is entered, with its first and last source line. -/
  | function (name : String) (first last : Option Nat)
  /-- A parameter, in the next free slot unless an offset is given. -/
  | formal (name : String) (offset : Option Nat)
  deriving DecidableEq, Repr

/-- Where a jump goes: a label and the index of the instruction that declares
it. -/
structure Jump where
  label : String
  target : Nat
  deriving DecidableEq, Repr

namespace Instruction

variable {ρ σ : Type}

/-- What the instruction's jump carries, if it is a jump. -/
def destination? : Instruction ρ → Option ρ
  | .call destination => some destination
  | .goto destination => some destination
  | .falseBranch destination => some destination
  | _ => none

/-- Replaces what a jump carries, or fails where the replacement fails. -/
def traverse {ε : Type} (replace : ρ → Except ε σ) : Instruction ρ → Except ε (Instruction σ)
  | .lit value name => .ok (.lit value name)
  | .load offset name => .ok (.load offset name)
  | .store offset name => .ok (.store offset name)
  | .args count => .ok (.args count)
  | .bop operator => .ok (.bop operator)
  | .call destination => (replace destination).map .call
  | .ret owner => .ok (.ret owner)
  | .goto destination => (replace destination).map .goto
  | .falseBranch destination => (replace destination).map .falseBranch
  | .label name => .ok (.label name)
  | .halt => .ok .halt
  | .pop count => .ok (.pop count)
  | .read => .ok .read
  | .write => .ok .write
  | .dump mode => .ok (.dump mode)
  | .line number => .ok (.line number)
  | .function name first last => .ok (.function name first last)
  | .formal name offset => .ok (.formal name offset)

/-- Replaces what a jump carries. -/
def map (replace : ρ → σ) : Instruction ρ → Instruction σ
  | .lit value name => .lit value name
  | .load offset name => .load offset name
  | .store offset name => .store offset name
  | .args count => .args count
  | .bop operator => .bop operator
  | .call destination => .call (replace destination)
  | .ret owner => .ret owner
  | .goto destination => .goto (replace destination)
  | .falseBranch destination => .falseBranch (replace destination)
  | .label name => .label name
  | .halt => .halt
  | .pop count => .pop count
  | .read => .read
  | .write => .write
  | .dump mode => .dump mode
  | .line number => .line number
  | .function name first last => .function name first last
  | .formal name offset => .formal name offset

/-- The instruction as it is written, with labels for addresses. -/
def symbolic (instruction : Instruction Jump) : Instruction String :=
  instruction.map Jump.label

/-- The source annotations, which only the debugger acts on. -/
def isDebugOnly : Instruction ρ → Bool
  | .line _ => true
  | .function _ _ _ => true
  | .formal _ _ => true
  | _ => false

@[simp] theorem destination?_map (replace : ρ → σ) (instruction : Instruction ρ) :
    (instruction.map replace).destination? = instruction.destination?.map replace := by
  cases instruction <;> rfl

@[simp] theorem isDebugOnly_map (replace : ρ → σ) (instruction : Instruction ρ) :
    (instruction.map replace).isDebugOnly = instruction.isDebugOnly := by
  cases instruction <;> rfl

end Instruction

end StackDebugger
