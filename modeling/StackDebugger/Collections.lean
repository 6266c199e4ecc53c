/-!
# Dictionaries and sets of lines

A dictionary gives values to names, and a set of source lines holds line
numbers.  Both are lists in strictly ascending order, so that equal dictionaries
and equal sets are equal lists.
-/

namespace StackDebugger

/-- Names with their values, in strictly ascending order of the names. -/
abbrev Dictionary (α : Type) := List (String × α)

namespace Dictionary

variable {α : Type}

/-- Gives a value to a name, in place of an earlier value of that name. -/
def insert (name : String) (value : α) : Dictionary α → Dictionary α
  | [] => [(name, value)]
  | (first, held) :: rest =>
      if name < first then (name, value) :: (first, held) :: rest
      else if name = first then (name, value) :: rest
      else (first, held) :: insert name value rest

/-- The dictionary of pairs in any order, where the last of each name
counts. -/
def ofPairs (pairs : List (String × α)) : Dictionary α :=
  pairs.foldl (fun dictionary pair => insert pair.1 pair.2 dictionary) []

@[simp] theorem ofPairs_nil : ofPairs ([] : List (String × α)) = [] := rfl

@[simp] theorem insert_nil (name : String) (value : α) :
    insert name value [] = [(name, value)] := rfl

end Dictionary

/-- Line numbers in strictly ascending order. -/
abbrev LineSet := List Nat

namespace LineSet

/-- Adds a line to a set. -/
def insert (line : Nat) : LineSet → LineSet
  | [] => [line]
  | first :: rest =>
      if line < first then line :: first :: rest
      else if line = first then first :: rest
      else first :: insert line rest

/-- Removes a line from a set. -/
def erase (line : Nat) (lines : LineSet) : LineSet :=
  lines.filter (· != line)

/-- The set of lines given in any order. -/
def ofLines (lines : List Nat) : LineSet :=
  lines.foldl (fun set line => insert line set) []

@[simp] theorem insert_nil (line : Nat) : insert line [] = [line] := rfl

@[simp] theorem mem_insert {line other : Nat} {lines : LineSet} :
    other ∈ insert line lines ↔ other = line ∨ other ∈ lines := by
  induction lines with
  | nil => simp
  | cons first rest ih =>
      simp only [insert]
      split
      · simp
      · split
        · next equal => simp [equal]
        · simp only [List.mem_cons, ih]
          constructor
          · rintro (same | same | member) <;> simp [*]
          · rintro (same | same | member) <;> simp [*]

@[simp] theorem mem_erase {line other : Nat} {lines : LineSet} :
    other ∈ erase line lines ↔ other ∈ lines ∧ other ≠ line := by
  simp [erase]

end LineSet

end StackDebugger
