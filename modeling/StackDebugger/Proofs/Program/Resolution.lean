import StackDebugger.Program
import Mathlib.Data.List.Nodup

/-!
# Resolved programs

Instructions can be resolved if no label is declared twice and every jump names
a declared label.  `Program.Resolves` says which program they are resolved to:
it reads the same, and each of its jumps goes to the address at which its label
is declared, so that a jump always lands on a label.
-/

namespace StackDebugger

namespace Instruction

variable {ρ σ : Type}

/-- The label that an instruction declares. -/
def declares? : Instruction ρ → Option String
  | .label name => some name
  | _ => none

@[simp] theorem declares?_map (replace : ρ → σ) (instruction : Instruction ρ) :
    (instruction.map replace).declares? = instruction.declares? := by
  cases instruction <;> rfl

theorem declares?_eq_some_iff {instruction : Instruction ρ} {name : String} :
    instruction.declares? = some name ↔ instruction = .label name := by
  cases instruction <;> simp [declares?]

end Instruction

def Jump.relocate (rename : Nat → Nat) (jump : Jump) : Jump :=
  { jump with target := rename jump.target }

/-- The instruction with the address of its jump renamed. -/
def Instruction.relocate (rename : Nat → Nat) (instruction : Instruction Jump) :
    Instruction Jump :=
  instruction.map (Jump.relocate rename)

def LabelTable.relocate (rename : Nat → Nat) (table : LabelTable) : LabelTable :=
  table.map fun entry => (entry.1, rename entry.2)

namespace Instruction

@[simp] theorem relocate_id (instruction : Instruction Jump) :
    instruction.relocate id = instruction := by
  cases instruction <;> rfl

@[simp] theorem symbolic_relocate (rename : Nat → Nat) (instruction : Instruction Jump) :
    (instruction.relocate rename).symbolic = instruction.symbolic := by
  cases instruction <;> rfl

end Instruction

theorem LabelTable.lookup_relocate (rename : Nat → Nat) (table : LabelTable) (label : String) :
    (table.relocate rename).lookup label = (table.lookup label).map rename := by
  induction table with
  | nil => rfl
  | cons entry table ih =>
      change List.lookup label ((entry.1, rename entry.2) :: relocate rename table) = _
      rw [List.lookup_cons, List.lookup_cons]
      split
      · rfl
      · exact ih

theorem LabelTable.lookup_eq_none_iff {table : LabelTable} {label : String} :
    table.lookup label = none ↔ label ∉ table.map Prod.fst := by
  rw [List.lookup_eq_none_iff, List.mem_map]
  constructor
  · rintro unlike ⟨entry, member, rfl⟩
    simpa using unlike entry member
  · intro absent entry member
    apply bne_iff_ne.mpr
    rintro rfl
    exact absent ⟨entry, member, rfl⟩

/-- Whether a table has the label of an instruction's jump at the jump's address. -/
def LabelTable.Links (table : LabelTable) (instruction : Instruction Jump) : Prop :=
  ∀ destination, instruction.destination? = some destination →
    table.lookup destination.label = some destination.target

theorem LabelTable.Links.relocate {table : LabelTable} {instruction : Instruction Jump}
    (links : table.Links instruction) (rename : Nat → Nat) :
    (table.relocate rename).Links (instruction.relocate rename) := by
  intro destination isJump
  rw [Instruction.relocate, Instruction.destination?_map] at isJump
  obtain ⟨original, isOriginal, rfl⟩ := Option.map_eq_some_iff.mp isJump
  change (table.relocate rename).lookup original.label = some (rename original.target)
  rw [lookup_relocate, links original isOriginal]
  rfl

namespace Program

/-- The labels that instructions declare, with their addresses when the first
instruction stands at an index. -/
def declarations (index : Nat) : List (Instruction String) → LabelTable
  | [] => []
  | instruction :: rest =>
      match instruction.declares? with
      | some name => (name, index) :: declarations (index + 1) rest
      | none => declarations (index + 1) rest

/-- A program that instructions are resolved to. -/
structure Resolves (code : List (Instruction String)) (program : Program) : Prop where
  distinct : (code.filterMap Instruction.declares?).Nodup
  labels : program.labels = declarations 0 code
  symbolic : program.code.toList.map Instruction.symbolic = code
  links : ∀ instruction ∈ program.code.toList, program.labels.Links instruction

/-- Whether instructions can be resolved to some program. -/
def IsResolved (program : Program) : Prop :=
  ∃ code, resolve code = .ok program

theorem map_fst_declarations (index : Nat) (code : List (Instruction String)) :
    (declarations index code).map Prod.fst = code.filterMap Instruction.declares? := by
  induction code generalizing index with
  | nil => rfl
  | cons instruction code ih =>
      rw [declarations, List.filterMap_cons]
      cases instruction.declares? with
      | none => exact ih _
      | some name => simp [ih]

/-- A declaration stands where the table says. -/
theorem getElem?_of_mem_declarations {index address : Nat} {code : List (Instruction String)}
    {name : String} (member : (name, address) ∈ declarations index code) :
    ∃ offset, address = index + offset ∧ code[offset]? = some (.label name) := by
  induction code generalizing index with
  | nil => simp [declarations] at member
  | cons instruction code ih =>
      have later : (name, address) ∈ declarations (index + 1) code →
          ∃ offset, address = index + offset ∧
            (instruction :: code)[offset]? = some (.label name) := by
        intro inRest
        obtain ⟨offset, isAddress, found⟩ := ih inRest
        exact ⟨offset + 1, by omega, by simpa using found⟩
      rw [declarations] at member
      split at member
      · next declared isDeclared =>
          rcases List.mem_cons.mp member with here | inRest
          · obtain ⟨rfl, rfl⟩ := Prod.mk.inj here
            refine ⟨0, rfl, ?_⟩
            simpa using Instruction.declares?_eq_some_iff.mp isDeclared
          · exact later inRest
      · exact later member

theorem collectLabels_eq_ok_iff {table labels : LabelTable} {index : Nat}
    {code : List (Instruction String)} (distinct : (table.map Prod.fst).Nodup) :
    collectLabels table index code = .ok labels ↔
      (table.map Prod.fst ++ code.filterMap Instruction.declares?).Nodup ∧
        labels = table ++ declarations index code := by
  induction code generalizing table index with
  | nil => simp [collectLabels, declarations, distinct, eq_comm]
  | cons instruction code ih =>
      cases declared : instruction.declares? with
      | none =>
          have collected : collectLabels table index (instruction :: code) =
              collectLabels table (index + 1) code := by
            cases instruction <;> simp [Instruction.declares?] at declared <;> rfl
          rw [collected, declarations, List.filterMap_cons, declared]
          exact ih distinct
      | some name =>
          obtain rfl := Instruction.declares?_eq_some_iff.mp declared
          rw [declarations, List.filterMap_cons, declared, collectLabels]
          split
          · next first found =>
              have declaredBefore : name ∈ table.map Prod.fst := by
                apply Classical.not_not.mp
                rw [← LabelTable.lookup_eq_none_iff, found]
                simp
              constructor
              · simp
              · rintro ⟨nodup, -⟩
                have apart := (List.nodup_append.mp nodup).2.2
                exact absurd rfl (apart name declaredBefore name (by simp))
          · next notFound =>
              have fresh := LabelTable.lookup_eq_none_iff.mp notFound
              have stillDistinct : ((table ++ [(name, index)]).map Prod.fst).Nodup := by
                rw [List.map_append, List.map_singleton]
                exact List.nodup_append.mpr
                  ⟨distinct, List.nodup_singleton _, by
                    rintro earlier member _ here rfl
                    exact fresh (by simpa [List.mem_singleton.mp here] using member)⟩
              rw [ih stillDistinct]
              simp [List.append_assoc]

theorem resolveJump_eq_ok_iff {table : LabelTable} {index : Nat} {label : String} {jump : Jump} :
    resolveJump table index label = .ok jump ↔
      jump.label = label ∧ table.lookup label = some jump.target := by
  unfold resolveJump
  cases found : table.lookup label with
  | none => simp
  | some target =>
      obtain ⟨named, address⟩ := jump
      simp only [Except.ok.injEq, Jump.mk.injEq, Option.some.injEq]
      exact and_congr_left fun _ => eq_comm

theorem symbolic_of_traverse {table : LabelTable} {index : Nat}
    {instruction : Instruction String} {linked : Instruction Jump}
    (traversed : instruction.traverse (resolveJump table index) = .ok linked) :
    linked.symbolic = instruction ∧ table.Links linked := by
  have jumps : ∀ {make : Jump → Instruction Jump} {label : String},
      (resolveJump table index label).map make = .ok linked →
      ∃ jump, jump.label = label ∧ table.lookup label = some jump.target ∧ linked = make jump := by
    intro make label mapped
    cases resolved : resolveJump table index label with
    | error failure => simp [resolved, Except.map] at mapped
    | ok jump =>
        obtain ⟨sameLabel, found⟩ := resolveJump_eq_ok_iff.mp resolved
        exact ⟨jump, sameLabel, found, by simpa [resolved, Except.map, eq_comm] using mapped⟩
  cases instruction with
  | call label | goto label | falseBranch label =>
      obtain ⟨jump, rfl, found, rfl⟩ := jumps traversed
      refine ⟨rfl, ?_⟩
      rintro destination ⟨⟩
      exact found
  | _ =>
      obtain rfl := Except.ok.inj traversed
      refine ⟨rfl, ?_⟩
      rintro destination ⟨⟩

theorem traverse_symbolic {table : LabelTable} (index : Nat) {linked : Instruction Jump}
    (links : table.Links linked) :
    linked.symbolic.traverse (resolveJump table index) = .ok linked := by
  cases linked with
  | call jump | goto jump | falseBranch jump =>
      have resolved : resolveJump table index jump.label = .ok jump :=
        resolveJump_eq_ok_iff.mpr ⟨rfl, links jump rfl⟩
      simp [Instruction.symbolic, Instruction.map, Instruction.traverse, resolved, Except.map]
  | _ => rfl

/-- Resolved instructions read the same, and the table links their jumps. -/
theorem resolveJumps_eq_ok_iff {table : LabelTable} {index : Nat}
    {code : List (Instruction String)} {resolved : List (Instruction Jump)} :
    resolveJumps table index code = .ok resolved ↔
      resolved.map Instruction.symbolic = code ∧
        ∀ instruction ∈ resolved, table.Links instruction := by
  constructor
  · intro isResolved
    induction code generalizing index resolved with
    | nil =>
        obtain rfl := Except.ok.inj isResolved
        simp
    | cons instruction code ih =>
        rw [resolveJumps] at isResolved
        split at isResolved
        · contradiction
        · next linked traversed =>
            split at isResolved
            · contradiction
            · next later laterResolved =>
                obtain rfl := Except.ok.inj isResolved
                obtain ⟨sameFirst, firstLinks⟩ := symbolic_of_traverse traversed
                obtain ⟨sameLater, laterLinks⟩ := ih laterResolved
                exact ⟨by rw [List.map_cons, sameFirst, sameLater],
                  List.forall_mem_cons.mpr ⟨firstLinks, laterLinks⟩⟩
  · rintro ⟨rfl, links⟩
    induction resolved generalizing index with
    | nil => rfl
    | cons linked resolved ih =>
        obtain ⟨firstLinks, laterLinks⟩ := List.forall_mem_cons.mp links
        rw [List.map_cons, resolveJumps, traverse_symbolic index firstLinks]
        simp only [ih laterLinks]

theorem resolve_eq_ok_iff {code : List (Instruction String)} {program : Program} :
    resolve code = .ok program ↔ Resolves code program := by
  have collected {labels : LabelTable} : collectLabels [] 0 code = .ok labels ↔
      (code.filterMap Instruction.declares?).Nodup ∧ labels = declarations 0 code :=
    collectLabels_eq_ok_iff List.nodup_nil
  constructor
  · intro isResolved
    unfold resolve at isResolved
    split at isResolved
    · contradiction
    · next labels isCollected =>
        obtain ⟨distinct, isLabels⟩ := collected.mp isCollected
        split at isResolved
        · contradiction
        · next resolved isLinked =>
            obtain rfl := Except.ok.inj isResolved
            obtain ⟨symbolic, links⟩ := resolveJumps_eq_ok_iff.mp isLinked
            exact ⟨distinct, isLabels, symbolic, links⟩
  · intro resolves
    have isCollected := collected.mpr ⟨resolves.distinct, resolves.labels⟩
    have isLinked : resolveJumps program.labels 0 code = .ok program.code.toList :=
      resolveJumps_eq_ok_iff.mpr ⟨resolves.symbolic, resolves.links⟩
    simp [resolve, isCollected, isLinked]

/-- The instruction with the addresses that a table gives to labels. -/
def link (table : LabelTable) (instruction : Instruction String) : Instruction Jump :=
  instruction.map fun label => { label, target := (table.lookup label).getD 0 }

theorem symbolic_link (table : LabelTable) (instruction : Instruction String) :
    (link table instruction).symbolic = instruction := by
  cases instruction <;> rfl

theorem links_link {table : LabelTable} {instruction : Instruction String}
    (declared : ∀ label, instruction.destination? = some label → label ∈ table.map Prod.fst) :
    table.Links (link table instruction) := by
  intro destination isJump
  rw [link, Instruction.destination?_map] at isJump
  obtain ⟨label, isLabel, rfl⟩ := Option.map_eq_some_iff.mp isJump
  cases found : table.lookup label with
  | none => exact absurd (declared label isLabel) (LabelTable.lookup_eq_none_iff.mp found)
  | some target => rfl

/-- Instructions can be resolved exactly if labels are declared once and jumps name
declared labels. -/
theorem exists_resolve_eq_ok_iff {code : List (Instruction String)} :
    (∃ program, resolve code = .ok program) ↔
      (code.filterMap Instruction.declares?).Nodup ∧
        ∀ instruction ∈ code, ∀ label, instruction.destination? = some label →
          label ∈ code.filterMap Instruction.declares? := by
  constructor
  · rintro ⟨program, resolved⟩
    have resolves := resolve_eq_ok_iff.mp resolved
    refine ⟨resolves.distinct, ?_⟩
    intro instruction member label isJump
    rw [← resolves.symbolic] at member
    obtain ⟨linked, linkedMember, rfl⟩ := List.mem_map.mp member
    rw [Instruction.symbolic, Instruction.destination?_map] at isJump
    obtain ⟨destination, isDestination, rfl⟩ := Option.map_eq_some_iff.mp isJump
    have found := resolves.links linked linkedMember destination isDestination
    rw [← map_fst_declarations 0, ← resolves.labels]
    apply Classical.not_not.mp
    rw [← LabelTable.lookup_eq_none_iff, found]
    simp
  · rintro ⟨distinct, declared⟩
    let labels := declarations 0 code
    refine ⟨{ code := (code.map (link labels)).toArray, labels }, ?_⟩
    refine resolve_eq_ok_iff.mpr ⟨distinct, rfl, ?_, ?_⟩
    · simp [Function.comp_def, symbolic_link]
    · intro linked member
      obtain ⟨instruction, instructionMember, rfl⟩ := List.mem_map.mp member
      apply links_link
      rw [map_fst_declarations]
      exact declared instruction instructionMember

/-- A jump of a resolved program lands on a label. -/
theorem IsResolved.fetch?_target {program : Program} (isResolved : program.IsResolved)
    {index : Nat} {instruction : Instruction Jump} {destination : Jump}
    (fetched : program.fetch? index = some instruction)
    (isJump : instruction.destination? = some destination) :
    program.fetch? destination.target = some (.label destination.label) := by
  obtain ⟨code, resolved⟩ := isResolved
  have resolves := resolve_eq_ok_iff.mp resolved
  have member : instruction ∈ program.code.toList :=
    Array.mem_toList_iff.mpr (Array.mem_of_getElem? fetched)
  have found := resolves.links instruction member destination isJump
  rw [resolves.labels] at found
  obtain ⟨before, after, isSplit, -⟩ := List.lookup_eq_some_iff.mp found
  have inTable : (destination.label, destination.target) ∈ declarations 0 code := by
    simp [isSplit]
  obtain ⟨offset, isOffset, atOffset⟩ := getElem?_of_mem_declarations inTable
  rw [Nat.zero_add] at isOffset
  rw [← resolves.symbolic, ← isOffset, List.getElem?_map] at atOffset
  obtain ⟨landed, isLanded, reads⟩ := Option.map_eq_some_iff.mp atOffset
  have declares : landed.declares? = some destination.label := by
    rw [← Instruction.declares?_map Jump.label]
    exact Instruction.declares?_eq_some_iff.mpr reads
  rw [fetch?, ← Array.getElem?_toList, isLanded, Instruction.declares?_eq_some_iff.mp declares]

end Program

end StackDebugger
