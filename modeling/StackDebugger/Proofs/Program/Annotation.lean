import StackDebugger.Program
import StackDebugger.Proofs.Program.Resolution

/-!
# Programs without their source annotations

The base instruction set leaves out exactly the lines that are source annotations
in the debug set.  What it loads from a text is the debug program stripped of its
annotations: an instruction that is kept moves to the number of instructions that
are kept before it, and so do the addresses of labels and jumps.
-/

namespace StackDebugger

namespace Instruction

variable {ρ σ : Type}

/-- Whether an instruction is more than a source annotation. -/
def isKept (instruction : Instruction ρ) : Bool :=
  !instruction.isDebugOnly

@[simp] theorem isKept_map (replace : ρ → σ) (instruction : Instruction ρ) :
    (instruction.map replace).isKept = instruction.isKept := by
  rw [isKept, isDebugOnly_map, isKept]

@[simp] theorem isKept_symbolic (instruction : Instruction Jump) :
    instruction.symbolic.isKept = instruction.isKept :=
  isKept_map Jump.label instruction

theorem isKept_of_declares? {instruction : Instruction ρ} {name : String}
    (declares : instruction.declares? = some name) : instruction.isKept = true := by
  rw [declares?_eq_some_iff.mp declares]
  rfl

theorem isKept_of_destination? {instruction : Instruction ρ} {destination : ρ}
    (isJump : instruction.destination? = some destination) : instruction.isKept = true := by
  cases instruction with
  | line _ | function _ _ _ | formal _ _ => contradiction
  | _ => rfl

end Instruction

namespace Program

/-- The number of instructions before an index that are kept. -/
def keptBefore (program : Program) (index : Nat) : Nat :=
  (program.code.toList.take index).countP Instruction.isKept

/-- The program without its source annotations. -/
def stripped (program : Program) : Program where
  code := ((program.code.toList.filter Instruction.isKept).map
    (Instruction.relocate program.keptBefore)).toArray
  labels := program.labels.relocate program.keptBefore

section Addresses

variable {program : Program} {index : Nat} {instruction : Instruction Jump}

@[simp] theorem keptBefore_zero (program : Program) : program.keptBefore 0 = 0 := by
  simp [keptBefore]

theorem keptBefore_succ (fetched : program.fetch? index = some instruction) :
    program.keptBefore (index + 1) =
      program.keptBefore index + if instruction.isKept then 1 else 0 := by
  have found : program.code.toList[index]? = some instruction := by
    rw [Array.getElem?_toList]
    exact fetched
  rw [keptBefore, List.take_add_one, found, List.countP_append, Option.toList_some,
    List.countP_singleton, keptBefore]

private theorem getElem?_filter_countP {α : Type} (kept : α → Bool) {items : List α} {item : α}
    (found : items[index]? = some item) (isKept : kept item = true) :
    (items.filter kept)[(items.take index).countP kept]? = some item := by
  induction items generalizing index with
  | nil => simp at found
  | cons first items ih =>
      cases index with
      | zero =>
          obtain rfl : first = item := by simpa using found
          simp [isKept]
      | succ index =>
          have later := ih (by simpa using found)
          rw [List.filter_cons, List.take_succ_cons, List.countP_cons]
          split
          · next firstKept => simpa [firstKept] using later
          · next dropped => simpa [dropped] using later

theorem fetch?_stripped (fetched : program.fetch? index = some instruction)
    (kept : instruction.isKept = true) :
    program.stripped.fetch? (program.keptBefore index) =
      some (instruction.relocate program.keptBefore) := by
  have found : program.code.toList[index]? = some instruction := by
    rw [Array.getElem?_toList]
    exact fetched
  have filtered := getElem?_filter_countP Instruction.isKept found kept
  rw [fetch?, stripped, List.getElem?_toArray, List.getElem?_map, keptBefore, filtered]
  rfl

theorem fetch?_stripped_of_none (atEnd : program.fetch? index = none) :
    program.stripped.fetch? (program.keptBefore index) = none := by
  have beyond : program.code.toList.length ≤ index := by
    rw [fetch?, Array.getElem?_eq_none_iff] at atEnd
    exact atEnd
  have total : program.keptBefore index =
      (program.code.toList.filter Instruction.isKept).length := by
    rw [keptBefore, List.take_of_length_le beyond, List.countP_eq_length_filter]
  rw [fetch?, stripped, List.getElem?_toArray, total]
  apply List.getElem?_eq_none
  simp

end Addresses

theorem filterMap_declares?_filter (code : List (Instruction String)) :
    (code.filter Instruction.isKept).filterMap Instruction.declares? =
      code.filterMap Instruction.declares? := by
  induction code with
  | nil => rfl
  | cons instruction code ih =>
      cases declared : instruction.declares? with
      | some name =>
          rw [List.filter_cons_of_pos (Instruction.isKept_of_declares? declared),
            List.filterMap_cons, List.filterMap_cons, ih]
      | none =>
          rw [List.filterMap_cons, declared, List.filter_cons]
          split
          · rw [List.filterMap_cons, declared]
            exact ih
          · exact ih

/-- The labels of the instructions that are kept behind those already `passed`. -/
theorem declarations_filter (passed rest : List (Instruction String)) :
    declarations (passed.countP Instruction.isKept) (rest.filter Instruction.isKept) =
      (declarations passed.length rest).relocate
        fun index => ((passed ++ rest).take index).countP Instruction.isKept := by
  induction rest generalizing passed with
  | nil => rfl
  | cons instruction rest ih =>
      have behind := ih (passed ++ [instruction])
      rw [List.append_assoc, List.singleton_append, List.countP_append, List.countP_singleton,
        List.length_append, List.length_singleton] at behind
      rw [declarations]
      cases declared : instruction.declares? with
      | some name =>
          have kept := Instruction.isKept_of_declares? declared
          rw [if_pos kept] at behind
          rw [List.filter_cons_of_pos kept, declarations, declared]
          simp only [behind, LabelTable.relocate, List.map_cons, List.take_left]
      | none =>
          rw [List.filter_cons]
          split
          · next kept =>
              rw [if_pos kept] at behind
              rw [declarations, declared]
              exact behind
          · next dropped =>
              rw [if_neg dropped] at behind
              exact behind

/-- What instructions are resolved to, stripped of its source annotations, is what
they are resolved to without them. -/
theorem Resolves.stripped {code : List (Instruction String)} {program : Program}
    (resolves : Resolves code program) :
    Resolves (code.filter Instruction.isKept) program.stripped := by
  have sameCount : program.keptBefore =
      fun index => (code.take index).countP Instruction.isKept := by
    funext index
    rw [keptBefore, ← resolves.symbolic, ← List.map_take, List.countP_map]
    simp [Function.comp_def]
  refine ⟨?_, ?_, ?_, ?_⟩
  · rw [filterMap_declares?_filter]
    exact resolves.distinct
  · have relocated := declarations_filter [] code
    rw [List.nil_append] at relocated
    change program.labels.relocate program.keptBefore = _
    rw [resolves.labels, sameCount]
    exact relocated.symm
  · rw [← resolves.symbolic, List.filter_map]
    simp [Program.stripped, Function.comp_def]
  · intro instruction member
    obtain ⟨original, isOriginal, rfl⟩ := List.mem_map.mp member
    exact (resolves.links original (List.mem_of_mem_filter isOriginal)).relocate _

theorem exists_resolve_filter_iff {code : List (Instruction String)} :
    (∃ program, resolve (code.filter Instruction.isKept) = .ok program) ↔
      ∃ program, resolve code = .ok program := by
  rw [exists_resolve_eq_ok_iff, exists_resolve_eq_ok_iff, filterMap_declares?_filter]
  refine and_congr_right fun _ => ?_
  constructor
  · intro declared instruction member label isJump
    have kept := Instruction.isKept_of_destination? isJump
    exact declared instruction (List.mem_filter.mpr ⟨member, kept⟩) label isJump
  · intro declared instruction member
    exact declared instruction (List.mem_of_mem_filter member)

end Program

theorem Mnemonic.ofWord?_base (word : String) :
    ofWord? .base word = (ofWord? .debug word).filter fun mnemonic => !mnemonic.isDebugOnly := by
  cases found : ofWord? .debug word with
  | none =>
      rw [ofWord?, List.find?_eq_none] at found
      rw [ofWord?, Option.filter_none, List.find?_eq_none]
      intro mnemonic member
      have unlike := found mnemonic member
      simp only [belongsTo, Bool.and_true, Bool.not_eq_true] at unlike
      simp [unlike]
  | some mnemonic =>
      have isWord : mnemonic.word = word := by
        have matched := List.find?_some found
        simpa [belongsTo] using matched
      rw [← isWord]
      cases mnemonic <;> decide

/-- Whatever is decoded is kept, or whatever is decoded is not. -/
def Yields (kept : Bool) (decoding : Except DecodeFailure (Instruction String)) : Prop :=
  ∀ instruction, decoding = .ok instruction → instruction.isKept = kept

theorem yields_ok {kept : Bool} {instruction : Instruction String}
    (isKept : instruction.isKept = kept) : Yields kept (.ok instruction) := by
  rintro decoded ⟨⟩
  exact isKept

theorem yields_bind {α : Type} {kept : Bool} {reading : Except DecodeFailure α}
    {next : α → Except DecodeFailure (Instruction String)}
    (later : ∀ value, Yields kept (next value)) : Yields kept (reading >>= next) := by
  cases reading with
  | error failure =>
      intro instruction decoded
      contradiction
  | ok value => exact later value

/-- What a mnemonic and its operands make is a source annotation if the mnemonic
names one. -/
theorem Operands.yields_decode (operands : Operands) :
    Yields (!operands.mnemonic.isDebugOnly) operands.decode := by
  obtain ⟨mnemonic, words⟩ := operands
  cases mnemonic with
  | lit | load | store | args | call | goto | falseBranch | label | pop | line =>
      exact yields_bind fun _ => yields_ok rfl
  | bop =>
      apply yields_bind
      intro word
      split
      · exact yields_ok rfl
      · intro instruction decoded
        contradiction
  | ret | halt | read | write => exact yields_ok rfl
  | dump =>
      simp only [decode]
      split
      · exact yields_ok rfl
      · exact yields_ok rfl
      · exact yields_ok rfl
      · intro instruction decoded
        contradiction
  | function =>
      exact yields_bind fun _ => yields_bind fun _ => yields_bind fun _ => yields_ok rfl
  | formal => exact yields_bind fun _ => yields_bind fun _ => yields_ok rfl

/-- The instruction of a line, if it has one. -/
def DecodedLine.instruction? : DecodedLine → Option (Instruction String)
  | .instruction decoded => some decoded
  | _ => none

/-- A line has an instruction in the base set if it has one in the debug set that is
kept. -/
theorem instruction?_decodeLine_base (line : List Char) :
    (decodeLine .base line).instruction? =
      (decodeLine .debug line).instruction?.filter Instruction.isKept := by
  unfold decodeLine
  generalize (Text.words line).map String.ofList = words
  cases words with
  | nil => rfl
  | cons head words =>
      rw [DecodedLine.ofWords, DecodedLine.ofWords, Mnemonic.ofWord?_base]
      cases Mnemonic.ofWord? .debug head with
      | none => rfl
      | some mnemonic =>
          cases decoded : ({ mnemonic, words } : Operands).decode with
          | error failure =>
              cases annotates : mnemonic.isDebugOnly <;>
                simp [Option.filter, annotates, decoded, DecodedLine.instruction?]
          | ok instruction =>
              have kept := Operands.yields_decode { mnemonic, words } instruction decoded
              cases annotates : mnemonic.isDebugOnly <;>
                simp [Option.filter, annotates, decoded, DecodedLine.instruction?, kept]

theorem decodeLines_fst (set : InstructionSet) (number : Nat) (lines : List (List Char)) :
    (decodeLines set number lines).1 =
      lines.filterMap fun line => (decodeLine set line).instruction? := by
  induction lines generalizing number with
  | nil => rfl
  | cons line lines ih =>
      rw [decodeLines, List.filterMap_cons, ← ih (number + 1)]
      cases decodeLine set line with
      | blank => rfl
      | malformed reason => rfl
      | instruction instruction => rfl

namespace Program

variable {text : String}

theorem load_eq_ok_iff {set : InstructionSet} {loaded : LoadedProgram} :
    load set text = .ok loaded ↔
      resolve ((Text.lines text.toList).filterMap fun line => (decodeLine set line).instruction?) =
          .ok loaded.program ∧
        loaded.skipped = (decodeLines set 1 (Text.lines text.toList)).2 := by
  rw [← decodeLines_fst set 1, load]
  obtain ⟨code, skipped⟩ := decodeLines set 1 (Text.lines text.toList)
  obtain ⟨loadedProgram, loadedSkipped⟩ := loaded
  simp only
  cases resolve code with
  | error failure => simp
  | ok program =>
      simp only [Except.ok.injEq, LoadedProgram.mk.injEq]
      exact and_congr_right fun _ => eq_comm

theorem exists_load_iff {set : InstructionSet} :
    (∃ loaded, load set text = .ok loaded) ↔
      ∃ program, resolve ((Text.lines text.toList).filterMap fun line =>
        (decodeLine set line).instruction?) = .ok program := by
  constructor
  · rintro ⟨loaded, isLoaded⟩
    exact ⟨loaded.program, (load_eq_ok_iff.mp isLoaded).1⟩
  · rintro ⟨program, isResolved⟩
    exact ⟨⟨program, _⟩, load_eq_ok_iff.mpr ⟨isResolved, rfl⟩⟩

private theorem filterMap_base (lines : List (List Char)) :
    (lines.filterMap fun line => (decodeLine .base line).instruction?) =
      (lines.filterMap fun line => (decodeLine .debug line).instruction?).filter
        Instruction.isKept := by
  simp only [instruction?_decodeLine_base]
  exact List.filter_filterMap.symm

/-- A text can be loaded with the one instruction set if and only if it can be loaded
with the other. -/
theorem exists_load_base_iff :
    (∃ base, load .base text = .ok base) ↔ ∃ debug, load .debug text = .ok debug := by
  rw [exists_load_iff, exists_load_iff, filterMap_base]
  exact exists_resolve_filter_iff

variable {base debug : LoadedProgram}

theorem isResolved_of_load {set : InstructionSet} (isLoaded : load set text = .ok debug) :
    debug.program.IsResolved :=
  ⟨_, (load_eq_ok_iff.mp isLoaded).1⟩

/-- What the base set loads is what the debug set loads, without its source
annotations. -/
theorem eq_stripped_of_load (isBase : load .base text = .ok base)
    (isDebug : load .debug text = .ok debug) : base.program = debug.program.stripped := by
  have resolves := resolve_eq_ok_iff.mp (load_eq_ok_iff.mp isDebug).1
  have stripped := resolve_eq_ok_iff.mpr resolves.stripped
  rw [← filterMap_base, (load_eq_ok_iff.mp isBase).1] at stripped
  exact Except.ok.inj stripped

/-- Every instruction of a program was decoded from a line. -/
theorem exists_line_of_load {set : InstructionSet} {loaded : LoadedProgram}
    {instruction : Instruction Jump} {index : Nat} (isLoaded : load set text = .ok loaded)
    (fetched : loaded.program.fetch? index = some instruction) :
    ∃ line ∈ Text.lines text.toList, decodeLine set line = .instruction instruction.symbolic := by
  have resolves := resolve_eq_ok_iff.mp (load_eq_ok_iff.mp isLoaded).1
  have member : instruction ∈ loaded.program.code.toList :=
    Array.mem_toList_iff.mpr (Array.mem_of_getElem? fetched)
  have read := List.mem_map_of_mem (f := Instruction.symbolic) member
  rw [resolves.symbolic] at read
  obtain ⟨line, inText, isRead⟩ := List.mem_filterMap.mp read
  refine ⟨line, inText, ?_⟩
  cases decoded : decodeLine set line with
  | blank => simp [decoded, DecodedLine.instruction?] at isRead
  | malformed reason => simp [decoded, DecodedLine.instruction?] at isRead
  | instruction other => simpa [decoded, DecodedLine.instruction?] using isRead

end Program

end StackDebugger
