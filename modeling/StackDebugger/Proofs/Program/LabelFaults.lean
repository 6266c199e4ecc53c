import StackDebugger.Proofs.Program.Resolution

/-!
# Which fault of its labels a program is refused for

Instructions are refused for a label that is declared twice or for a jump to a label that is
nowhere declared.  `Program.RepeatsLabel` and `Program.DanglesAt` say where such faults are by
looking at the instructions alone.  The fault that is reported is the first repeated
declaration if there is one, whatever the jumps are, and the first dangling jump otherwise.
-/

namespace StackDebugger.Program

/-- A label is declared at one index and again at a later one. -/
structure RepeatsLabel (code : List (Instruction String)) (label : String) (first second : Nat) :
    Prop where
  before : first < second
  declared : code[first]? = some (.label label)
  again : code[second]? = some (.label label)

/-- The jump at an index names a label that is nowhere declared. -/
structure DanglesAt (code : List (Instruction String)) (label : String) (index : Nat) : Prop where
  jumps : code[index]?.bind Instruction.destination? = some label
  undeclared : ∀ address : Nat, code[address]? ≠ some (.label label)

/-- No declaration repeats an earlier one at a lesser index, and the earlier one is the only
one before it. -/
structure RepeatsFirst (code : List (Instruction String)) (label : String) (first second : Nat) :
    Prop extends RepeatsLabel code label first second where
  least : ∀ other earlier later, RepeatsLabel code other earlier later → second ≤ later
  only : ∀ index < second, code[index]? = some (.label label) → index = first

structure DanglesFirst (code : List (Instruction String)) (label : String) (index : Nat) :
    Prop extends DanglesAt code label index where
  least : ∀ other later, DanglesAt code other later → index ≤ later

variable {code : List (Instruction String)} {label : String}

theorem nodup_declares?_iff :
    (code.filterMap Instruction.declares?).Nodup ↔
      ∀ label first second, ¬ RepeatsLabel code label first second := by
  rw [List.Nodup, List.pairwise_filterMap, List.pairwise_iff_getElem]
  simp only [Instruction.declares?_eq_some_iff]
  constructor
  · rintro distinct label first second ⟨before, declared, again⟩
    obtain ⟨firstInside, isFirst⟩ := List.getElem?_eq_some_iff.mp declared
    obtain ⟨secondInside, isSecond⟩ := List.getElem?_eq_some_iff.mp again
    exact distinct first second firstInside secondInside before label isFirst label isSecond rfl
  · rintro once first second firstInside secondInside before label isFirst _ isSecond rfl
    refine once label first second ⟨before, ?_, ?_⟩
    · rw [List.getElem?_eq_getElem firstInside, isFirst]
    · rw [List.getElem?_eq_getElem secondInside, isSecond]

theorem mem_filterMap_declares?_iff :
    label ∈ code.filterMap Instruction.declares? ↔
      ∃ index : Nat, code[index]? = some (.label label) := by
  rw [List.mem_filterMap, ← List.mem_iff_getElem?]
  constructor
  · rintro ⟨instruction, member, declares⟩
    rwa [← Instruction.declares?_eq_some_iff.mp declares]
  · intro member
    exact ⟨_, member, rfl⟩

theorem declarations_append (index : Nat) (passed rest : List (Instruction String)) :
    declarations index (passed ++ rest) =
      declarations index passed ++ declarations (index + passed.length) rest := by
  induction passed generalizing index with
  | nil => rfl
  | cons instruction passed ih =>
      have shifted : index + (instruction :: passed).length = index + 1 + passed.length := by
        simp only [List.length_cons]
        omega
      rw [List.cons_append, declarations, declarations, ih, shifted]
      cases instruction.declares? with
      | none => rfl
      | some name => rfl

/-- A label that is declared once is found where it is declared. -/
theorem lookup_declarations_iff (once : (code.filterMap Instruction.declares?).Nodup)
    {index : Nat} :
    (declarations 0 code).lookup label = some index ↔ code[index]? = some (.label label) := by
  have declaredAt {address : Nat} (found : (declarations 0 code).lookup label = some address) :
      code[address]? = some (.label label) := by
    obtain ⟨before, after, isSplit, -⟩ := List.lookup_eq_some_iff.mp found
    have inTable : (label, address) ∈ declarations 0 code := by simp [isSplit]
    obtain ⟨offset, isOffset, declared⟩ := getElem?_of_mem_declarations inTable
    rwa [isOffset, Nat.zero_add]
  refine ⟨declaredAt, ?_⟩
  intro declared
  cases found : (declarations 0 code).lookup label with
  | none =>
      rw [LabelTable.lookup_eq_none_iff, map_fst_declarations] at found
      exact absurd (mem_filterMap_declares?_iff.mpr ⟨index, declared⟩) found
  | some address =>
      have unrepeated := nodup_declares?_iff.mp once label
      rcases Nat.lt_trichotomy address index with before | same | behind
      · exact absurd ⟨before, declaredAt found, declared⟩ (unrepeated address index)
      · rw [same]
      · exact absurd ⟨behind, declared, declaredAt found⟩ (unrepeated index address)

/-- One instruction of the search for labels. -/
theorem collectLabels_cons (table : LabelTable) (index : Nat) (instruction : Instruction String)
    (rest : List (Instruction String)) :
    collectLabels table index (instruction :: rest) =
      match instruction.declares? with
      | none => collectLabels table (index + 1) rest
      | some name =>
          match table.lookup name with
          | some first => .error (.duplicateLabel name first index)
          | none => collectLabels (table ++ [(name, index)]) (index + 1) rest := by
  cases instruction <;> rfl

/-- A declaration that repeats one of those that were `passed`, none of which does. -/
theorem repeatsFirst_of_lookup {passed rest : List (Instruction String)} {name : String}
    {first : Nat} (once : (passed.filterMap Instruction.declares?).Nodup)
    (found : (declarations 0 passed).lookup name = some first) :
    RepeatsFirst (passed ++ .label name :: rest) name first passed.length := by
  have unrepeated := nodup_declares?_iff.mp once
  have declared := (lookup_declarations_iff once).mp found
  have inside : first < passed.length := (List.getElem?_eq_some_iff.mp declared).1
  refine ⟨⟨inside, ?_, ?_⟩, ?_, ?_⟩
  · rwa [List.getElem?_append_left inside]
  · simp
  · rintro other earlier later ⟨before, isEarlier, isLater⟩
    by_contra short
    have laterInside : later < passed.length := Nat.lt_of_not_le short
    rw [List.getElem?_append_left laterInside] at isLater
    rw [List.getElem?_append_left (Nat.lt_trans before laterInside)] at isEarlier
    exact unrepeated other earlier later ⟨before, isEarlier, isLater⟩
  · intro index isBefore isDeclared
    rw [List.getElem?_append_left isBefore] at isDeclared
    have alsoFound := (lookup_declarations_iff once).mpr isDeclared
    exact Option.some.inj (alsoFound.symm.trans found)

/-- The search for labels behind those that were `passed` fails at the first declaration that
repeats an earlier one. -/
theorem repeatsFirst_of_collectLabels {passed rest : List (Instruction String)}
    {failure : ResolveError} (once : (passed.filterMap Instruction.declares?).Nodup)
    (failed : collectLabels (declarations 0 passed) passed.length rest = .error failure) :
    ∃ label first second, failure = .duplicateLabel label first second ∧
      RepeatsFirst (passed ++ rest) label first second := by
  induction rest generalizing passed with
  | nil => simp [collectLabels] at failed
  | cons instruction rest ih =>
      have extended := declarations_append 0 passed [instruction]
      have further := @ih (passed ++ [instruction])
      rw [Nat.zero_add, declarations] at extended
      rw [extended, List.length_append, List.length_singleton, List.append_assoc,
        List.singleton_append, List.filterMap_append, List.filterMap_cons] at further
      rw [collectLabels_cons] at failed
      cases declared : instruction.declares? with
      | none =>
          simp only [declared, declarations, List.filterMap_nil, List.append_nil] at further failed
          exact further once failed
      | some name =>
          simp only [declared, declarations, List.filterMap_nil] at further failed
          cases found : (declarations 0 passed).lookup name with
          | some first =>
              simp only [found] at failed
              obtain rfl := Except.error.inj failed
              obtain rfl := Instruction.declares?_eq_some_iff.mp declared
              exact ⟨name, first, passed.length, rfl, repeatsFirst_of_lookup once found⟩
          | none =>
              simp only [found] at failed
              have fresh := LabelTable.lookup_eq_none_iff.mp found
              rw [map_fst_declarations] at fresh
              exact further (List.nodup_append.mpr ⟨once, List.nodup_singleton _, by
                rintro earlier member _ here rfl
                exact fresh (by simpa [List.mem_singleton.mp here] using member)⟩) failed

/-- An instruction fails to be linked exactly if it is a jump to a label that is not in the
table. -/
theorem traverse_eq_error_iff {table : LabelTable} {index : Nat}
    {instruction : Instruction String} {failure : ResolveError} :
    instruction.traverse (resolveJump table index) = .error failure ↔
      ∃ label, instruction.destination? = some label ∧ table.lookup label = none ∧
        failure = .unresolvedLabel label index := by
  have jumps {make : Jump → Instruction Jump} {label : String} :
      (resolveJump table index label).map make = .error failure ↔
        table.lookup label = none ∧ failure = .unresolvedLabel label index := by
    unfold resolveJump
    cases table.lookup label with
    | none => simp [Except.map, eq_comm]
    | some target => simp [Except.map]
  cases instruction with
  | call label | goto label | falseBranch label =>
      simp [Instruction.traverse, Instruction.destination?, jumps]
  | _ => simp [Instruction.traverse, Instruction.destination?]

/-- Linking fails at the first jump to a label that is not in the table. -/
theorem dangling_of_resolveJumps {table : LabelTable} {start : Nat}
    {failure : ResolveError} (failed : resolveJumps table start code = .error failure) :
    ∃ label offset, failure = .unresolvedLabel label (start + offset) ∧
      code[offset]?.bind Instruction.destination? = some label ∧ table.lookup label = none ∧
      ∀ earlier < offset, ∀ other, code[earlier]?.bind Instruction.destination? = some other →
        table.lookup other ≠ none := by
  induction code generalizing start with
  | nil => simp [resolveJumps] at failed
  | cons instruction code ih =>
      rw [resolveJumps] at failed
      cases linked : instruction.traverse (resolveJump table start) with
      | error raised =>
          simp only [linked] at failed
          obtain rfl := Except.error.inj failed
          obtain ⟨label, isJump, missing, rfl⟩ := traverse_eq_error_iff.mp linked
          exact ⟨label, 0, rfl, by simpa using isJump, missing, by simp⟩
      | ok resolved =>
          simp only [linked] at failed
          split at failed
          · next raised laterFailed =>
              obtain rfl := Except.error.inj failed
              obtain ⟨label, offset, rfl, isJump, missing, first⟩ := ih laterFailed
              refine ⟨label, offset + 1, ?_, by simpa using isJump, missing, ?_⟩
              · rw [Nat.add_right_comm, Nat.add_assoc]
              · intro earlier isEarlier other isOther
                cases earlier with
                | zero =>
                    intro unknown
                    have fails : instruction.traverse (resolveJump table start) =
                        .error (.unresolvedLabel other start) :=
                      traverse_eq_error_iff.mpr ⟨other, by simpa using isOther, unknown, rfl⟩
                    rw [linked] at fails
                    contradiction
                | succ earlier =>
                    exact first earlier (by omega) other (by simpa using isOther)
          · contradiction

theorem lookup_declarations_eq_none_iff :
    (declarations 0 code).lookup label = none ↔
      ∀ address : Nat, code[address]? ≠ some (.label label) := by
  rw [LabelTable.lookup_eq_none_iff, map_fst_declarations, mem_filterMap_declares?_iff]
  exact not_exists

/-- Instructions that are refused have a repeated declaration, the first of which is reported,
or have none and a dangling jump, the first of which is reported. -/
theorem resolve_fault {failure : ResolveError} (failed : resolve code = .error failure) :
    (∃ label first second, failure = .duplicateLabel label first second ∧
      RepeatsFirst code label first second) ∨
    ((∀ label first second, ¬ RepeatsLabel code label first second) ∧
      ∃ label index, failure = .unresolvedLabel label index ∧ DanglesFirst code label index) := by
  unfold resolve at failed
  split at failed
  · next raised collected =>
      obtain rfl := Except.error.inj failed
      exact .inl (@repeatsFirst_of_collectLabels [] code raised List.nodup_nil collected)
  · next labels collected =>
      obtain ⟨once, isLabels⟩ := (@collectLabels_eq_ok_iff [] labels 0 code List.nodup_nil).mp
        collected
      obtain rfl : labels = declarations 0 code := isLabels
      split at failed
      · next raised unlinked =>
          obtain rfl := Except.error.inj failed
          obtain ⟨label, index, rfl, isJump, missing, first⟩ := dangling_of_resolveJumps unlinked
          refine .inr ⟨nodup_declares?_iff.mp once, label, index, by rw [Nat.zero_add],
            ⟨isJump, lookup_declarations_eq_none_iff.mp missing⟩, ?_⟩
          rintro other later ⟨alsoJumps, undeclared⟩
          by_contra before
          exact first later (Nat.lt_of_not_le before) other alsoJumps
            (lookup_declarations_eq_none_iff.mpr undeclared)
      · contradiction

theorem exists_resolve_iff :
    (∃ program, resolve code = .ok program) ↔
      (∀ label first second, ¬ RepeatsLabel code label first second) ∧
        ∀ label index, ¬ DanglesAt code label index := by
  rw [exists_resolve_eq_ok_iff, nodup_declares?_iff]
  refine and_congr_right fun _ => ?_
  constructor
  · rintro declared label index ⟨jumps, undeclared⟩
    obtain ⟨instruction, isInstruction, isJump⟩ := Option.bind_eq_some_iff.mp jumps
    obtain ⟨address, isDeclared⟩ := mem_filterMap_declares?_iff.mp
      (declared instruction (List.mem_of_getElem? isInstruction) label isJump)
    exact undeclared address isDeclared
  · intro resolved instruction member label isJump
    rw [mem_filterMap_declares?_iff]
    by_contra undeclared
    obtain ⟨index, isInstruction⟩ := List.mem_iff_getElem?.mp member
    exact resolved label index ⟨by rw [isInstruction]; exact isJump, not_exists.mp undeclared⟩

/-- Labels are resolved exactly where they can be, and what cannot be resolved is refused for its
first fault.  Instructions become a program if and only if no label is declared twice and no
jump dangles.  The program reads as the instructions do, its jumps go to the declarations of
their labels, and the address of a label is the index at which it is declared.  If a label is
declared twice, the first declaration that repeats an earlier one is reported together with
that one, whatever the jumps name; otherwise the first dangling jump is. -/
theorem labels_resolved_exactly (code : List (Instruction String)) :
    ((∃ program, resolve code = .ok program) ↔
      (∀ label first second, ¬ RepeatsLabel code label first second) ∧
        ∀ label index, ¬ DanglesAt code label index) ∧
    (∀ program, resolve code = .ok program →
      program.code.toList.map Instruction.symbolic = code ∧
      (∀ index instruction destination, program.fetch? index = some instruction →
        instruction.destination? = some destination →
        code[destination.target]? = some (.label destination.label)) ∧
      ∀ label index, program.addressOf? label = some index ↔
        code[index]? = some (.label label)) ∧
    ((∃ label first second, RepeatsLabel code label first second) →
      ∃ label first second, resolve code = .error (.duplicateLabel label first second) ∧
        RepeatsFirst code label first second) ∧
    ((∀ label first second, ¬ RepeatsLabel code label first second) →
      (∃ label index, DanglesAt code label index) →
      ∃ label index, resolve code = .error (.unresolvedLabel label index) ∧
        DanglesFirst code label index) := by
  refine ⟨exists_resolve_iff, ?_, ?_, ?_⟩
  · intro program resolved
    have resolves := resolve_eq_ok_iff.mp resolved
    have found (label : String) (index : Nat) : program.addressOf? label = some index ↔
        code[index]? = some (.label label) := by
      rw [addressOf?, resolves.labels, lookup_declarations_iff resolves.distinct]
    refine ⟨resolves.symbolic, ?_, found⟩
    intro index instruction destination fetched isJump
    have member : instruction ∈ program.code.toList :=
      Array.mem_toList_iff.mpr (Array.mem_of_getElem? fetched)
    exact (found _ _).mp (resolves.links instruction member destination isJump)
  · rintro ⟨label, first, second, repeats⟩
    cases resolved : resolve code with
    | ok program => exact absurd repeats ((exists_resolve_iff.mp ⟨program, resolved⟩).1 _ _ _)
    | error failure =>
        rcases resolve_fault resolved with ⟨_, _, _, rfl, isFirst⟩ | ⟨once, -⟩
        · exact ⟨_, _, _, rfl, isFirst⟩
        · exact absurd repeats (once _ _ _)
  · rintro once ⟨label, index, dangles⟩
    cases resolved : resolve code with
    | ok program => exact absurd dangles ((exists_resolve_iff.mp ⟨program, resolved⟩).2 _ _)
    | error failure =>
        rcases resolve_fault resolved with ⟨_, _, _, -, repeats⟩ | ⟨-, _, _, rfl, isFirst⟩
        · exact absurd repeats.toRepeatsLabel (once _ _ _)
        · exact ⟨_, _, rfl, isFirst⟩

/-- A jump that dangles does not keep the second of two repeated labels from being reported,
which comes before the second of the other two; without these labels the first of two such
jumps is reported. -/
theorem labels_resolved_exactly_twoFaults :
    let repeated : List (Instruction String) :=
      [.goto "nowhere", .label "a", .label "b", .label "b", .label "a"]
    let dangling : List (Instruction String) :=
      [.label "a", .goto "a", .call "c", .goto "d"]
    resolve repeated = .error (.duplicateLabel "b" 2 3) ∧ RepeatsFirst repeated "b" 2 3 ∧
      resolve dangling = .error (.unresolvedLabel "c" 2) ∧ DanglesFirst dangling "c" 2 := by
  intro repeated dangling
  have isRepeated : resolve repeated = .error (.duplicateLabel "b" 2 3) := rfl
  have isDangling : resolve dangling = .error (.unresolvedLabel "c" 2) := rfl
  obtain ⟨-, -, repeats, -⟩ := labels_resolved_exactly repeated
  obtain ⟨-, -, -, dangles⟩ := labels_resolved_exactly dangling
  obtain ⟨_, _, _, refused, isFirst⟩ := repeats ⟨"a", 1, 4, by decide, rfl, rfl⟩
  obtain ⟨rfl, rfl, rfl⟩ := ResolveError.duplicateLabel.inj
    (Except.error.inj (isRepeated.symm.trans refused))
  have once : ∀ label first second, ¬ RepeatsLabel dangling label first second :=
    nodup_declares?_iff.mp (by decide)
  have undeclared : ∀ address : Nat, dangling[address]? ≠ some (.label "d") :=
    lookup_declarations_eq_none_iff.mp rfl
  obtain ⟨_, _, alsoRefused, alsoFirst⟩ := dangles once ⟨"d", 3, rfl, undeclared⟩
  obtain ⟨rfl, rfl⟩ := ResolveError.unresolvedLabel.inj
    (Except.error.inj (isDangling.symm.trans alsoRefused))
  exact ⟨isRepeated, isFirst, isDangling, alsoFirst⟩

end StackDebugger.Program
