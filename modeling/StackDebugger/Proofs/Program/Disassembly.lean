import StackDebugger.Instruction.Text
import StackDebugger.Proofs.Program.Annotation
import StackDebugger.Proofs.Text.Decimal
import StackDebugger.Proofs.Text.Words

/-!
# Programs that are written out and loaded again

An instruction is written as words: its mnemonic and its operands.  What a line was
decoded to is decoded again from its own text, since the names in it were words of
the line and its numbers are within their limits.  So the listing of a loaded
program loads as that program, and no line of it is left out.
-/

namespace StackDebugger

namespace Instruction

/-- The word that an instruction begins with. -/
def mnemonic : Instruction String → Mnemonic
  | .lit _ _ => .lit
  | .load _ _ => .load
  | .store _ _ => .store
  | .args _ => .args
  | .bop _ => .bop
  | .call _ => .call
  | .ret _ => .ret
  | .goto _ => .goto
  | .falseBranch _ => .falseBranch
  | .label _ => .label
  | .halt => .halt
  | .pop _ => .pop
  | .read => .read
  | .write => .write
  | .dump _ => .dump
  | .line _ => .line
  | .function _ _ _ => .function
  | .formal _ _ => .formal

/-- The words that follow the mnemonic. -/
def operands : Instruction String → List String
  | .lit value name => Decimal.ofInt32 value :: name.toList
  | .load offset name | .store offset name => toString offset :: name.toList
  | .args count | .pop count => [toString count]
  | .bop operator => [operator.symbol]
  | .call name | .goto name | .falseBranch name | .label name => [name]
  | .ret owner => owner.toList
  | .halt | .read | .write | .dump .now => []
  | .dump .on => ["ON"]
  | .dump .off => ["OFF"]
  | .line number => [Decimal.ofMarker number]
  | .function name first last => [name, Decimal.ofMarker first, Decimal.ofMarker last]
  | .formal name offset => name :: (offset.map toString).toList

def written (instruction : Instruction String) : List (List Char) :=
  (instruction.mnemonic.word :: instruction.operands).map String.toList

theorem toList_render (instruction : Instruction String) :
    instruction.render.toList = [' '].intercalate instruction.written := by
  cases instruction with
  | lit value name | load offset name | store offset name =>
      cases name <;> simp [render, written, mnemonic, Mnemonic.word, operands, optionalOperand,
        List.intercalate]
  | ret owner =>
      cases owner <;> simp [render, written, mnemonic, Mnemonic.word, operands, optionalOperand,
        List.intercalate]
  | formal name offset =>
      cases offset <;> simp [render, written, mnemonic, Mnemonic.word, operands, optionalOperand,
        List.intercalate]
  | dump mode => cases mode <;> rfl
  | _ => simp [render, written, mnemonic, Mnemonic.word, operands, List.intercalate]

/-- The numbers of an instruction are within the limits of their kinds. -/
def Fits : Instruction String → Prop
  | .load offset _ | .store offset _ => offset ≤ 0xFFFFFFFFFFFFFFFF
  | .args count | .pop count => count ≤ 0xFFFFFFFFFFFFFFFF
  | .line number => ∀ line, number = some line → line ≤ 0x7FFFFFFFFFFFFFFF
  | .function _ first last =>
      (∀ line, first = some line → line ≤ 0x7FFFFFFFFFFFFFFF) ∧
        ∀ line, last = some line → line ≤ 0x7FFFFFFFFFFFFFFF
  | .formal _ offset => ∀ slot, offset = some slot → slot ≤ 0xFFFFFFFFFFFFFFFF
  | _ => True

/-- What makes the text of an instruction readable again. -/
structure IsWritten (instruction : Instruction String) : Prop where
  areWords : ∀ operand ∈ instruction.operands, Text.IsWord operand.toList
  fits : instruction.Fits

end Instruction

theorem isWord_toString (number : Nat) : Text.IsWord (toString number).toList := by
  rw [Decimal.toList_toString]
  constructor
  · exact Nat.toDigits_ne_nil
  · intro c member
    exact Decimal.isBlank_of_isDigit (Decimal.isDigit_of_mem member)

theorem isWord_ofInt32 (value : Int32) : Text.IsWord (Decimal.ofInt32 value).toList := by
  rcases Decimal.toList_ofInt32 value with ⟨magnitude, -, isText⟩ | ⟨magnitude, -, isText⟩
  · rw [isText, ← Decimal.toList_toString]
    exact isWord_toString magnitude
  · rw [isText, ← Decimal.toList_toString]
    refine ⟨List.cons_ne_nil _ _, List.forall_mem_cons.mpr ⟨by decide, ?_⟩⟩
    exact (isWord_toString magnitude).visible

theorem isWord_ofMarker (marker : Option Nat) : Text.IsWord (Decimal.ofMarker marker).toList := by
  cases marker with
  | none => exact .of_any (by decide) (by decide)
  | some line => exact isWord_toString line

theorem isWord_symbol (operator : Operator) : Text.IsWord operator.symbol.toList := by
  cases operator <;> exact .of_any (by decide) (by decide)

theorem isWord_mnemonic (mnemonic : Mnemonic) : Text.IsWord mnemonic.word.toList := by
  cases mnemonic <;> exact .of_any (by decide) (by decide)

theorem bind_eq_ok_iff {ε α β : Type} {reading : Except ε α} {next : α → Except ε β}
    {result : β} :
    (reading >>= next) = .ok result ↔ ∃ value, reading = .ok value ∧ next value = .ok result := by
  constructor
  · intro isOk
    cases reading with
    | error failure => contradiction
    | ok value => exact ⟨value, rfl, isOk⟩
  · rintro ⟨value, rfl, isOk⟩
    exact isOk

namespace Operands

variable {α : Type} {operands : Operands} {read? : List Char → Option α} {position : Nat}

theorem required_eq_ok_iff {word : String} :
    operands.required position = .ok word ↔ operands.words[position]? = some word := by
  unfold required
  cases operands.words[position]? with
  | none => simp
  | some found => simp

theorem number_eq_ok_iff {word : String} {value : α} :
    operands.number read? word = .ok value ↔ read? word.toList = some value := by
  unfold number
  cases read? word.toList with
  | none => simp
  | some found => simp

theorem requiredNumber_eq_ok_iff {value : α} :
    operands.requiredNumber read? position = .ok value ↔
      ∃ word, operands.words[position]? = some word ∧ read? word.toList = some value := by
  simp only [requiredNumber, bind_eq_ok_iff, required_eq_ok_iff, number_eq_ok_iff]

theorem optionalNumber_eq_ok_iff {value? : Option α} :
    operands.optionalNumber read? position = .ok value? ↔
      (operands.words[position]? = none ∧ value? = none) ∨
        ∃ word value, operands.words[position]? = some word ∧
          read? word.toList = some value ∧ value? = some value := by
  unfold optionalNumber
  cases operands.words[position]? with
  | none => simp [eq_comm]
  | some word =>
      cases isRead : read? word.toList with
      | none => simp [number, isRead, Except.map]
      | some value => simp [number, isRead, Except.map, eq_comm]

theorem size?_toString {number : Nat} (small : number ≤ 0xFFFFFFFFFFFFFFFF) :
    Decimal.size? (toString number).toList = some number := by
  rw [Decimal.toList_toString]
  exact Decimal.size?_toDigits small

/-- The operands of an instruction make it again. -/
theorem decode_operands {instruction : Instruction String} (fits : instruction.Fits) :
    ({ mnemonic := instruction.mnemonic, words := instruction.operands } : Operands).decode =
      .ok instruction := by
  cases instruction with
  | lit value name =>
      have isRead := Decimal.int32?_ofInt32 value
      exact bind_eq_ok_iff.mpr ⟨value, requiredNumber_eq_ok_iff.mpr ⟨_, rfl, isRead⟩, by
        cases name <;> rfl⟩
  | load offset name | store offset name =>
      have isRead := size?_toString fits
      exact bind_eq_ok_iff.mpr ⟨offset, requiredNumber_eq_ok_iff.mpr ⟨_, rfl, isRead⟩, by
        cases name <;> rfl⟩
  | args count =>
      have isRead := size?_toString fits
      exact bind_eq_ok_iff.mpr ⟨count, requiredNumber_eq_ok_iff.mpr ⟨_, rfl, isRead⟩, rfl⟩
  | pop count =>
      have isRead := size?_toString fits
      exact bind_eq_ok_iff.mpr ⟨some count, optionalNumber_eq_ok_iff.mpr
        (.inr ⟨_, count, rfl, isRead, rfl⟩), rfl⟩
  | bop operator =>
      refine bind_eq_ok_iff.mpr ⟨operator.symbol, rfl, ?_⟩
      rw [Operator.ofSymbol?_symbol]
      rfl
  | ret owner => cases owner <;> rfl
  | dump mode => cases mode <;> rfl
  | line number =>
      have isRead := Decimal.marker?_ofMarker fits
      exact bind_eq_ok_iff.mpr ⟨number, requiredNumber_eq_ok_iff.mpr ⟨_, rfl, isRead⟩, rfl⟩
  | function name first last =>
      have isFirst := Decimal.marker?_ofMarker fits.1
      have isLast := Decimal.marker?_ofMarker fits.2
      refine bind_eq_ok_iff.mpr ⟨name, rfl, bind_eq_ok_iff.mpr ⟨first, ?_, ?_⟩⟩
      · exact requiredNumber_eq_ok_iff.mpr ⟨_, rfl, isFirst⟩
      · exact bind_eq_ok_iff.mpr ⟨last, requiredNumber_eq_ok_iff.mpr ⟨_, rfl, isLast⟩, rfl⟩
  | formal name offset =>
      refine bind_eq_ok_iff.mpr ⟨name, rfl, bind_eq_ok_iff.mpr ⟨offset, ?_, rfl⟩⟩
      cases offset with
      | none => rfl
      | some slot =>
          have isRead := size?_toString (fits slot rfl)
          exact optionalNumber_eq_ok_iff.mpr (.inr ⟨_, slot, rfl, isRead, rfl⟩)
  | call name | goto name | falseBranch name | label name | halt | read | write => rfl

/-- Operands that are words make an instruction that can be read again. -/
theorem isWritten_of_decode {instruction : Instruction String}
    (areWords : ∀ word ∈ operands.words, Text.IsWord word.toList)
    (decoded : operands.decode = .ok instruction) :
    instruction.mnemonic = operands.mnemonic ∧ instruction.IsWritten := by
  obtain ⟨mnemonic, words⟩ := operands
  have isWord : ∀ {position : Nat} {word : String}, words[position]? = some word →
      Text.IsWord word.toList := by
    intro position word found
    exact areWords word (List.mem_of_getElem? found)
  have optional : ∀ (position : Nat) (word : String), word ∈ words[position]?.toList →
      Text.IsWord word.toList := by
    intro position word member
    exact isWord (Option.mem_toList.mp member)
  cases mnemonic with
  | lit =>
      obtain ⟨value, -, isDecoded⟩ := bind_eq_ok_iff.mp decoded
      obtain rfl := Except.ok.inj isDecoded
      exact ⟨rfl, List.forall_mem_cons.mpr ⟨isWord_ofInt32 value, optional 1⟩, trivial⟩
  | load | store =>
      obtain ⟨offset, isOffset, isDecoded⟩ := bind_eq_ok_iff.mp decoded
      obtain ⟨word, -, isRead⟩ := requiredNumber_eq_ok_iff.mp isOffset
      obtain rfl := Except.ok.inj isDecoded
      exact ⟨rfl, List.forall_mem_cons.mpr ⟨isWord_toString offset, optional 1⟩,
        Decimal.le_of_size? isRead⟩
  | args =>
      obtain ⟨count, isCount, isDecoded⟩ := bind_eq_ok_iff.mp decoded
      obtain ⟨word, -, isRead⟩ := requiredNumber_eq_ok_iff.mp isCount
      obtain rfl := Except.ok.inj isDecoded
      exact ⟨rfl, List.forall_mem_singleton.mpr (isWord_toString count),
        Decimal.le_of_size? isRead⟩
  | pop =>
      obtain ⟨count?, isCount, isDecoded⟩ := bind_eq_ok_iff.mp decoded
      obtain rfl := Except.ok.inj isDecoded
      refine ⟨rfl, List.forall_mem_singleton.mpr (isWord_toString _), ?_⟩
      rcases optionalNumber_eq_ok_iff.mp isCount with ⟨-, rfl⟩ | ⟨word, count, -, isRead, rfl⟩
      · exact Nat.le_of_ble_eq_true rfl
      · exact Decimal.le_of_size? isRead
  | bop =>
      obtain ⟨word, -, isOperator⟩ := bind_eq_ok_iff.mp decoded
      split at isOperator
      · obtain rfl := Except.ok.inj isOperator
        exact ⟨rfl, List.forall_mem_singleton.mpr (isWord_symbol _), trivial⟩
      · contradiction
  | call | goto | falseBranch | label =>
      obtain ⟨name, isName, isDecoded⟩ := bind_eq_ok_iff.mp decoded
      obtain rfl := Except.ok.inj isDecoded
      exact ⟨rfl, List.forall_mem_singleton.mpr (isWord (required_eq_ok_iff.mp isName)), trivial⟩
  | ret =>
      obtain rfl := Except.ok.inj decoded
      exact ⟨rfl, optional 0, trivial⟩
  | halt | read | write =>
      obtain rfl := Except.ok.inj decoded
      exact ⟨rfl, List.forall_mem_nil _, trivial⟩
  | dump =>
      simp only [decode] at decoded
      split at decoded
      · obtain rfl := Except.ok.inj decoded
        exact ⟨rfl, List.forall_mem_nil _, trivial⟩
      · obtain rfl := Except.ok.inj decoded
        exact ⟨rfl, List.forall_mem_singleton.mpr (.of_any (by decide) (by decide)), trivial⟩
      · obtain rfl := Except.ok.inj decoded
        exact ⟨rfl, List.forall_mem_singleton.mpr (.of_any (by decide) (by decide)), trivial⟩
      · contradiction
  | line =>
      obtain ⟨number, isNumber, isDecoded⟩ := bind_eq_ok_iff.mp decoded
      obtain ⟨word, -, isRead⟩ := requiredNumber_eq_ok_iff.mp isNumber
      obtain rfl := Except.ok.inj isDecoded
      refine ⟨rfl, List.forall_mem_singleton.mpr (isWord_ofMarker number), ?_⟩
      rintro line rfl
      exact Decimal.le_of_marker? isRead
  | function =>
      obtain ⟨name, isName, rest⟩ := bind_eq_ok_iff.mp decoded
      obtain ⟨first, isFirst, rest⟩ := bind_eq_ok_iff.mp rest
      obtain ⟨last, isLast, isDecoded⟩ := bind_eq_ok_iff.mp rest
      obtain ⟨firstWord, -, firstRead⟩ := requiredNumber_eq_ok_iff.mp isFirst
      obtain ⟨lastWord, -, lastRead⟩ := requiredNumber_eq_ok_iff.mp isLast
      obtain rfl := Except.ok.inj isDecoded
      refine ⟨rfl, ?_, ?_, ?_⟩
      · refine List.forall_mem_cons.mpr ⟨isWord (required_eq_ok_iff.mp isName), ?_⟩
        exact List.forall_mem_cons.mpr
          ⟨isWord_ofMarker first, List.forall_mem_singleton.mpr (isWord_ofMarker last)⟩
      · rintro line rfl
        exact Decimal.le_of_marker? firstRead
      · rintro line rfl
        exact Decimal.le_of_marker? lastRead
  | formal =>
      obtain ⟨name, isName, rest⟩ := bind_eq_ok_iff.mp decoded
      obtain ⟨offset, isOffset, isDecoded⟩ := bind_eq_ok_iff.mp rest
      obtain rfl := Except.ok.inj isDecoded
      have nameIsWord := isWord (required_eq_ok_iff.mp isName)
      rcases optionalNumber_eq_ok_iff.mp isOffset with ⟨-, rfl⟩ | ⟨word, slot, -, isRead, rfl⟩
      · exact ⟨rfl, List.forall_mem_singleton.mpr nameIsWord, by rintro slot ⟨⟩⟩
      · refine ⟨rfl, List.forall_mem_cons.mpr ⟨nameIsWord, ?_⟩, ?_⟩
        · exact List.forall_mem_singleton.mpr (isWord_toString slot)
        · rintro _ ⟨⟩
          exact Decimal.le_of_size? isRead

end Operands

theorem Instruction.IsWritten.areWords_written {instruction : Instruction String}
    (isWritten : instruction.IsWritten) : ∀ word ∈ instruction.written, Text.IsWord word := by
  refine List.forall_mem_map.mpr (List.forall_mem_cons.mpr ⟨?_, isWritten.areWords⟩)
  exact isWord_mnemonic instruction.mnemonic

theorem Instruction.IsWritten.isLine {instruction : Instruction String}
    (isWritten : instruction.IsWritten) : Text.IsLine instruction.render.toList := by
  rw [Instruction.toList_render]
  exact Text.isLine_intercalate isWritten.areWords_written

theorem Instruction.IsWritten.render_ne_nil {instruction : Instruction String}
    (isWritten : instruction.IsWritten) : instruction.render.toList ≠ [] := by
  intro empty
  have noWords := Text.words_intercalate isWritten.areWords_written
  rw [← Instruction.toList_render, empty] at noWords
  contradiction

theorem Mnemonic.word_of_ofWord? {set : InstructionSet} {word : String} {mnemonic : Mnemonic}
    (found : ofWord? set word = some mnemonic) : mnemonic.word = word := by
  have matched := List.find?_some found
  simp only [Bool.and_eq_true, beq_iff_eq] at matched
  exact matched.1

variable {set : InstructionSet} {line : List Char} {instruction : Instruction String}

theorem exists_operands_of_decodeLine (decoded : decodeLine set line = .instruction instruction) :
    ∃ operands : Operands, Mnemonic.ofWord? set operands.mnemonic.word = some operands.mnemonic ∧
      (∀ word ∈ operands.words, Text.IsWord word.toList) ∧ operands.decode = .ok instruction := by
  have areWords : ∀ word ∈ (Text.words line).map String.ofList, Text.IsWord word.toList := by
    intro word member
    obtain ⟨text, inLine, rfl⟩ := List.mem_map.mp member
    rw [String.toList_ofList]
    exact Text.isWord_of_mem_words inLine
  unfold decodeLine at decoded
  generalize (Text.words line).map String.ofList = words at areWords decoded
  cases words with
  | nil => contradiction
  | cons head words =>
      rw [DecodedLine.ofWords] at decoded
      cases found : Mnemonic.ofWord? set head with
      | none => simp [found] at decoded
      | some mnemonic =>
          refine ⟨{ mnemonic, words }, ?_, (List.forall_mem_cons.mp areWords).2, ?_⟩
          · rw [Mnemonic.word_of_ofWord? found, found]
          · cases isDecoded : ({ mnemonic, words } : Operands).decode with
            | error failure => simp [found, isDecoded] at decoded
            | ok other =>
                obtain rfl : other = instruction := by simpa [found, isDecoded] using decoded
                rfl

theorem isWritten_of_decodeLine (decoded : decodeLine set line = .instruction instruction) :
    instruction.IsWritten := by
  obtain ⟨operands, -, areWords, isDecoded⟩ := exists_operands_of_decodeLine decoded
  exact (Operands.isWritten_of_decode areWords isDecoded).2

theorem decodeLine_render (decoded : decodeLine set line = .instruction instruction) :
    decodeLine set instruction.render.toList = .instruction instruction := by
  obtain ⟨operands, found, areWords, isDecoded⟩ := exists_operands_of_decodeLine decoded
  obtain ⟨sameMnemonic, isWritten⟩ := Operands.isWritten_of_decode areWords isDecoded
  have again : (Text.words instruction.render.toList).map String.ofList =
      instruction.mnemonic.word :: instruction.operands := by
    rw [Instruction.toList_render, Text.words_intercalate isWritten.areWords_written,
      Instruction.written, List.map_map]
    simp [Function.comp_def]
  rw [← sameMnemonic] at found
  rw [decodeLine, again, DecodedLine.ofWords]
  simp only [found, Operands.decode_operands isWritten.fits]

namespace Program

def renderedLines (program : Program) : List (List Char) :=
  program.code.toList.map fun instruction => instruction.symbolic.render.toList

/-- The text of a program: each instruction on a line of its own. -/
def listing (program : Program) : String :=
  String.join (program.code.toList.map fun instruction => instruction.symbolic.render ++ "\n")

/-- The text of a program without a line feed behind its last line. -/
def unterminatedListing (program : Program) : String :=
  "\n".intercalate (program.code.toList.map fun instruction => instruction.symbolic.render)

theorem decodeLines_snd_eq_nil {number : Nat} {lines : List (List Char)}
    (decoded : ∀ line ∈ lines, ∃ instruction, decodeLine set line = .instruction instruction) :
    (decodeLines set number lines).2 = [] := by
  induction lines generalizing number with
  | nil => rfl
  | cons line lines ih =>
      obtain ⟨⟨instruction, isDecoded⟩, laterDecoded⟩ := List.forall_mem_cons.mp decoded
      simp only [decodeLines, isDecoded]
      exact ih laterDecoded

variable {text : String} {loaded : LoadedProgram}

theorem exists_decodeLine_of_load {linked : Instruction Jump}
    (isLoaded : load set text = .ok loaded) (member : linked ∈ loaded.program.code.toList) :
    ∃ line, decodeLine set line = .instruction linked.symbolic := by
  obtain ⟨index, found⟩ := List.mem_iff_getElem?.mp member
  rw [Array.getElem?_toList] at found
  obtain ⟨line, -, decoded⟩ := exists_line_of_load isLoaded found
  exact ⟨line, decoded⟩

/-- A text with the lines of a loaded program loads as that program. -/
theorem load_of_lines {again : String} (isLoaded : load set text = .ok loaded)
    (isLines : Text.lines again.toList = loaded.program.renderedLines) :
    load set again = .ok { program := loaded.program, skipped := [] } := by
  have decoded : ∀ linked ∈ loaded.program.code.toList,
      decodeLine set linked.symbolic.render.toList = .instruction linked.symbolic := by
    intro linked member
    obtain ⟨line, isDecoded⟩ := exists_decodeLine_of_load isLoaded member
    exact decodeLine_render isDecoded
  have resolved := (load_eq_ok_iff.mp isLoaded).1
  rw [← (resolve_eq_ok_iff.mp resolved).symbolic] at resolved
  refine load_eq_ok_iff.mpr ⟨?_, ?_⟩
  · rw [isLines, renderedLines, List.filterMap_map, ← resolved, ← List.filterMap_eq_map]
    congr 1
    refine List.filterMap_congr fun linked member => ?_
    simp [decoded linked member, DecodedLine.instruction?]
  · rw [isLines]
    refine (decodeLines_snd_eq_nil (List.forall_mem_map.mpr ?_)).symm
    intro linked member
    exact ⟨_, decoded linked member⟩

theorem forall_renderedLines {condition : List Char → Prop}
    (isLoaded : load set text = .ok loaded)
    (holds : ∀ {instruction : Instruction String}, instruction.IsWritten →
      condition instruction.render.toList) :
    ∀ line ∈ loaded.program.renderedLines, condition line := by
  refine List.forall_mem_map.mpr fun linked member => ?_
  obtain ⟨line, isDecoded⟩ := exists_decodeLine_of_load isLoaded member
  exact holds (isWritten_of_decodeLine isDecoded)

theorem lines_listing (isLoaded : load set text = .ok loaded) :
    Text.lines loaded.program.listing.toList = loaded.program.renderedLines := by
  have areLines := forall_renderedLines isLoaded Instruction.IsWritten.isLine
  rw [← Text.lines_flatMap_feed areLines, listing, renderedLines, String.toList_join,
    List.flatMap_map, List.flatMap_map]
  simp

theorem lines_unterminatedListing (isLoaded : load set text = .ok loaded) :
    Text.lines loaded.program.unterminatedListing.toList = loaded.program.renderedLines := by
  have areLines := forall_renderedLines isLoaded Instruction.IsWritten.isLine
  have filled : ∀ line ∈ loaded.program.renderedLines, line ≠ [] :=
    forall_renderedLines isLoaded Instruction.IsWritten.render_ne_nil
  rw [← Text.lines_intercalate areLines filled, unterminatedListing, renderedLines,
    String.toList_intercalate, List.map_map]
  rfl

/-- What is written out can be loaded again.  The listing of a loaded program, with or without
a line feed at its end, loads as the same program, with the same addresses and labels, and
no line of it is skipped; and whatever a line is decoded to is decoded again from its own
text. -/
theorem disassembly_reassembles (set : InstructionSet) :
    (∀ text loaded, load set text = .ok loaded →
      load set loaded.program.listing = .ok { program := loaded.program, skipped := [] } ∧
      load set loaded.program.unterminatedListing =
        .ok { program := loaded.program, skipped := [] }) ∧
    ∀ line instruction, decodeLine set line = .instruction instruction →
      decodeLine set instruction.render.toList = .instruction instruction := by
  constructor
  · intro text loaded isLoaded
    constructor
    · exact load_of_lines isLoaded (lines_listing isLoaded)
    · exact load_of_lines isLoaded (lines_unterminatedListing isLoaded)
  · intro line instruction decoded
    exact decodeLine_render decoded

/-- A text with a skipped line, signs, blanks of several kinds and numbers at their limits. -/
theorem disassembly_reassembles_limits :
    let text := "LINE -7\r\n  GOTO\tλ\nNOP\nPOP\nFUNCTION f 9223372036854775807 -3 more\n" ++
      "LIT -2147483648 −x\nFORMAL y +018446744073709551615\nLABEL\u00a0λ"
    let program : Program :=
      { code := #[.line none, .goto ⟨"λ", 6⟩, .pop 1,
          .function "f" (some 9223372036854775807) none, .lit (-2147483648) (some "−x"),
          .formal "y" (some 18446744073709551615), .label "λ"]
        labels := [("λ", 6)] }
    load .debug text = .ok { program, skipped := [⟨3, "NOP", .unknownMnemonic "NOP"⟩] } ∧
    program.listing = "LINE -1\nGOTO λ\nPOP 1\nFUNCTION f 9223372036854775807 -1\n" ++
      "LIT -2147483648 −x\nFORMAL y 18446744073709551615\nLABEL λ\n" ∧
    load .debug program.listing = .ok { program, skipped := [] } ∧
    decodeLine .debug "POP 1".toList = .instruction (.pop 1) := by
  intro text program
  have isLoaded : load .debug text =
      .ok { program, skipped := [⟨3, "NOP", .unknownMnemonic "NOP"⟩] } := by decide +kernel
  obtain ⟨reloads, redecodes⟩ := disassembly_reassembles .debug
  exact ⟨isLoaded, by decide +kernel, (reloads text _ isLoaded).1,
    redecodes "POP".toList (.pop 1) (by decide +kernel)⟩

end Program

end StackDebugger
