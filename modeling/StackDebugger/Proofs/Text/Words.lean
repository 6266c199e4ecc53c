import StackDebugger.Text.Basic

/-!
# Texts put together from words and lines

Words with single spaces between them are the words of the text that they make, and
lines are the lines of theirs, whether each is ended by a line feed or line feeds
only stand between them.  A carriage return before a line feed belongs to the ending
of the line.
-/

namespace StackDebugger.Text

/-- A text that is a single word. -/
structure IsWord (text : List Char) : Prop where
  filled : text ≠ []
  visible : ∀ c ∈ text, isBlank c = false

theorem IsWord.of_any {text : List Char} (filled : text ≠ [])
    (visible : text.any isBlank = false) : IsWord text := by
  refine ⟨filled, ?_⟩
  intro c member
  exact Bool.eq_false_iff.mpr (List.any_eq_false.mp visible c member)

theorem wordsAfter_append {visible : List Char} (gathered rest : List Char)
    (noBlank : ∀ c ∈ visible, isBlank c = false) :
    wordsAfter gathered (visible ++ rest) = wordsAfter (visible.reverse ++ gathered) rest := by
  induction visible generalizing gathered with
  | nil => rfl
  | cons c visible ih =>
      obtain ⟨letter, laterVisible⟩ := List.forall_mem_cons.mp noBlank
      rw [List.cons_append, wordsAfter_letter gathered _ letter, ih _ laterVisible]
      simp

theorem closeWord_reverse {word : List Char} (isWord : IsWord word) (later : List (List Char)) :
    closeWord (word.reverse ++ []) later = word :: later := by
  simp [closeWord, isWord.filled]

theorem words_of_isWord {word : List Char} (isWord : IsWord word) : words word = [word] := by
  have gathered := wordsAfter_append [] [] isWord.visible
  rw [List.append_nil] at gathered
  rw [words, gathered, wordsAfter, closeWord_reverse isWord]

theorem words_append_space {word : List Char} (isWord : IsWord word) (rest : List Char) :
    words (word ++ ' ' :: rest) = word :: words rest := by
  rw [words, wordsAfter_append [] _ isWord.visible, wordsAfter_blank _ _ (by decide),
    closeWord_reverse isWord, words]

theorem words_intercalate {list : List (List Char)} (areWords : ∀ word ∈ list, IsWord word) :
    words ([' '].intercalate list) = list := by
  induction list with
  | nil => rfl
  | cons word list ih =>
      obtain ⟨isWord, laterWords⟩ := List.forall_mem_cons.mp areWords
      cases list with
      | nil =>
          rw [List.intercalate_singleton]
          exact words_of_isWord isWord
      | cons next list =>
          rw [List.intercalate_cons_cons, List.append_assoc, List.singleton_append,
            words_append_space isWord, ih laterWords]

/-- A blank at the end of a text is in none of its words. -/
theorem wordsAfter_append_blank (gathered text : List Char) {c : Char} (blank : isBlank c = true) :
    wordsAfter gathered (text ++ [c]) = wordsAfter gathered text := by
  induction text generalizing gathered with
  | nil =>
      rw [List.nil_append, wordsAfter_blank gathered [] blank]
      rfl
  | cons first text ih =>
      rw [List.cons_append, wordsAfter, wordsAfter, ih, ih]

theorem isWord_of_mem_wordsAfter {gathered text word : List Char}
    (visible : ∀ c ∈ gathered, isBlank c = false) (member : word ∈ wordsAfter gathered text) :
    IsWord word := by
  have closes : ∀ {gathered : List Char} {later : List (List Char)},
      (∀ c ∈ gathered, isBlank c = false) → (word ∈ later → IsWord word) →
        word ∈ closeWord gathered later → IsWord word := by
    intro gathered later visible isLater member
    unfold closeWord at member
    split at member
    · exact isLater member
    · next filled =>
        rcases List.mem_cons.mp member with rfl | inLater
        · constructor
          · simpa using filled
          · intro c inWord
            exact visible c (List.mem_reverse.mp inWord)
        · exact isLater inLater
  induction text generalizing gathered with
  | nil => exact closes visible (by simp) member
  | cons c text ih =>
      by_cases blank : isBlank c = true
      · rw [wordsAfter_blank gathered text blank] at member
        exact closes visible (ih (by simp)) member
      · have letter : isBlank c = false := Bool.eq_false_iff.mpr blank
        rw [wordsAfter_letter gathered text letter] at member
        exact ih (List.forall_mem_cons.mpr ⟨letter, visible⟩) member

theorem isWord_of_mem_words {text word : List Char} (member : word ∈ words text) : IsWord word :=
  isWord_of_mem_wordsAfter (by simp) member

/-- A text that can stand on a line: neither a line feed nor a carriage return is in it. -/
structure IsLine (text : List Char) : Prop where
  noFeed : '\n' ∉ text
  noReturn : '\r' ∉ text

/-- What is in a joined text is the character between the parts, or is in one of them. -/
theorem eq_or_exists_of_mem_intercalate {separator c : Char} {parts : List (List Char)}
    (member : c ∈ [separator].intercalate parts) : c = separator ∨ ∃ part ∈ parts, c ∈ part := by
  induction parts with
  | nil => contradiction
  | cons part parts ih =>
      cases parts with
      | nil =>
          rw [List.intercalate_singleton] at member
          exact .inr ⟨part, List.mem_cons_self, member⟩
      | cons next parts =>
          rw [List.intercalate_cons_cons, List.append_assoc, List.mem_append,
            List.singleton_append, List.mem_cons] at member
          rcases member with inPart | isSeparator | later
          · exact .inr ⟨part, List.mem_cons_self, inPart⟩
          · exact .inl isSeparator
          · obtain same | ⟨other, isOther, inOther⟩ := ih later
            · exact .inl same
            · exact .inr ⟨other, List.mem_cons_of_mem part isOther, inOther⟩

/-- Things are found again in the text that joins what is written for each, if that is never empty
and never has the character between them. -/
theorem intercalate_map_injective {α : Type} {separator : Char} {write : α → List Char}
    (filled : ∀ item, write item ≠ []) (free : ∀ item, separator ∉ write item)
    (injective : Function.Injective write) :
    Function.Injective fun items : List α => [separator].intercalate (items.map write) := by
  have found (items : List α) :
      (([separator].intercalate (items.map write)).splitOn separator).filter
        (fun part => !part.isEmpty) = items.map write := by
    cases items with
    | nil => simp
    | cons item items =>
        have freeParts : ∀ part ∈ (item :: items).map write, separator ∉ part :=
          List.forall_mem_map.mpr fun item _ => free item
        rw [List.splitOn_intercalate separator freeParts (List.cons_ne_nil _ _),
          List.filter_eq_self]
        exact List.forall_mem_map.mpr fun item _ => by simpa using filled item
  intro first second same
  have isFirst := found first
  have sameText : [separator].intercalate (first.map write) =
      [separator].intercalate (second.map write) := same
  rw [sameText, found second] at isFirst
  exact ((List.map_inj_right fun _ _ equal => injective equal).mp isFirst).symm

theorem isLine_intercalate {list : List (List Char)} (areWords : ∀ word ∈ list, IsWord word) :
    IsLine ([' '].intercalate list) := by
  have spaced {c : Char} (member : c ∈ [' '].intercalate list) : c = ' ' ∨ isBlank c = false := by
    obtain isSpace | ⟨word, isWord, inWord⟩ := eq_or_exists_of_mem_intercalate member
    · exact .inl isSpace
    · exact .inr ((areWords word isWord).visible c inWord)
  constructor
  · intro member
    exact absurd (spaced member) (by decide)
  · intro member
    exact absurd (spaced member) (by decide)

theorem linesAfter_append {line : List Char} (gathered rest : List Char)
    (noFeed : '\n' ∉ line) :
    linesAfter gathered (line ++ rest) = linesAfter (line.reverse ++ gathered) rest := by
  induction line generalizing gathered with
  | nil => rfl
  | cons c line ih =>
      obtain ⟨differs, laterNoFeed⟩ := List.ne_and_not_mem_of_not_mem_cons noFeed
      rw [List.cons_append, linesAfter, if_neg (Ne.symm differs), ih _ laterNoFeed]
      simp

theorem dropReturn_of_not_mem {gathered : List Char} (noReturn : '\r' ∉ gathered) :
    dropReturn gathered = gathered := by
  unfold dropReturn
  split
  · simp at noReturn
  · rfl

/-- A line without the carriage return that belongs to its ending. -/
def withoutReturn (line : List Char) : List Char :=
  (dropReturn line.reverse).reverse

theorem words_withoutReturn (line : List Char) : words (withoutReturn line) = words line := by
  unfold withoutReturn dropReturn
  split
  · next gathered isReversed =>
      have isLine : line = gathered.reverse ++ ['\r'] := by
        rw [← line.reverse_reverse, isReversed, List.reverse_cons]
      rw [isLine]
      exact (wordsAfter_append_blank [] _ (by decide)).symm
  · rw [List.reverse_reverse]

theorem lines_append_of_noFeed {line : List Char} (noFeed : '\n' ∉ line) (rest : List Char) :
    lines (line ++ '\n' :: rest) = withoutReturn line :: lines rest := by
  rw [lines, linesAfter_append [] _ noFeed, linesAfter, if_pos rfl, List.append_nil]
  rfl

theorem lines_of_noFeed {line : List Char} (noFeed : '\n' ∉ line) :
    lines line = if line.isEmpty then [] else [line] := by
  have gathered := linesAfter_append [] [] noFeed
  rw [List.append_nil, List.append_nil] at gathered
  rw [lines, gathered, linesAfter, List.reverse_reverse, List.isEmpty_reverse]

/-- The text with a carriage return before every line feed. -/
def withReturns (text : List Char) : List Char :=
  text.flatMap fun c => if c = '\n' then ['\r', '\n'] else [c]

/-- A text without carriage returns has the same lines when they are put before its line
feeds. -/
theorem linesAfter_withReturns {gathered text : List Char} (gatheredNone : '\r' ∉ gathered)
    (textNone : '\r' ∉ text) :
    linesAfter gathered (withReturns text) = linesAfter gathered text := by
  induction text generalizing gathered with
  | nil => rfl
  | cons c text ih =>
      obtain ⟨notReturn, laterNone⟩ := List.ne_and_not_mem_of_not_mem_cons textNone
      rw [withReturns, List.flatMap_cons, ← withReturns]
      by_cases feed : c = '\n'
      · rw [if_pos feed, List.cons_append, List.singleton_append, linesAfter,
          if_neg (by decide), linesAfter, if_pos rfl, linesAfter, if_pos feed,
          dropReturn_of_not_mem gatheredNone, ih (by simp) laterNone]
        rfl
      · have stillNone : '\r' ∉ c :: gathered := by simp [notReturn, gatheredNone]
        rw [if_neg feed, List.singleton_append, linesAfter, linesAfter, if_neg feed, if_neg feed,
          ih stillNone laterNone]

theorem lines_append_feed {line : List Char} (isLine : IsLine line) (rest : List Char) :
    lines (line ++ '\n' :: rest) = line :: lines rest := by
  have noReturn : '\r' ∉ line.reverse := by simpa using isLine.noReturn
  rw [lines_append_of_noFeed isLine.noFeed, withoutReturn, dropReturn_of_not_mem noReturn,
    List.reverse_reverse]

theorem lines_of_isLine {line : List Char} (isLine : IsLine line) (filled : line ≠ []) :
    lines line = [line] := by
  rw [lines_of_noFeed isLine.noFeed, if_neg (by simpa using filled)]

theorem lines_flatMap_feed {list : List (List Char)} (areLines : ∀ line ∈ list, IsLine line) :
    lines (list.flatMap (· ++ ['\n'])) = list := by
  induction list with
  | nil => rfl
  | cons line list ih =>
      obtain ⟨isLine, laterLines⟩ := List.forall_mem_cons.mp areLines
      rw [List.flatMap_cons, List.append_assoc, List.singleton_append,
        lines_append_feed isLine, ih laterLines]

theorem lines_intercalate {list : List (List Char)} (areLines : ∀ line ∈ list, IsLine line)
    (filled : ∀ line ∈ list, line ≠ []) : lines (['\n'].intercalate list) = list := by
  induction list with
  | nil => rfl
  | cons line list ih =>
      obtain ⟨isLine, laterLines⟩ := List.forall_mem_cons.mp areLines
      obtain ⟨lineFilled, laterFilled⟩ := List.forall_mem_cons.mp filled
      cases list with
      | nil =>
          rw [List.intercalate_singleton]
          exact lines_of_isLine isLine lineFilled
      | cons next list =>
          rw [List.intercalate_cons_cons, List.append_assoc, List.singleton_append,
            lines_append_feed isLine, ih laterLines laterFilled]

end StackDebugger.Text
