/-!
# Words, lines and numbers

Texts are divided into words by blank characters: the code points with the
Unicode property `White_Space`.  A line ends after a line feed.  Text lines are
given without their ending, and a carriage return just before the line feed
belongs to the ending; raw lines of bytes keep theirs, so that their
concatenation is the input.  Decimal integers are read from an optional sign and
at least one ASCII digit; nothing else may stand beside them.  Unsigned numbers
take a plus but no minus.  A number outside the range of its kind is not read at
all.
-/

namespace StackDebugger.Text

/-- The twenty-five code points with the Unicode property `White_Space`. -/
def isBlank (c : Char) : Bool :=
  let code := c.toNat
  (0x09 ≤ code && code ≤ 0x0D) || code == 0x20 || code == 0x85 || code == 0xA0 ||
    code == 0x1680 || (0x2000 ≤ code && code ≤ 0x200A) || code == 0x2028 ||
    code == 0x2029 || code == 0x202F || code == 0x205F || code == 0x3000

/-- A gathered word, last character first, placed before the later words;
nothing is added when no character was gathered. -/
def closeWord (gathered : List Char) (later : List (List Char)) : List (List Char) :=
  if gathered.isEmpty then later else gathered.reverse :: later

/-- The words of a text whose first word already began with the gathered
characters, kept last character first. -/
def wordsAfter (gathered : List Char) : List Char → List (List Char)
  | [] => closeWord gathered []
  | c :: rest =>
      if isBlank c then closeWord gathered (wordsAfter [] rest)
      else wordsAfter (c :: gathered) rest

/-- The maximal runs of characters that are not blank, in order. -/
def words (text : List Char) : List (List Char) :=
  wordsAfter [] text

/-- A text without the blanks at its end. -/
def trimEnd (text : List Char) : List Char :=
  (text.reverse.dropWhile isBlank).reverse

/-- A text without the blanks at either end. -/
def trim (text : List Char) : List Char :=
  trimEnd (text.dropWhile isBlank)

@[simp] theorem words_nil : words [] = [] := rfl

theorem wordsAfter_blank (gathered rest : List Char) {c : Char} (blank : isBlank c = true) :
    wordsAfter gathered (c :: rest) = closeWord gathered (wordsAfter [] rest) := by
  simp [wordsAfter, blank]

theorem wordsAfter_letter (gathered rest : List Char) {c : Char} (letter : isBlank c = false) :
    wordsAfter gathered (c :: rest) = wordsAfter (c :: gathered) rest := by
  simp [wordsAfter, letter]

/-- Removes one carriage return from a line kept last character first. -/
def dropReturn : List Char → List Char
  | '\r' :: gathered => gathered
  | gathered => gathered

/-- The lines of a text whose first line already began with the gathered
characters, kept last character first. -/
def linesAfter (gathered : List Char) : List Char → List (List Char)
  | [] => if gathered.isEmpty then [] else [gathered.reverse]
  | c :: rest =>
      if c = '\n' then (dropReturn gathered).reverse :: linesAfter [] rest
      else linesAfter (c :: gathered) rest

/-- The lines of a text.  A last line that no line feed ends is kept as it
stands, and there is no empty line after a final line feed. -/
def lines (text : List Char) : List (List Char) :=
  linesAfter [] text

/-- A line of bytes with its line feed, if it has one. -/
abbrev RawLine := List UInt8

/-- The raw lines of an input whose first line already began with the
gathered bytes, kept last byte first. -/
def rawLinesAfter (gathered : List UInt8) : List UInt8 → List RawLine
  | [] => if gathered.isEmpty then [] else [gathered.reverse]
  | b :: rest =>
      if b = 10 then (b :: gathered).reverse :: rawLinesAfter [] rest
      else rawLinesAfter (b :: gathered) rest

/-- The raw lines of an input. -/
def rawLines (bytes : List UInt8) : List RawLine :=
  rawLinesAfter [] bytes

@[simp] theorem lines_nil : lines [] = [] := rfl

@[simp] theorem rawLines_nil : rawLines [] = [] := rfl

theorem rawLinesAfter_flatten (gathered bytes : List UInt8) :
    (rawLinesAfter gathered bytes).flatten = gathered.reverse ++ bytes := by
  induction bytes generalizing gathered with
  | nil =>
      cases gathered <;> simp [rawLinesAfter]
  | cons b rest ih =>
      by_cases feed : b = 10 <;> simp [rawLinesAfter, feed, ih]

/-- Nothing of the input is lost when it is cut into raw lines. -/
@[simp] theorem rawLines_flatten (bytes : List UInt8) : (rawLines bytes).flatten = bytes := by
  simp [rawLines, rawLinesAfter_flatten]

end StackDebugger.Text

namespace StackDebugger.Decimal

/-- The number that a non-empty run of ASCII digits denotes. -/
def digits? (text : List Char) : Option Nat :=
  if text.isEmpty || !text.all Char.isDigit then none
  else some (Nat.ofDigitChars 10 text 0)

/-- An unsigned number of any size. -/
def natural? : List Char → Option Nat
  | '+' :: rest => digits? rest
  | text => digits? text

/-- A signed number of any size. -/
def integer? : List Char → Option Int
  | '-' :: rest => (digits? rest).map fun magnitude => -(magnitude : Int)
  | text => (natural? text).map Int.ofNat

/-- A count, offset or line: an unsigned number that fits in 64 bits. -/
def size? (text : List Char) : Option Nat :=
  (natural? text).filter fun number => number ≤ 0xFFFFFFFFFFFFFFFF

/-- A machine integer: a signed number that fits in 32 bits. -/
def int32? (text : List Char) : Option Int32 :=
  ((integer? text).filter fun number => -0x80000000 ≤ number && number ≤ 0x7FFFFFFF).map
    Int32.ofInt

/-- A line marker: a signed number that fits in 64 bits, of which the negative
ones stand for no line. -/
def marker? (text : List Char) : Option (Option Nat) :=
  ((integer? text).filter fun number =>
    -0x8000000000000000 ≤ number && number ≤ 0x7FFFFFFFFFFFFFFF).map fun number =>
      if number < 0 then none else some number.toNat

/-- The shortest decimal text of a machine integer. -/
def ofInt32 (value : Int32) : String :=
  toString value.toInt

/-- The text of a line marker, where no line is written as minus one. -/
def ofMarker : Option Nat → String
  | none => "-1"
  | some line => toString line

end StackDebugger.Decimal
