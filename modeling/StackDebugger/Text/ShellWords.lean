/-!
# Shell words

A command line is cut into words as a shell would do it.  Spaces, tabs and
line feeds separate words; quotes and backslashes keep them together; a `#`
at the start of a word begins a comment that ends with the line.
-/

namespace StackDebugger.Text

/-- Where in a command line a character stands. -/
inductive ShellPlace where
  /-- Between words. -/
  | gap
  | comment
  | word
  /-- After a backslash in a word. -/
  | escape
  | singleQuotes
  | doubleQuotes
  /-- After a backslash in double quotes. -/
  | quotedEscape
  deriving DecidableEq, Repr

/-- The characters that separate words. -/
def isShellGap (c : Char) : Bool :=
  c == ' ' || c == '\t' || c == '\n'

/-- The characters that a backslash keeps in double quotes: the dollar sign,
the grave accent, the quote and the backslash. -/
def isQuotedEscape (c : Char) : Bool :=
  c == '$' || c == '\x60' || c == '"' || c == '\\'

/-- The place to which a character of a word leads, unless it is an ordinary
character. -/
def wordPlace? (c : Char) : Option ShellPlace :=
  if c = '"' then some .doubleQuotes
  else if c = '\'' then some .singleQuotes
  else if c = '\\' then some .escape
  else none

/-- The words of a command line from a place on, where the current word began
with the gathered characters, kept last character first.  A quote that stays
open and a backslash at the end are refused; an escaped line feed leaves
nothing behind. -/
def shellWordsFrom (place : ShellPlace) (gathered : List Char) :
    List Char → Option (List (List Char))
  | [] =>
      match place with
      | .gap | .comment => some []
      | .word => some [gathered.reverse]
      | .escape | .singleQuotes | .doubleQuotes | .quotedEscape => none
  | c :: rest =>
      match place with
      | .gap =>
          if isShellGap c then shellWordsFrom .gap [] rest
          else if c = '#' then shellWordsFrom .comment [] rest
          else
            match wordPlace? c with
            | some inside => shellWordsFrom inside [] rest
            | none => shellWordsFrom .word [c] rest
      | .comment =>
          if c = '\n' then shellWordsFrom .gap [] rest
          else shellWordsFrom .comment [] rest
      | .word =>
          if isShellGap c then (shellWordsFrom .gap [] rest).map (gathered.reverse :: ·)
          else
            match wordPlace? c with
            | some inside => shellWordsFrom inside gathered rest
            | none => shellWordsFrom .word (c :: gathered) rest
      | .escape =>
          if c = '\n' then shellWordsFrom .word gathered rest
          else shellWordsFrom .word (c :: gathered) rest
      | .singleQuotes =>
          if c = '\'' then shellWordsFrom .word gathered rest
          else shellWordsFrom .singleQuotes (c :: gathered) rest
      | .doubleQuotes =>
          if c = '"' then shellWordsFrom .word gathered rest
          else if c = '\\' then shellWordsFrom .quotedEscape gathered rest
          else shellWordsFrom .doubleQuotes (c :: gathered) rest
      | .quotedEscape =>
          if c = '\n' then shellWordsFrom .doubleQuotes gathered rest
          else if isQuotedEscape c then shellWordsFrom .doubleQuotes (c :: gathered) rest
          else shellWordsFrom .doubleQuotes (c :: '\\' :: gathered) rest

/-- The words of a command line, unless its quoting is unbalanced. -/
def shellWords? (line : List Char) : Option (List (List Char)) :=
  shellWordsFrom .gap [] line

end StackDebugger.Text
