import StackDebugger.Program
import StackDebugger.Text.Utf8

/-!
# Files

A path is a text cut by slashes.  Empty parts and single dots at its end do not
change which file it names.  Bytecode and listings are read through a reader,
which gives the bytes of a file or the reason why there are none.  A tree of
files is such a reader: the directories on the way to an entry exist with it, and
so do the directories above the tree, which hold nothing else that can be named.
A path is followed part by part, and the first part that cannot be followed
decides the error.
-/

namespace StackDebugger.Path

/-- The parts between slashes, where the first part began with the gathered
characters, kept last character first. -/
def partsAfter (gathered : List Char) : List Char → List (List Char)
  | [] => [gathered.reverse]
  | c :: rest =>
      if c = '/' then gathered.reverse :: partsAfter [] rest
      else partsAfter (c :: gathered) rest

/-- The parts between slashes. -/
def parts (path : List Char) : List (List Char) :=
  partsAfter [] path

/-- Whether a part at the end of a path can be left out. -/
def isIdle (part : List Char) : Bool :=
  part.isEmpty || part == ['.']

/-- The parts up to the last one that matters, in reverse order. -/
def activeParts (path : List Char) : List (List Char) :=
  (parts path).reverse.dropWhile isIdle

/-- The path up to the end of its last part that matters. -/
def trunk (path : List Char) : List Char :=
  List.intercalate ['/'] (activeParts path).reverse

/-- The part that leads to the directory above. -/
def parent : List Char :=
  ['.', '.']

/-- The name of the file; the parent directory is not a name. -/
def fileName? (path : List Char) : Option (List Char) :=
  match activeParts path with
  | [] => none
  | name :: _ => if name = parent then none else some name

/-- What follows the last dot of a name, unless nothing stands before that
dot. -/
def extension? (name : List Char) : Option (List Char) :=
  match name.reverse.dropWhile (· != '.') with
  | [] => none
  | [_] => none
  | _ => some (name.reverse.takeWhile (· != '.')).reverse

/-- A path without the extension of its file name. -/
def dropExtension (path : List Char) : List Char :=
  match fileName? path with
  | none => path
  | some name =>
      match extension? name with
      | none => trunk path
      | some extension => (trunk path).take ((trunk path).length - (extension.length + 1))

/-- The extension of bytecode files. -/
def bytecodeExtension : List Char :=
  ['c', 'o', 'd']

/-- The listing that belongs to a bytecode file: its path without the
extension `cod`, and its path itself if it has another one.  As many
characters as the extension has are cut from the end first, so that a slash
at the end goes with it. -/
def listing (path : String) : String :=
  match (fileName? path.toList).bind extension? with
  | none => path
  | some extension =>
      if extension = bytecodeExtension then
        String.ofList (dropExtension (path.toList.take (path.length - extension.length)))
      else path

/-- Where a part leads from a directory.  A place is given by the parts that
lead to it from the start, innermost first, and names none of them that a
later one takes back: the steps above the start come before all names. -/
def step (place : List (List Char)) (part : List Char) : List (List Char) :=
  if isIdle part then place
  else if part = parent then
    match place with
    | [] => [parent]
    | inner :: outer => if inner = parent then parent :: inner :: outer else outer
  else part :: place

/-- The places that parts lead to one after the other. -/
def places (place : List (List Char)) : List (List Char) → List (List (List Char))
  | [] => []
  | part :: rest => step place part :: places (step place part) rest

/-- Whether a place is the start or a directory above it. -/
def isAscent (place : List (List Char)) : Bool :=
  place.all (· == parent)

end StackDebugger.Path

namespace StackDebugger

/-- Why a file cannot be read as text. -/
inductive FileError where
  | notFound
  | notDirectory
  | isDirectory
  | notText
  | other (reason : String)
  deriving DecidableEq, Repr

/-- What an error says. -/
def FileError.message : FileError → String
  | .notFound => "No such file or directory (os error 2)"
  | .notDirectory => "Not a directory (os error 20)"
  | .isDirectory => "Is a directory (os error 21)"
  | .notText => Utf8.malformedMessage
  | .other reason => reason

/-- Gives the bytes of the file at a path. -/
abbrev FileReader := String → Except FileError (List UInt8)

/-- The text of a file. -/
def FileReader.readText (read : FileReader) (path : String) : Except FileError String :=
  match read path with
  | .error failure => .error failure
  | .ok bytes =>
      match Utf8.decode? bytes with
      | none => .error .notText
      | some text => .ok (String.ofList text)

/-- The lines of a listing; a file that cannot be read has none. -/
def FileReader.readListing (read : FileReader) (path : String) : List String :=
  match read.readText path with
  | .error _ => []
  | .ok text => (Text.lines text.toList).map String.ofList

/-- Why a bytecode file cannot be loaded. -/
inductive LoadError where
  | unreadable (path : String) (reason : FileError)
  | unresolved (error : ResolveError)
  deriving DecidableEq, Repr

/-- What an error says. -/
def LoadError.message : LoadError → String
  | .unreadable path reason => "could not read " ++ path ++ ": " ++ reason.message
  | .unresolved error => error.message

/-- Loads a bytecode file. -/
def FileReader.loadProgram (read : FileReader) (set : InstructionSet) (path : String) :
    Except LoadError LoadedProgram :=
  match read.readText path with
  | .error reason => .error (.unreadable path reason)
  | .ok text =>
      match Program.load set text with
      | .error error => .error (.unresolved error)
      | .ok loaded => .ok loaded

/-- What stands at a place of a tree. -/
inductive FileEntry where
  | file (bytes : List UInt8)
  | directory
  deriving DecidableEq, Repr

/-- Entries with the places where they stand, later ones first. -/
abbrev FileTree := List (List (List Char) × FileEntry)

namespace FileTree

/-- Puts an entry at the end of a path, with the directories on the way. -/
def insert (tree : FileTree) (path : String) (entry : FileEntry) : FileTree :=
  match (Path.places [] (Path.parts path.toList)).reverse with
  | [] => tree
  | place :: passed => (place, entry) :: (passed.map (·, .directory) ++ tree)

/-- A tree of entries given by their paths.  Of two entries at one place the
later one stays. -/
def ofEntries (entries : List (String × FileEntry)) : FileTree :=
  entries.foldl (fun tree (path, entry) => tree.insert path entry) []

/-- What stands at a place. -/
def find? (tree : FileTree) (place : List (List Char)) : Option FileEntry :=
  if Path.isAscent place then some .directory else tree.lookup place

/-- Follows parts of a path from a place. -/
def follow (tree : FileTree) (place : List (List Char)) :
    List (List Char) → Except FileError FileEntry
  | [] =>
      match tree.find? place with
      | some entry => .ok entry
      | none => .error .notFound
  | part :: rest =>
      match tree.find? place with
      | none => .error .notFound
      | some (.file _) => .error .notDirectory
      | some .directory => tree.follow (Path.step place part) rest

/-- Reads the files of a tree. -/
def reader (tree : FileTree) : FileReader := fun path =>
  if path.isEmpty || path.startsWith "/" then .error .notFound
  else
    match tree.follow [] (Path.parts path.toList) with
    | .error failure => .error failure
    | .ok .directory => .error .isDirectory
    | .ok (.file bytes) => .ok bytes

end FileTree

end StackDebugger
