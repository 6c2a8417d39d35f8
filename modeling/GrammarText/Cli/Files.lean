import GrammarText.Text.Blank

/-!
The files of a working directory.

A path is a list of names between slashes, where a single point is no step. The directory is all
that is looked at: a path from the root, a path with two points in it and a path that ends in a
slash or a point lead to no file.

- `Files.read?`, `Files.write?`: the bytes of a file, and the directory with a file written. A file
  is written only into a directory that is there.
-/

namespace GrammarText

/-- Files by the names on their paths. -/
abbrev Files := List (List String × ByteArray)

namespace Files

/-- The names on a path, or `none` if it leads to no file of the directory. -/
def steps? (path : String) : Option (List String) :=
  let names := (Text.cut (· == '/') path.toList).map String.ofList
  let last := names.getLast?.getD ""
  if path.toList.head? = some '/' || names.contains ".." || last = "" || last = "." then none
  else some (names.filter fun name => name ≠ "" && name ≠ ".")

/-- Puts files into an empty directory, and the directories on their paths. -/
def ofList (files : List (String × ByteArray)) : Files :=
  files.filterMap fun (path, bytes) => (steps? path).map fun steps => (steps, bytes)

def read? (files : Files) (path : String) : Option ByteArray :=
  (steps? path).bind fun steps => List.lookup steps files

/-- Whether the names lead to the directory itself or to one in which a file stands. -/
def isDirectory (files : Files) (steps : List String) : Bool :=
  steps.isEmpty || files.any fun file => steps.isPrefixOf file.1 && file.1 ≠ steps

def put (files : Files) (steps : List String) (bytes : ByteArray) : Files :=
  (steps, bytes) :: files.filter fun file => file.1 ≠ steps

def write? (files : Files) (path : String) (bytes : ByteArray) : Option Files :=
  match steps? path with
  | none => none
  | some steps =>
    if files.isDirectory steps.dropLast && !files.isDirectory steps then
      some (files.put steps bytes)
    else none

end Files

end GrammarText
