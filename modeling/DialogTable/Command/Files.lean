import DialogTable.Command.Host

/-!
# Files in memory

Files have names below a working directory; a slash in a name stands between directories, which are
there as long as a file is in them. A path is followed step by step. Where it would leave the
working directory it leads to directories that hold nothing but what is written there.
-/

namespace DialogTable.Command

/-- Files with their texts, each name once. -/
structure Files where
  entries : List (String × String) := []
  deriving DecidableEq, Repr

namespace Files

/-- The most bytes that a step of a path may have. -/
def longestStep : Nat := 255

/-- The most bytes that a path may have. -/
def longestPath : Nat := 4095

/-- The name that some steps lead to. -/
def nameOf (steps : List String) : String :=
  Text.join "/" steps

/-- Whether a file has a name. -/
def isFile (files : Files) (name : String) : Bool :=
  files.entries.any fun entry => entry.1 = name

/-- Whether some steps lead to a directory. -/
def isDirectory (files : Files) (steps : List String) : Bool :=
  steps.all (· = "..") ||
    files.entries.any fun entry => (nameOf steps ++ "/").toList.isPrefixOf entry.1.toList

/-- The steps to the directory above. -/
def above (steps : List String) : List String :=
  if steps.all (· = "..") then steps ++ [".."] else steps.dropLast

/-- Follows the steps of a path from a place. If the path is to be created, it must not end with a
slash. -/
def follow (files : Files) (creating : Bool) :
    List String → List String → Except FileError (List String)
  | place, [] => .ok place
  | place, step :: rest =>
    if files.isFile (nameOf place) then .error .notDirectory
    else if !files.isDirectory place then .error .notFound
    else if step = "" ∨ step = "." then files.follow creating place rest
    else if step = ".." then files.follow creating (above place) rest
    else if creating ∧ rest ≠ [] ∧ rest.all (· = "") then .error .isDirectory
    else if longestStep < step.utf8ByteSize then .error .nameTooLong
    else files.follow creating (place ++ [step]) rest

/-- The steps that a path is made of. -/
def stepsOf (path : String) : List String :=
  (Text.splitAt (· = '/') path.toList).map String.ofList

/-- The name of the file that a path leads to. Nothing is known about the root but that it is a
directory. -/
def locate (files : Files) (creating : Bool) (path : String) : Except FileError String :=
  let steps := stepsOf path
  if '\x00' ∈ path.toList then .error .zeroInName
  else if path = "" then .error .notFound
  else if longestPath < path.utf8ByteSize then .error .nameTooLong
  else if path.toList.head? = some '/' then
    .error (if steps.all (· ∈ ["", ".", ".."]) then .isDirectory else .notFound)
  else (files.follow creating [] steps).bind fun place =>
    if files.isDirectory place then .error .isDirectory else .ok (nameOf place)

/-- The path of the device that is always empty. -/
def nullDevice : String := "/dev/null"

/-- The text of the file that a path leads to. -/
def load (files : Files) (path : String) : Except FileError String :=
  if path = nullDevice then .ok ""
  else
    (files.locate false path).bind fun name =>
      match files.entries.lookup name with
      | some text => .ok text
      | none => .error .notFound

/-- Writes the file that a path leads to. -/
def save (files : Files) (path text : String) : Except FileError Files :=
  if path = nullDevice then .ok files
  else
    (files.locate true path).map fun name =>
      { entries := (name, text) :: files.entries.filter (·.1 ≠ name) }

/-- The files that are not the same in earlier files, those above the working directory left out. -/
def changesFrom (files earlier : Files) : List (String × String) :=
  files.entries.filter fun entry =>
    earlier.entries.lookup entry.1 ≠ some entry.2 && !"../".toList.isPrefixOf entry.1.toList

end Files

end DialogTable.Command
