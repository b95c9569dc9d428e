import XmlBinding.Dict

/-!
# Files

Why an input cannot be read, and a tree of files that is held in memory. A path is followed name by
name from the working directory, or from the root when it begins with a slash, and the first name
that leads nowhere decides the error.
-/
namespace XmlBinding.CommandLine

inductive ReadError
  | missing
  | denied
  | notDirectory
  | isDirectory
  | nameTooLong
  | notText
  | other (text : String)

/-- The words of the operating system and its number for the error. -/
def ReadError.message : ReadError → String
  | .missing => "No such file or directory (os error 2)"
  | .denied => "Permission denied (os error 13)"
  | .notDirectory => "Not a directory (os error 20)"
  | .isDirectory => "Is a directory (os error 21)"
  | .nameTooLong => "File name too long (os error 36)"
  | .notText => "stream did not contain valid UTF-8"
  | .other text => text

/-- A place in the tree: the names that lead to it from the root. -/
abbrev Place := List String

structure Files where
  contents : List (Place × String)
  /-- The directories that need not hold a file. -/
  directories : List Place
  workingDirectory : Place

namespace Files

def maxName : Nat := 255

def maxPath : Nat := 4095

/-- Whether there is a file or a directory at a place; the ancestors of both are directories. -/
def exists? (files : Files) (place : Place) : Bool :=
  place.isEmpty || files.directories.any (place.isPrefixOf ·) ||
    files.contents.any fun file => place.isPrefixOf file.1

/-- Follow one more name. Behind a file no name leads anywhere, not even the empty one that stands
behind a slash at the end of a path. -/
def enter (files : Files) (here : Place) (name : String) : Except ReadError Place :=
  if (files.contents.lookup here).isSome then .error .notDirectory
  else if name = "" ∨ name = "." then .ok here
  else if name = ".." then .ok here.dropLast
  else if maxName < name.utf8ByteSize then .error .nameTooLong
  else if files.exists? (here ++ [name]) then .ok (here ++ [name])
  else .error .missing

def read (files : Files) (path : String) : Except ReadError String := do
  if path = "" then throw .missing
  if maxPath < path.utf8ByteSize then throw .nameTooLong
  let start := if path.startsWith "/" then [] else files.workingDirectory
  let place ← (path.splitOn "/").foldlM files.enter start
  match files.contents.lookup place with
  | some text => return text
  | none => throw .isDirectory

/-- A computer where the given files stand in the working directory. That directory has a name of
its own which no path can spell, and the usual devices and directories are there. -/
def around (given : Dict String String) (input : String) : Files where
  contents := (given.entries.map fun (name, text) => (["tmp", ""] ++ name.splitOn "/", text)) ++
    [(["dev", "null"], ""), (["dev", "stdin"], input), (["dev", "fd", "0"], input),
      (["proc", "self", "fd", "0"], input)]
  directories := ["tmp", ""] :: [["usr", "bin"], ["usr", "lib"], ["usr", "local"], ["usr", "share"],
    ["var", "log"], ["var", "tmp"]] ++
    ["bin", "boot", "etc", "home", "lib", "media", "mnt", "opt", "root", "run", "sbin", "srv",
      "sys"].map ([·])
  workingDirectory := ["tmp", ""]

end Files

end XmlBinding.CommandLine
