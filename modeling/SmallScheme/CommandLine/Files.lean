import SmallScheme.Text.Quoted

/-!
# Program files

A path is named in messages by its normal form, without empty and single-point components
(`normalPath`).  What stands at a path is described by a `FileSystem`, and `Directory` is one
whose files are given by a table; around it there is only what every system has.  The text of a
file has its line ends unified (`unifyLineEnds`).
-/

namespace SmallScheme

namespace CommandLine

/-- Why a file cannot be read. -/
inductive FileFault where
  /-- There is no such file. -/
  | missing
  /-- A directory stands there. -/
  | isDirectory
  /-- The path leads through something that is no directory. -/
  | notDirectory
  /-- The path or one of its components is too long. -/
  | nameTooLong
  deriving DecidableEq, Repr

namespace FileFault

/-- The wording of a fault at a path. -/
def message (path : String) (fault : FileFault) : String :=
  let reason := match fault with
    | missing => "[Errno 2] No such file or directory: "
    | isDirectory => "[Errno 21] Is a directory: "
    | notDirectory => "[Errno 20] Not a directory: "
    | nameTooLong => "[Errno 36] File name too long: "
  reason ++ Text.quoted path

end FileFault

/-- The texts of files by their normal path. -/
abbrev FileSystem := String → Except FileFault String

/-- The parts of a text between slashes. -/
def splitSlashes : List Char → List (List Char)
  | [] => [[]]
  | '/' :: cs => [] :: splitSlashes cs
  | c :: cs =>
    match splitSlashes cs with
    | [] => [[c]]
    | part :: parts => (c :: part) :: parts

/-- The parts of a path that lead somewhere. -/
def components (cs : List Char) : List String :=
  ((splitSlashes cs).filter fun part => part ≠ [] ∧ part ≠ ['.']).map String.ofList

/-- The slashes that a normal path starts with: two if there are exactly two, one if there are
any others. -/
def leadingSlashes (cs : List Char) : String :=
  match (cs.takeWhile (· == '/')).length with
  | 0 => ""
  | 2 => "//"
  | _ => "/"

/-- The normal form of a path. -/
def normalPath (path : String) : String :=
  let text := leadingSlashes path.toList ++ "/".intercalate (components path.toList)
  if text.isEmpty then "." else text

/-- The text of a file with every line end as a line feed. -/
def unifyLineEnds : List Char → List Char
  | [] => []
  | '\r' :: '\n' :: cs => '\n' :: unifyLineEnds cs
  | '\r' :: cs => '\n' :: unifyLineEnds cs
  | c :: cs => c :: unifyLineEnds cs

/-- How many bytes a path may have. -/
def longestPath : Nat := 4095

/-- How many bytes a component of a path may have. -/
def longestComponent : Nat := 255

/-- What stands at a place. -/
inductive Entry where
  /-- A directory. -/
  | folder
  /-- A file with its text. -/
  | file (text : String)
  deriving DecidableEq, Repr

/-- The directories that every system has at its root. -/
def standardFolders : List String :=
  ["bin", "boot", "dev", "etc", "home", "lib", "media", "mnt", "opt", "proc", "root", "run", "sbin",
    "srv", "sys", "tmp", "usr", "var"]

/-- A working directory that is given by the texts of its files; the path of a file has normal
form.  It stands in a system of which nothing else is known but the standard directories and the
empty device. -/
structure Directory where
  /-- The files with their texts. -/
  files : List (String × String)
  deriving Repr

namespace Directory

/-- The components that lead from the root to the working directory.  Its own name is one that no
path can spell. -/
def home : List String := ["tmp", ""]

/-- All files by the components that lead to them from the root. -/
def places (d : Directory) : List (List String × String) :=
  (["dev", "null"], "") :: d.files.map fun (path, text) => (home ++ components path.toList, text)

/-- Whether a directory stands at a place. -/
def isFolder (d : Directory) (place : List String) : Bool :=
  place.isPrefixOf home || standardFolders.any (fun name => place == [name]) ||
    d.places.any fun (path, _) => place.length < path.length && place.isPrefixOf path

/-- What stands at a place that is given by the components that lead there from the root. -/
def entry? (d : Directory) (place : List String) : Option Entry :=
  match d.places.lookup place with
  | some text => some (.file text)
  | none => if d.isFolder place then some .folder else none

/-- Follows components from a place where a directory stands.  The root is its own parent. -/
def walk (d : Directory) (place : List String) : List String → Except FileFault String
  | [] => .error .isDirectory
  | ".." :: rest => d.walk place.dropLast rest
  | part :: rest =>
    if longestComponent < part.utf8ByteSize then .error .nameTooLong
    else
      match d.entry? (place ++ [part]) with
      | none => .error .missing
      | some .folder => d.walk (place ++ [part]) rest
      | some (.file text) => if rest.isEmpty then .ok text else .error .notDirectory

/-- The file system as it is seen from a directory. -/
def fileSystem (d : Directory) : FileSystem := fun path =>
  if longestPath < path.utf8ByteSize then .error .nameTooLong
  else d.walk (if path.startsWith "/" then [] else home) (components path.toList)

end Directory

end CommandLine

end SmallScheme
