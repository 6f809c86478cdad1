import ChipEight.Word

/-!
Paths, and what lies at them. A path is a list of components; empty components and single dots say
nothing and are dropped. Looking a path up walks its components one by one from the working
directory, so `..` leads to the parent of a directory that has to exist; putting something at a path
makes the directories on its way.
-/

namespace ChipEight

structure Path where
  /-- What the path starts with: nothing if it is relative, else a slash, or exactly two, which are
  not taken for one. -/
  root : String
  parts : List String
deriving DecidableEq

namespace Path

/-- The root that a number of slashes in front of a path stands for. -/
def rootOf : (slashes : Nat) → String
  | 0 => ""
  | 2 => "//"
  | _ => "/"

def ofString (s : String) : Path where
  root := rootOf (s.toList.takeWhile (· = '/')).length
  parts := (s.splitOn "/").filter fun part => part ≠ "" ∧ part ≠ "."

def isAbsolute (p : Path) : Bool := p.root ≠ ""

/-- The shortest way to write the path. -/
def text (p : Path) : String :=
  if !p.isAbsolute && p.parts.isEmpty then "." else p.root ++ "/".intercalate p.parts

def name (p : Path) : String := p.parts.getLastD ""

/-- A name without its suffix. The suffix starts at the last dot, unless that is the first or the
last character of the name. -/
def stemOf (name : List Char) : List Char :=
  let suffix := (name.reverse.takeWhile (· ≠ '.')).length
  let stem := name.length - suffix - 1
  if suffix = name.length ∨ suffix = 0 ∨ stem = 0 then name else name.take stem

def stem (p : Path) : String := String.ofList (stemOf p.name.toList)

end Path

inductive Entry
  | missing
  | directory
  | file (data : List Byte)
  /-- Something that is no directory and cannot be read. -/
  | unreadable
  /-- The path is longer than a file system allows. -/
  | nameTooLong
  /-- A directory on the way must not be searched. -/
  | forbidden
deriving DecidableEq

/-- The files and directories below a working directory, each with its components. -/
structure FileTree where
  /-- The files, the newest first. -/
  files : List (List String × List Byte) := []
  directories : List (List String) := []

namespace FileTree

/-- A place where a path leads: a directory of the tree by its components, the last one first, or
`none` outside the tree, where nothing is known but the way further up. -/
abbrev Place := Option (List String)

def origin (p : Path) : Place := if p.isAbsolute then none else some []

/-- The way up. The parent of the working directory is outside the tree. -/
def parent : Place → Place
  | some (_ :: up) => some up
  | _ => none

/-- Makes the directories that components lead through, and tells where they lead. -/
def makeWay (t : FileTree) (here : Place) : List String → FileTree × Place
  | [] => (t, here)
  | part :: rest =>
    if part = ".." then t.makeWay (parent here) rest
    else
      match here with
      | none => t.makeWay none rest
      | some dir =>
        let dir := part :: dir
        makeWay { t with directories := dir.reverse :: t.directories } (some dir) rest

def addDirectory (t : FileTree) (s : String) : FileTree :=
  let p := Path.ofString s
  (t.makeWay (origin p) p.parts).1

/-- Puts a file into the tree; one that was there is replaced. -/
def addFile (t : FileTree) (s : String) (data : List Byte) : FileTree :=
  let p := Path.ofString s
  match t.makeWay (origin p) p.parts.dropLast with
  | (t, none) => t
  | (t, some dir) => { t with files := ((p.name :: dir).reverse, data) :: t.files }

/-- The longest component, in bytes. -/
def maxComponent : Nat := 255

/-- A path is shorter than this, in bytes. -/
def maxPath : Nat := 4096

def isDirectory (t : FileTree) (parts : List String) : Bool :=
  parts.isEmpty || t.directories.contains parts

def content? (t : FileTree) (parts : List String) : Option (List Byte) :=
  (t.files.find? fun (file, _) => file = parts).map (·.2)

def walk (t : FileTree) (here : Place) : List String → Entry
  | [] => .directory
  | part :: rest =>
    if part = ".." then t.walk (parent here) rest
    else if part.utf8ByteSize > maxComponent then .nameTooLong
    else
      match here with
      | none => .missing
      | some dir =>
        let dir := part :: dir
        if t.isDirectory dir.reverse then t.walk (some dir) rest
        else
          match t.content? dir.reverse, rest with
          | some data, [] => .file data
          | _, _ => .missing

/-- What lies at a path. Nothing lies at a path with a NUL in it. An absolute path leads out of the
tree: a root is a directory and its own parent, and nothing is known to lie in it. -/
def lookup (t : FileTree) (s : String) : Entry :=
  let p := Path.ofString s
  if '\x00' ∈ s.toList then .missing
  else if p.text.utf8ByteSize ≥ maxPath then .nameTooLong
  else t.walk (origin p) p.parts

end FileTree

end ChipEight
