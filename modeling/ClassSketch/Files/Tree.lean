import ClassSketch.Files.OsError

namespace ClassSketch.Files

def utf8Bytes (s : String) : List UInt8 := s.toUTF8.data.toList

/-- What the system refuses to do in a directory: to list it, or to look up a name in it. -/
structure Rights where
  listing : Option OsError := none
  entering : Option OsError := none
deriving DecidableEq, Repr

/-- Files stand in the tree by their numbers: all names with one number are names of one file. The
entries of a directory stand in the order in which the system lists them. -/
inductive Node where
  | file (number : Nat)
  | dir (rights : Rights) (size : Nat) (entries : List (String × Node))
deriving Repr, Inhabited

structure File where
  content : List UInt8 := []
  opening : Option OsError := none
deriving DecidableEq, Repr

structure FileSystem where
  root : Node
  file : Nat → File

def setEntry (name : String) (new : Node) : List (String × Node) → List (String × Node)
  | [] => [(name, new)]
  | (other, old) :: rest =>
    if other = name then (name, new) :: rest else (other, old) :: setEntry name new rest

namespace Node

def folder (entries : List (String × Node)) : Node := .dir {} 4096 entries

def get? : Node → List String → Option Node
  | n, [] => some n
  | .file _, _ :: _ => none
  | .dir _ _ entries, name :: rest =>
    match entries.lookup name with
    | some n => n.get? rest
    | none => none

/-- Puts `new` at a place. Directories on the way there are made if they are missing, and nothing
changes if there is a file on the way. -/
def set (root : Node) (place : List String) (new : Node) : Node :=
  match place, root with
  | [], _ => new
  | _ :: _, .file number => .file number
  | name :: rest, .dir rights size entries =>
    let old := (entries.lookup name).getD (.folder [])
    .dir rights size (setEntry name (old.set rest new) entries)

mutual

def bound : Node → Nat
  | .file number => number + 1
  | .dir _ _ entries => boundEntries entries

def boundEntries : List (String × Node) → Nat
  | [] => 0
  | (_, n) :: rest => max (bound n) (boundEntries rest)

end

end Node

namespace FileSystem

def setContent (fs : FileSystem) (number : Nat) (content : List UInt8) : FileSystem :=
  { fs with file := fun n => if n = number then { fs.file n with content } else fs.file n }

def addFile (fs : FileSystem) (place : List String) (content : List UInt8) : FileSystem :=
  let number := fs.root.bound
  { root := fs.root.set place (.file number)
    file := fun n => if n = number then { content } else fs.file n }

end FileSystem

end ClassSketch.Files
