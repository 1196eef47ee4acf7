import ClassSketch.Files.Tree
import ClassSketch.Text.Segment

namespace ClassSketch.Files

/-- The names in a path, together with the empty text between and behind slashes. -/
def segments (path : String) : List String :=
  (Text.segments '/' path.toList).map String.ofList

def join (path name : String) : String :=
  if path.toList.getLast? = some '/' then path ++ name else path ++ "/" ++ name

def joinAll (path : String) (place : List String) : String :=
  if place.isEmpty then path else join path ("/".intercalate place)

def maxName : Nat := 255

def maxPath : Nat := 4096

namespace Node

/-- Follows `names` from the place `here`. The root is its own parent. -/
def walk (root : Node) (here : List String) : List String → Except OsError (List String)
  | [] => .ok here
  | name :: rest =>
    match root.get? here with
    | none => .error .notFound
    | some (.file _) => .error .notDirectory
    | some (.dir rights _ entries) =>
      if name = "" then walk root here rest
      else match rights.entering with
        | some e => .error e
        | none =>
          if name = "." then walk root here rest
          else if name = ".." then walk root here.dropLast rest
          else if maxName < name.utf8ByteSize then .error .nameTooLong
          else if (entries.lookup name).isSome then walk root (here ++ [name]) rest
          else .error .notFound

def locate (root : Node) (path : String) : Except OsError (List String) :=
  if path.isEmpty then .error .notFound
  else if maxPath ≤ path.utf8ByteSize then .error .nameTooLong
  else root.walk [] (segments path)

def at? (root : Node) (path : String) : Except OsError Node := do
  match root.get? (← root.locate path) with
  | some n => return n
  | none => throw .notFound

/-- The place for something new called `name` in the directory that `parents` leads to, and what is
there now. -/
def newPlace (root : Node) (parents : List String) (name : String) :
    Except OsError (List String × Option Node) := do
  let here ← root.walk [] parents
  match root.get? here with
  | some (.dir rights _ entries) =>
    if let some e := rights.entering then throw e
    if maxName < name.utf8ByteSize then throw .nameTooLong
    return (here ++ [name], entries.lookup name)
  | some (.file _) => throw .notDirectory
  | none => throw .notFound

end Node

/-- The names without those at the end that are empty, as a slash at the end of a path leaves
them. -/
def dropSlashes (names : List String) : List String :=
  (names.reverse.dropWhile (· = "")).reverse

namespace FileSystem

def isDir (fs : FileSystem) (path : String) : Bool :=
  match fs.root.at? path with
  | .ok (.dir ..) => true
  | _ => false

def readDir (fs : FileSystem) (path : String) : Except OsError (List String) := do
  match ← fs.root.at? path with
  | .file _ => throw .notDirectory
  | .dir rights _ entries =>
    if let some e := rights.listing then throw e
    return entries.map Prod.fst

def size (fs : FileSystem) (path : String) : Except OsError Nat := do
  match ← fs.root.at? path with
  | .file number => return (fs.file number).content.length
  | .dir _ size _ => return size

def refusal (fs : FileSystem) : Node → Option OsError
  | .file number => (fs.file number).opening
  | .dir rights _ _ => rights.listing

def opened (fs : FileSystem) (path : String) : Except OsError Node := do
  let n ← fs.root.at? path
  if let some e := fs.refusal n then throw e
  return n

def openFile (fs : FileSystem) (path : String) : Except OsError Unit := do
  let _ ← fs.opened path

def readFile (fs : FileSystem) (path : String) : Except OsError (List UInt8) := do
  match ← fs.opened path with
  | .file number => return (fs.file number).content
  | .dir .. => throw .isDirectory

def mapFile (fs : FileSystem) (path : String) : Except OsError (List UInt8) := do
  match ← fs.opened path with
  | .file number =>
    let content := (fs.file number).content
    if content.isEmpty then throw .invalidArgument
    return content
  | .dir .. => throw .noSuchDevice

def createDir (fs : FileSystem) (path : String) : Except OsError FileSystem := do
  if path.isEmpty then throw .notFound
  if maxPath ≤ path.utf8ByteSize then throw .nameTooLong
  let names := dropSlashes (segments path)
  match names.getLast? with
  | none => throw .alreadyExists
  | some name =>
    if name = "." ∨ name = ".." then
      let _ ← fs.root.walk [] names
      throw .alreadyExists
    else
      match ← fs.root.newPlace names.dropLast name with
      | (_, some _) => throw .alreadyExists
      | (place, none) => return { fs with root := fs.root.set place (.folder []) }

def writeFile (fs : FileSystem) (path : String) (content : List UInt8) :
    Except OsError FileSystem := do
  if path.isEmpty then throw .notFound
  if maxPath ≤ path.utf8ByteSize then throw .nameTooLong
  let names := segments path
  let name := names.getLast?.getD ""
  if name = "" ∨ name = "." ∨ name = ".." then throw .isDirectory
  match ← fs.root.newPlace names.dropLast name with
  | (_, some (.dir ..)) => throw .isDirectory
  | (_, some (.file number)) => return fs.setContent number content
  | (place, none) => return fs.addFile place content

end FileSystem

end ClassSketch.Files
