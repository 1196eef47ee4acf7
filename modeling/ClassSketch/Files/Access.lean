import ClassSketch.Files.Path

namespace ClassSketch.Files

class FileAccess (m : Type → Type) where
  isDir (path : String) : m Bool
  readDir (path : String) : m (Except OsError (List String))
  openFile (path : String) : m (Except OsError Unit)
  size (path : String) : m (Except OsError Nat)
  readFile (path : String) : m (Except OsError (List UInt8))
  mapFile (path : String) : m (Except OsError (List UInt8))
  createDir (path : String) : m (Except OsError Unit)
  writeFile (path text : String) : m (Except OsError Unit)

section

variable {m : Type → Type} [Monad m] [FileAccess m]

/-- The result of making a directory, where one that is there already will do. -/
def orPresent (path : String) (result : Except OsError Unit) : m (Except OsError Unit) := do
  match result with
  | .ok () => return .ok ()
  | .error e => if ← FileAccess.isDir path then return .ok () else return .error e

/-- Makes a directory, and before it those above it that are missing. `above` holds the names that
lead to the one above, the last one first, and `start` is what the path has in front of them. -/
def createDirsFrom (start path : String) : List String → m (Except OsError Unit)
  | [] => do orPresent path (← FileAccess.createDir path)
  | name :: rest => do
    match ← FileAccess.createDir path with
    | .error .notFound =>
      let parent := start ++ "/".intercalate (name :: rest).reverse
      match ← createDirsFrom start parent rest with
      | .error e => return .error e
      | .ok () => orPresent path (← FileAccess.createDir path)
    | result => orPresent path result

def createDirs (path : String) : m (Except OsError Unit) :=
  if path.isEmpty then return .ok ()
  else
    let names := (segments path).filter fun name => name ≠ "" ∧ name ≠ "."
    let start := if path.toList.head? = some '/' then "/" else ""
    createDirsFrom start path names.reverse.tail

end

abbrev FileM := StateM FileSystem

def FileSystem.orUnchanged (fs : FileSystem) :
    Except OsError FileSystem → Except OsError Unit × FileSystem
  | .ok new => (.ok (), new)
  | .error e => (.error e, fs)

instance : FileAccess FileM where
  isDir path := return (← get).isDir path
  readDir path := return (← get).readDir path
  openFile path := return (← get).openFile path
  size path := return (← get).size path
  readFile path := return (← get).readFile path
  mapFile path := return (← get).mapFile path
  createDir path := modifyGet fun fs => fs.orUnchanged (fs.createDir path)
  writeFile path text := modifyGet fun fs => fs.orUnchanged (fs.writeFile path (utf8Bytes text))

end ClassSketch.Files
