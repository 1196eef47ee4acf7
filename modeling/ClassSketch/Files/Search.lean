import ClassSketch.Files.Access

namespace ClassSketch.Files

/-- A file called just `.class` has no extension. -/
def hasClassExtension (name : String) : Bool :=
  ".class".toList.isSuffixOf name.toList && name ≠ ".class"

def byBytes (a b : String) : Bool := utf8Bytes a ≤ utf8Bytes b

/-- The files that a search has come to, and what it reports of directories that it could not
list. -/
structure Found where
  files : List String := []
  err : String := ""
deriving DecidableEq, Repr

def Found.all (found : List Found) : Found where
  files := found.flatMap Found.files
  err := String.join (found.map Found.err)

def search {m : Type → Type} [Monad m] [FileAccess m] (dir : String) : m Found := do
  match ← FileAccess.readDir dir with
  | .error e => return { err := s!"Error reading directory {dir}: {e.message}\n" }
  | .ok names =>
    let found ← (names.mergeSort byBytes).mapM fun name => do
      let path := join dir name
      let isDir ← FileAccess.isDir path
      -- the system finds no directory by a path that is too long, so the search ends
      if isDir ∧ dir.utf8ByteSize < path.utf8ByteSize ∧ path.utf8ByteSize < maxPath then
        search path
      else if hasClassExtension name then return { files := [path] }
      else return {}
    return .all found
termination_by maxPath - dir.utf8ByteSize
decreasing_by
  rename_i h
  exact Nat.sub_lt_sub_left (Nat.lt_trans h.2.1 h.2.2) h.2.1

end ClassSketch.Files
