import ClassSketch.Files.Search
import ClassSketch.Input.Basic
import ClassSketch.Print.Class

namespace ClassSketch.Command

open Files

structure Outcome where
  status : Nat := 0
  out : String := ""
  err : String := ""
deriving DecidableEq, Repr

def Outcome.failure (err : String) : Outcome := { status := 1, err }

def isEmptySegment (s : List Char) : Bool := s = [] || s = ['.'] || s = ['.', '.']

def isReserved (c : Char) : Bool :=
  c ∈ ['\\', ':', '*', '?', '\x22', '<', '>', '|', '\x00']

def cleanChar (c : Char) : Char := if isReserved c then '_' else c

/-- The parts of a class name from which the path is made. There is always one. -/
def pathSegments (name : String) : List (List Char) :=
  let named := (Text.segments '/' name.toList).filter fun s => !isEmptySegment s
  let kept := named.map (·.map cleanChar)
  if kept.isEmpty then [['_']] else kept

/-- The path of a class: directories for the packages, then a file. It never leaves the directory
that it is taken from. -/
def outputPath (name : String) : String :=
  String.ofList (['/'].intercalate (pathSegments name) ++ ".java".toList)

def outputDirs (name : String) : List String := (pathSegments name).dropLast.map String.ofList

structure Report where
  out : String := ""
  err : String := ""
  failed : Bool := false
deriving DecidableEq, Repr

def Report.failure (err : String) : Report := { err, failed := true }

variable {m : Type → Type} [Monad m] [FileAccess m]

def inputFiles (input : String) : m Found := do
  if ← FileAccess.isDir input then search input else return { files := [input] }

def writeClass (dir className text : String) : m Report := do
  let parent := joinAll dir (outputDirs className)
  let target := join dir (outputPath className)
  match ← createDirs parent with
  | .error e => return .failure s!"Error creating {parent}: {e.message}\n"
  | .ok () =>
    match ← FileAccess.writeFile target text with
    | .error e => return .failure s!"Error writing {target}: {e.message}\n"
    | .ok () => return {}

def framed (single : Bool) (path text : String) : String :=
  if single then text
  else
    "// ============================================\n" ++ "// " ++ path ++ "\n" ++ text ++ "\n"

def printFile (single : Bool) (output : Option String) (path : String) : m Report := do
  match (← (Input.file path).readClass).value with
  | .error e => return .failure s!"// Error reading {path}: {e.message}\n"
  | .ok c =>
    match (Print.classText c).run.value with
    | .error e => return .failure s!"// Error printing {path}: {e.message}\n"
    | .ok text =>
      match output with
      | none => return { out := framed single path text }
      | some dir => writeClass dir c.name text

/-- The reports on several files as one outcome. Only a failure of a single file is a failure of
the command. -/
def summarize (single : Bool) (reports : List Report) : Outcome where
  status := if single && reports.any Report.failed then 1 else 0
  out := String.join (reports.map Report.out)
  err := String.join (reports.map Report.err)

def printEach (output : Option String) (files : List String) : m Outcome := do
  let single := files.length = 1
  return summarize single (← files.mapM (printFile single output))

def printFiles (output : Option String) (files : List String) : m Outcome := do
  if files.isEmpty then return .failure "Error: no .class files found\n"
  match output with
  | none => printEach none files
  | some dir =>
    match ← createDirs dir with
    | .error e => return .failure s!"Error creating output directory: {e.message}\n"
    | .ok () => printEach output files

/-- What the search for the files has reported comes first. -/
def print (inputs : List String) (output : Option String) : m Outcome := do
  let found := Found.all (← inputs.mapM inputFiles)
  let outcome ← printFiles output found.files
  return { outcome with err := found.err ++ outcome.err }

end ClassSketch.Command
