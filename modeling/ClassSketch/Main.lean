import ClassSketch.CommandLine.Arguments

namespace ClassSketch

open Command Files

def osCode : IO.Error → Option (UInt32 × String)
  | .noFileOrDirectory _ code text => some (code, text)
  | .alreadyExists _ code text => some (code, text)
  | .inappropriateType _ code text => some (code, text)
  | .invalidArgument _ code text => some (code, text)
  | .permissionDenied _ code text => some (code, text)
  | .resourceExhausted _ code text => some (code, text)
  | .noSuchThing _ code text => some (code, text)
  | .interrupted _ code text => some (code, text)
  | .resourceBusy code text => some (code, text)
  | .unsupportedOperation code text => some (code, text)
  | .illegalOperation code text => some (code, text)
  | .unsatisfiedConstraints code text => some (code, text)
  | .otherError code text => some (code, text)
  | _ => none

def namedErrors : List OsError :=
  [.notFound, .alreadyExists, .noSuchDevice, .notDirectory, .isDirectory, .invalidArgument,
    .nameTooLong]

/-- An error of the system as one of the library. Some calls report its number with the sign
turned. -/
def osError (e : IO.Error) : OsError :=
  match osCode e with
  | none => .other 5 (toString e)
  | some (code, text) =>
    let code := if 0x80000000 ≤ code then (0 - code).toNat else code.toNat
    (namedErrors.find? (·.code = code)).getD (.other code text)

def attempt {α : Type} (action : IO α) : IO (Except OsError α) := do
  try return .ok (← action)
  catch e => return .error (osError e)

def readBytes (path : String) : IO (Except OsError (List UInt8)) :=
  attempt do return (← IO.FS.readBinFile path).data.toList

-- a file is read where it would be mapped, and refused where mapping it would be
instance : FileAccess IO where
  isDir path := (IO.FS.DirEntry.mk path ".").path.isDir
  readDir path := attempt do
    return (← (IO.FS.DirEntry.mk path ".").path.readDir).toList.map IO.FS.DirEntry.fileName
  openFile path := attempt do
    let _ ← IO.FS.Handle.mk path .read
  size path := attempt do
    return (← (IO.FS.DirEntry.mk path ".").path.metadata).byteSize.toNat
  readFile := readBytes
  mapFile path := do
    match ← readBytes path with
    | .ok [] => return .error .invalidArgument
    | .error .isDirectory => return .error .noSuchDevice
    | content => return content
  createDir path := attempt (IO.FS.createDir path)
  writeFile path text := attempt (IO.FS.writeFile path text)

end ClassSketch

open ClassSketch in
def main (args : List String) : IO UInt32 := do
  match ← (CommandLine.run args : IO (Except CommandLine.UsageError Command.Outcome)) with
  | .error e =>
    IO.eprintln s!"error: {e.message}"
    return 2
  | .ok outcome =>
    IO.print outcome.out
    IO.eprint outcome.err
    return outcome.status.toUInt32
