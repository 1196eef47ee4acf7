import ClassSketch.ClassDecl
import ClassSketch.ClassFile.Cursor
import ClassSketch.Log

namespace ClassSketch.ClassFile

structure Version where
  major : UInt16
  minor : UInt16
deriving DecidableEq, Repr

instance : ToString Version where
  toString v := s!"{v.major}.{v.minor}"

inductive Event where
  | unknownTag (tag : UInt8) (offset : Nat)
  | field (f : MemberDecl)
  | method (m : MemberDecl)
  | trailing (className : String) (bytes : Nat)
  | finished (className : String) (version : Version) (fields methods : Nat)
deriving DecidableEq, Repr

def Event.message : Event → String
  | unknownTag tag offset => s!"Unknown constant pool tag {tag} at offset 0x{Text.hex offset}"
  | field f => s!"{f.owner}: field {f.name} {f.descriptor}"
  | method m => s!"{m.owner}: method {m.name}{m.descriptor}"
  | trailing className bytes => s!"{className}: {bytes} trailing bytes after class file"
  | finished className version fields methods =>
    s!"Read class {className} (version {version}, {fields} fields, {methods} methods)"

abbrev Record := LogRecord Event

abbrev LogReadM := StateT Cursor (ExceptT ReadError (Logged Record))

instance : MonadLift ReadM LogReadM where
  monadLift step := fun c => Attempt.ofExcept (step c)

def log (level : Level) (event : Event) : LogReadM Unit :=
  StateT.lift (Attempt.emit ⟨level, event⟩)

end ClassSketch.ClassFile
