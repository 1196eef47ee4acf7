import ClassSketch.Descriptor.Parse
import ClassSketch.Files.OsError

namespace ClassSketch.ClassFile

inductive ConstantKind where
  | utf8 | classRef | number | wideNumber | index | reference | methodHandle
deriving DecidableEq, Repr

def ConstantKind.label : ConstantKind → String
  | utf8 => "Utf8"
  | classRef => "Class"
  | number => "Integer/Float"
  | wideNumber => "Long/Double"
  | index => "index"
  | reference => "reference"
  | methodHandle => "MethodHandle"

/-- Offsets count bytes from the start of the file. -/
inductive ReadError where
  | tooSmall (size : Nat)
  | invalidMagic (found : UInt32)
  | truncated (offset missing : Nat)
  | badConstantIndex (index : UInt16)
  | badConstantTag (tag : UInt8) (offset : Nat)
  | constantKind (index : UInt16) (found wanted : ConstantKind)
  | invalidText (offset : Nat)
  | rangeOutOfBounds (start stop size : Nat)
  | descriptor (text : String) (fault : Descriptor.Fault)
  | os (error : Files.OsError)
deriving DecidableEq, Repr

open Text in
def ReadError.message : ReadError → String
  | tooSmall size => s!"Class file too small: {size} bytes"
  | invalidMagic found =>
    s!"Invalid magic: expected 0xCAFEBABE, found 0x{hexPadded 8 found.toNat}"
  | truncated offset missing =>
    s!"Unexpected end of data at offset 0x{hex offset} (need {missing} more bytes)"
  | badConstantIndex index => s!"Constant pool index {index} is out of range or unusable"
  | badConstantTag tag offset => s!"Unknown constant pool tag {tag} at offset 0x{hex offset}"
  | constantKind index found wanted =>
    s!"Constant pool entry {index} is a {found.label}, expected {wanted.label}"
  | invalidText offset => s!"Invalid MUTF-8 encoding at offset 0x{hex offset}"
  | rangeOutOfBounds start stop size =>
    s!"Range {start}..{stop} out of bounds (source size: {size})"
  | descriptor text fault => s!"Invalid descriptor: {fault.message text}"
  | os error => s!"I/O error: {error.message}"

end ClassSketch.ClassFile
