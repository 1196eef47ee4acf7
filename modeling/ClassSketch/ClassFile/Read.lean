import ClassSketch.ClassFile.ConstantPool
import ClassSketch.Descriptor.Parse

namespace ClassSketch.ClassFile

def magic : UInt32 := 0xCAFEBABE

def headerSize : Nat := 10

def readHeader : ReadM Version := do
  let found ← readU32
  if found ≠ magic then throw (.invalidMagic found)
  let minor ← readU16
  let major ← readU16
  return ⟨major, minor⟩

/-- The version alone. A file shorter than the header is refused for that, whatever it holds. -/
def peekVersion (data : List UInt8) : Except ReadError Version :=
  if data.length < headerSize then .error (.tooSmall data.length)
  else (·.1) <$> readHeader ⟨0, data⟩

def readMember (pool : ConstantPool) (owner : String)
    (check : String → Except Descriptor.Fault Unit) : ReadM MemberDecl := do
  let access ← readU16
  let name ← pool.text (← readU16)
  let descriptor ← pool.text (← readU16)
  match check descriptor with
  | .ok () => pure ()
  | .error fault => throw (.descriptor descriptor fault)
  skipAttributes
  return { owner, name, access, descriptor }

def checkField (descriptor : String) : Except Descriptor.Fault Unit := do
  let _ ← Descriptor.TypeDescriptor.parse descriptor

def checkMethod (descriptor : String) : Except Descriptor.Fault Unit := do
  let _ ← Descriptor.MethodDescriptor.parse descriptor

def logEnd (version : Version) (c : ClassDecl) : LogReadM Unit := do
  let rest := (← get).rest
  unless rest.isEmpty do
    log .warn (.trailing c.name rest.length)
  log .debug (.finished c.name version c.fields.length c.methods.length)

/-- A class, from its constants to the end of its file. Members are logged table by table, once a
table is complete. -/
def readBehind (version : Version) : LogReadM ClassDecl := do
  let pool ← ConstantPool.read
  let access ← readU16
  let name ← pool.className (← readU16)
  let superName ← pool.className? (← readU16)
  let interfaces ← table do pool.className (← readU16)
  let fields ← table (readMember pool name checkField)
  fields.forM fun f => log .trace (.field f)
  let methods ← table (readMember pool name checkMethod)
  methods.forM fun m => log .trace (.method m)
  skipAttributes
  let c : ClassDecl := { name, access, superName, interfaces, fields, methods }
  logEnd version c
  return c

def read (data : List UInt8) : Attempt Record ReadError ClassDecl := do
  let version ← Attempt.ofExcept (peekVersion data)
  (readBehind version).run' ⟨headerSize - 2, data.drop (headerSize - 2)⟩

end ClassSketch.ClassFile
