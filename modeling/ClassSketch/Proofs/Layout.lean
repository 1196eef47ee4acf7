import ClassSketch.ClassFile.Read
import ClassSketch.Proofs.CodeUnits
import ClassSketch.Proofs.DescriptorGrammar
import ClassSketch.Proofs.Recognition

namespace ClassSketch.ClassFile

structure Table (δ : Type) where
  entries : List δ
  short : entries.length < 2 ^ 16

def Table.empty {δ : Type} : Table δ := ⟨[], Nat.two_pow_pos 16⟩

def Table.encode {δ : Type} (entry : δ → List UInt8) (t : Table δ) : List UInt8 :=
  digits 2 t.entries.length ++ t.entries.flatMap entry

namespace Layout

inductive OtherTag where
  | integer | float | long | double | string | fieldRef | methodRef | interfaceMethodRef
  | nameAndType | methodHandle | methodType | dynamic | invokeDynamic | moduleName | packageName
deriving DecidableEq, Repr

namespace OtherTag

def all : List OtherTag :=
  [integer, float, long, double, string, fieldRef, methodRef, interfaceMethodRef, nameAndType,
    methodHandle, methodType, dynamic, invokeDynamic, moduleName, packageName]

def code : OtherTag → UInt8
  | integer => 3
  | float => 4
  | long => 5
  | double => 6
  | string => 8
  | fieldRef => 9
  | methodRef => 10
  | interfaceMethodRef => 11
  | nameAndType => 12
  | methodHandle => 15
  | methodType => 16
  | dynamic => 17
  | invokeDynamic => 18
  | moduleName => 19
  | packageName => 20

def size : OtherTag → Nat
  | integer | float => 4
  | long | double => 8
  | string | methodType | moduleName | packageName => 2
  | fieldRef | methodRef | interfaceMethodRef | nameAndType | dynamic | invokeDynamic => 4
  | methodHandle => 3

def width : OtherTag → Nat
  | long | double => 2
  | _ => 1

end OtherTag

inductive Entry where
  | utf8 (bytes : List UInt8) (text : String) (short : bytes.length < 2 ^ 16)
    (decoded : ModifiedUtf8.decode 0 bytes = .ok text)
  | classRef (nameIndex : UInt16)
  | other (tag : OtherTag) (content : List UInt8) (sized : content.length = tag.size)

namespace Entry

def tag : Entry → UInt8
  | utf8 .. => 1
  | classRef _ => 7
  | other tag .. => tag.code

def content : Entry → List UInt8
  | utf8 bytes .. => digits 2 bytes.length ++ bytes
  | classRef nameIndex => u16 nameIndex
  | other _ content _ => content

def encode (e : Entry) : List UInt8 := e.tag :: e.content

def width : Entry → Nat
  | other tag .. => tag.width
  | _ => 1

def totalWidth (es : List Entry) : Nat := (es.map width).sum

end Entry

/-- `e` stands at the index `i`, which is one more than what the constants before it take up. -/
def EntryAt (es : List Entry) (i : UInt16) (e : Entry) : Prop :=
  ∃ before after, es = before ++ e :: after ∧ i.toNat = 1 + Entry.totalWidth before

def IsText (es : List Entry) (i : UInt16) (text : String) : Prop :=
  ∃ bytes short decoded, EntryAt es i (.utf8 bytes text short decoded)

def IsClassName (es : List Entry) (i : UInt16) (name : String) : Prop :=
  ∃ nameIndex, EntryAt es i (.classRef nameIndex) ∧ IsText es nameIndex name

/-- The count word is one more than all the widths. The second index of a last constant of width
two may be left out. -/
def Counted (es : List Entry) (count : Nat) : Prop :=
  count = 1 + Entry.totalWidth es ∨
    (∃ e ∈ es.getLast?, e.width = 2) ∧ count = Entry.totalWidth es

structure Attribute where
  nameIndex : UInt16
  content : List UInt8
  short : content.length < 2 ^ 32

def Attribute.encode (a : Attribute) : List UInt8 :=
  u16 a.nameIndex ++ (digits 4 a.content.length ++ a.content)

structure Member where
  access : UInt16
  nameIndex : UInt16
  descriptorIndex : UInt16
  attributes : Table Attribute

def Member.encode (m : Member) : List UInt8 :=
  u16 m.access ++ (u16 m.nameIndex ++ (u16 m.descriptorIndex ++
    m.attributes.encode Attribute.encode))

/-- The member that a part of the file describes, when `text` tells the texts of indices and the
descriptor must be one of `descriptors`. -/
structure Member.Describes (text : UInt16 → String → Prop) (owner : String)
    (descriptors : String → Prop) (l : Member) (m : MemberDecl) : Prop where
  owner : m.owner = owner
  access : m.access = l.access
  name : text l.nameIndex m.name
  descriptor : text l.descriptorIndex m.descriptor
  valid : descriptors m.descriptor

def IsFieldDescriptor (s : String) : Prop :=
  ∃ t : Descriptor.TypeDescriptor, t.WellFormed ∧ s = toString t

def IsMethodDescriptor (s : String) : Prop :=
  ∃ m : Descriptor.MethodDescriptor, m.WellFormed ∧ s = toString m

structure Parts where
  access : UInt16
  thisClass : UInt16
  superClass : UInt16
  interfaces : Table UInt16
  fields : Table Member
  methods : Table Member
  attributes : Table Attribute

namespace Parts

def encode (p : Parts) : List UInt8 :=
  u16 p.access ++ (u16 p.thisClass ++ (u16 p.superClass ++ (p.interfaces.encode u16 ++
    (p.fields.encode Member.encode ++ (p.methods.encode Member.encode ++
      p.attributes.encode Attribute.encode)))))

def upToFields (p : Parts) : List UInt8 :=
  u16 p.access ++ (u16 p.thisClass ++ (u16 p.superClass ++ (p.interfaces.encode u16 ++
    p.fields.encode Member.encode)))

def upToMethods (p : Parts) : List UInt8 := p.upToFields ++ p.methods.encode Member.encode

theorem encode_eq (p : Parts) :
    p.encode = p.upToMethods ++ p.attributes.encode Attribute.encode := by
  simp only [encode, upToMethods, upToFields, List.append_assoc]

/-- The class that the parts describe, when `text` and `className` tell the texts and the class
names of indices. -/
structure Describe (text className : UInt16 → String → Prop) (p : Parts) (c : ClassDecl) :
    Prop where
  access : c.access = p.access
  name : className p.thisClass c.name
  superName : if p.superClass = 0 then c.superName = none
    else ∃ name, className p.superClass name ∧ c.superName = some name
  interfaces : List.Forall₂ className p.interfaces.entries c.interfaces
  fields : List.Forall₂ (Member.Describes text c.name IsFieldDescriptor) p.fields.entries c.fields
  methods : List.Forall₂ (Member.Describes text c.name IsMethodDescriptor)
    p.methods.entries c.methods

end Parts

end Layout

open Layout in
structure Layout extends Parts where
  minor : UInt16
  major : UInt16
  count : UInt16
  constants : List Entry
  counted : Counted constants count.toNat

namespace Layout

def header (minor major : UInt16) : List UInt8 := digits 4 0xCAFEBABE ++ (u16 minor ++ u16 major)

def encode (l : Layout) : List UInt8 :=
  header l.minor l.major ++
    (u16 l.count ++ (l.constants.flatMap Entry.encode ++ l.toParts.encode))

def upTo (front : Parts → List UInt8) (l : Layout) : List UInt8 :=
  header l.minor l.major ++ (u16 l.count ++ (l.constants.flatMap Entry.encode ++ front l.toParts))

theorem encode_eq_upTo (l : Layout) : l.encode = l.upTo Parts.encode := rfl

def Describes (l : Layout) (c : ClassDecl) : Prop :=
  l.toParts.Describe (IsText l.constants) (IsClassName l.constants) c

end Layout

end ClassSketch.ClassFile
