namespace ClassSketch.Access

structure Target where
  onClass : Bool := false
  onMethod : Bool := false
  onField : Bool := false
deriving DecidableEq, Repr

namespace Target

def forClass : Target := { onClass := true }

def forMethod : Target := { onMethod := true }

def forField : Target := { onField := true }

def all : Target := ⟨true, true, true⟩

def meets (s t : Target) : Bool :=
  s.onClass && t.onClass || s.onMethod && t.onMethod || s.onField && t.onField

end Target

/-- The flags that have a keyword in source text, in the order in which they are written. -/
inductive Flag where
  | accPublic | accProtected | accPrivate | accStatic | accAbstract | accFinal | accTransient
  | accVolatile | accSynchronized | accNative | accStrict | accInterface | accAnnotationType
  | accEnum
deriving DecidableEq, Repr, Inhabited

namespace Flag

def all : List Flag :=
  [accPublic, accProtected, accPrivate, accStatic, accAbstract, accFinal, accTransient,
   accVolatile, accSynchronized, accNative, accStrict, accInterface, accAnnotationType, accEnum]

def bit : Flag → UInt16
  | accPublic => 0x0001
  | accProtected => 0x0004
  | accPrivate => 0x0002
  | accStatic => 0x0008
  | accAbstract => 0x0400
  | accFinal => 0x0010
  | accTransient => 0x0080
  | accVolatile => 0x0040
  | accSynchronized => 0x0020
  | accNative => 0x0100
  | accStrict => 0x0800
  | accInterface => 0x0200
  | accAnnotationType => 0x2000
  | accEnum => 0x4000

def targets : Flag → Target
  | accPublic | accProtected | accPrivate | accStatic | accFinal => .all
  | accAbstract => ⟨true, true, false⟩
  | accTransient | accVolatile => .forField
  | accSynchronized | accNative | accStrict => .forMethod
  | accInterface | accAnnotationType | accEnum => .forClass

def keyword : Flag → String
  | accPublic => "public"
  | accProtected => "protected"
  | accPrivate => "private"
  | accStatic => "static"
  | accAbstract => "abstract"
  | accFinal => "final"
  | accTransient => "transient"
  | accVolatile => "volatile"
  | accSynchronized => "synchronized"
  | accNative => "native"
  | accStrict => "strictfp"
  | accInterface => "interface"
  | accAnnotationType => "@interface"
  | accEnum => "enum"

def appliesTo (f : Flag) (t : Target) : Bool := f.targets.meets t

end Flag

def hasBit (access mask : UInt16) : Bool := access &&& mask != 0

def applicable (t : Target) (access : UInt16) : List Flag :=
  Flag.all.filter fun f => f.appliesTo t && hasBit access f.bit

/-- The members of `flags` that apply to `t`, each once, in the order of writing. -/
def sort (t : Target) (flags : List Flag) : List Flag :=
  Flag.all.filter fun f => f.appliesTo t && flags.contains f

def render (flags : List Flag) : String := " ".intercalate (flags.map Flag.keyword)

def renderSorted (t : Target) (flags : List Flag) : String := render (sort t flags)

end ClassSketch.Access
