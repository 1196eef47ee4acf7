import ClassSketch.Access.Flag

namespace ClassSketch.Access

def isStatic (access : UInt16) : Bool := hasBit access 0x0008

def isFinal (access : UInt16) : Bool := hasBit access 0x0010

def isVarargs (access : UInt16) : Bool := hasBit access 0x0080

def isNative (access : UInt16) : Bool := hasBit access 0x0100

def isInterface (access : UInt16) : Bool := hasBit access 0x0200

def isAbstract (access : UInt16) : Bool := hasBit access 0x0400

def isSynthetic (access : UInt16) : Bool := hasBit access 0x1000

def isAnnotationType (access : UInt16) : Bool := hasBit access 0x2000

def isEnum (access : UInt16) : Bool := hasBit access 0x4000

inductive ClassForm where
  | ordinary | interface | annotationType | enum
deriving DecidableEq, Repr, Inhabited

namespace ClassForm

def all : List ClassForm := [ordinary, interface, annotationType, enum]

/-- An annotation type is also an interface, so its bit is looked at first. -/
def ofAccess (access : UInt16) : ClassForm :=
  if isAnnotationType access then annotationType
  else if isInterface access then interface
  else if isEnum access then enum
  else ordinary

def keyword : ClassForm → String
  | ordinary => "class"
  | interface => "interface"
  | annotationType => "@interface"
  | enum => "enum"

def impliedFlags : ClassForm → List Flag
  | ordinary => []
  | interface => [.accInterface, .accAbstract]
  | annotationType => [.accAnnotationType, .accInterface, .accAbstract]
  | enum => [.accEnum, .accFinal]

def declaredFlags (form : ClassForm) (access : UInt16) : List Flag :=
  (applicable .forClass access).filter fun f => !form.impliedFlags.contains f

/-- The super class to be written. An enum keeps one that is not the usual. -/
def shownSuper (form : ClassForm) (superName : Option String) : Option String :=
  match form with
  | ordinary => superName
  | enum => superName.filter (· ≠ "java/lang/Enum")
  | interface | annotationType => none

def interfacesKeyword : ClassForm → String
  | ordinary | enum => "implements"
  | interface | annotationType => "extends"

def showsInterface (form : ClassForm) (name : String) : Bool :=
  !(form = annotationType && name = "java/lang/annotation/Annotation")

end ClassForm

end ClassSketch.Access
