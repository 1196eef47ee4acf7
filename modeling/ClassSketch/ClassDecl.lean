namespace ClassSketch

/-- A field or a method. Its descriptor is kept as text and need not be valid. -/
structure MemberDecl where
  owner : String
  name : String
  access : UInt16
  descriptor : String
deriving DecidableEq, Repr

/-- A class, with all class names in their internal form, such as `java/lang/Object`. Only the root
of the class hierarchy has no super class. -/
structure ClassDecl where
  name : String
  access : UInt16
  superName : Option String
  interfaces : List String := []
  fields : List MemberDecl := []
  methods : List MemberDecl := []
deriving DecidableEq, Repr

namespace ClassDecl

def field? (c : ClassDecl) (name : String) : Option MemberDecl :=
  c.fields.find? fun f => f.name = name

def method? (c : ClassDecl) (name descriptor : String) : Option MemberDecl :=
  c.methods.find? fun m => m.name = name ∧ m.descriptor = descriptor

end ClassDecl

end ClassSketch
