namespace ClassSketch.Descriptor

inductive Primitive where
  | void | boolean | byte | char | short | int | long | float | double
deriving DecidableEq, Repr, Inhabited

namespace Primitive

def all : List Primitive := [void, boolean, byte, char, short, int, long, float, double]

def tag : Primitive → Char
  | void => 'V'
  | boolean => 'Z'
  | byte => 'B'
  | char => 'C'
  | short => 'S'
  | int => 'I'
  | long => 'J'
  | float => 'F'
  | double => 'D'

def ofTag? (c : Char) : Option Primitive := all.find? fun p => p.tag = c

def keyword : Primitive → String
  | void => "void"
  | boolean => "boolean"
  | byte => "byte"
  | char => "char"
  | short => "short"
  | int => "int"
  | long => "long"
  | float => "float"
  | double => "double"

def size : Primitive → Nat
  | void => 0
  | long | double => 2
  | _ => 1

end Primitive

/-- What an array is made of, or a type that is no array. A class is given by its internal name,
such as `java/lang/String`. -/
inductive Element where
  | primitive (p : Primitive)
  | object (name : String)
deriving DecidableEq, Repr, Inhabited

namespace Element

def encode : Element → List Char
  | primitive p => [p.tag]
  | object name => 'L' :: (name.toList ++ [';'])

def size : Element → Nat
  | primitive p => p.size
  | object _ => 1

def className : Element → List Char
  | primitive p => p.keyword.toList
  | object name => name.toList.map fun c => if c = '/' then '.' else c

def WellFormed : Element → Prop
  | primitive p => p ≠ .void
  | object name => name ≠ "" ∧ ';' ∉ name.toList

end Element

/-- An element under `dims` array dimensions; with none of them, the element itself. -/
structure TypeDescriptor where
  dims : Nat := 0
  element : Element
deriving DecidableEq, Repr, Inhabited

namespace TypeDescriptor

def void : TypeDescriptor := ⟨0, .primitive .void⟩

def isArray (t : TypeDescriptor) : Bool := 0 < t.dims

/-- An array is a reference and takes one slot, whatever it holds. -/
def size (t : TypeDescriptor) : Nat := if t.isArray then 1 else t.element.size

def encode (t : TypeDescriptor) : List Char := List.replicate t.dims '[' ++ t.element.encode

def className (t : TypeDescriptor) : List Char :=
  t.element.className ++ (List.replicate t.dims ['[', ']']).flatten

instance : ToString TypeDescriptor where
  toString t := String.ofList t.encode

def WellFormed (t : TypeDescriptor) : Prop := t.element.WellFormed

end TypeDescriptor

structure MethodDescriptor where
  params : List TypeDescriptor
  result : TypeDescriptor
deriving DecidableEq, Repr, Inhabited

namespace MethodDescriptor

def encode (m : MethodDescriptor) : List Char :=
  '(' :: (m.params.flatMap TypeDescriptor.encode ++ ')' :: m.result.encode)

def argsSize (m : MethodDescriptor) : Nat := m.params.foldr (fun t n => t.size + n) 0

instance : ToString MethodDescriptor where
  toString m := String.ofList m.encode

def WellFormed (m : MethodDescriptor) : Prop :=
  (∀ t ∈ m.params, t.WellFormed) ∧ (m.result = .void ∨ m.result.WellFormed)

end MethodDescriptor

end ClassSketch.Descriptor
