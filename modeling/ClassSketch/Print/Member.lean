import ClassSketch.Access.Form
import ClassSketch.ClassDecl
import ClassSketch.Descriptor.Parse
import ClassSketch.Log
import ClassSketch.Text.Indented

namespace ClassSketch.Print

open Access Descriptor Text

inductive Event where
  | cls (className : String) (form : ClassForm)
  | field (className : String) (f : MemberDecl)
  | method (className : String) (m : MemberDecl)
  | annotationsOmitted (methodName : String)
  | throwsOmitted (methodName : String)
deriving DecidableEq, Repr

def Event.message : Event → String
  | cls className form => s!"Printing {className} as {form.keyword}"
  | field className f => s!"Printing field {className}.{f.name} {f.descriptor}"
  | method className m => s!"Printing method {className}.{m.name}{m.descriptor}"
  | annotationsOmitted methodName => s!"{methodName}: annotations not rendered"
  | throwsOmitted methodName => s!"{methodName}: throws clause not rendered"

structure PrintError where
  owner : String
  name : String
  descriptor : String
  fault : Fault
deriving DecidableEq, Repr

def PrintError.message (e : PrintError) : String :=
  s!"Malformed descriptor {quote e.descriptor} on {e.owner}.{e.name}: " ++
    e.fault.message e.descriptor

def PrintError.ofMember (m : MemberDecl) (fault : Fault) : PrintError :=
  ⟨m.owner, m.name, m.descriptor, fault⟩

abbrev PrintM := Attempt (LogRecord Event) PrintError

def isSeparator (c : Char) : Bool := c = '/' || c = '.'

def simpleName (name : String) : String := String.ofList (afterLast isSeparator name.toList)

/-- Looks for `target` from the front of `ahead` on and puts `replacement` in its place; both are
given in reverse. `behind` is the text already passed, in its right order. -/
def replaceFirstReversed (target replacement behind ahead : List Char) : Option (List Char) :=
  if target.isPrefixOf ahead then
    some ((ahead.drop target.length).reverse ++ replacement.reverse ++ behind)
  else match ahead with
    | [] => none
    | c :: rest => replaceFirstReversed target replacement (c :: behind) rest

/-- Replaces the last occurrence of `target`. The empty text occurs last at the end. -/
def replaceLast (text target replacement : String) : String :=
  match replaceFirstReversed target.toList.reverse replacement.toList.reverse []
      text.toList.reverse with
  | some cs => String.ofList cs
  | none => text

def typeName (t : TypeDescriptor) : String :=
  String.ofList (afterLast isSeparator t.className)

def modifiers (flags : List Flag) : String :=
  if flags.isEmpty then "" else render flags ++ " "

def parsed {α : Type} (m : MemberDecl) (parse : String → Except Fault α) : PrintM α :=
  .ofExcept ((parse m.descriptor).mapError (PrintError.ofMember m))

def fieldText (className : String) (f : MemberDecl) : PrintM String := do
  Attempt.emit ⟨.trace, .field className f⟩
  let t ← parsed f TypeDescriptor.parse
  let flags := sort .forField (applicable .forField f.access)
  return modifiers flags ++ typeName t ++ " " ++ f.name ++ ";\n"

/-- The type of a parameter. One that takes any number of arguments is an array whose last pair of
brackets is written as dots. -/
def parameterType (takesMany : Bool) (t : TypeDescriptor) : String :=
  if takesMany && t.isArray then replaceLast (typeName t) "[]" "..." else typeName t

/-- Parameters from the slot `slot` on. `before` holds earlier ones, the last one first. -/
def parametersFrom (varargs : Bool) (slot : Nat) (before : List String) :
    List TypeDescriptor → List String
  | [] => before.reverse
  | t :: rest =>
    let text := parameterType (varargs && rest.isEmpty) t ++ " p" ++ toString slot
    parametersFrom varargs (slot + t.size) (text :: before) rest

def parameters (access : UInt16) (types : List TypeDescriptor) : List String :=
  parametersFrom (isVarargs access) (if isStatic access then 0 else 1) [] types

def methodDeclaration (m : MemberDecl) : PrintM String := do
  let d ← parsed m MethodDescriptor.parse
  let flags := sort .forMethod (applicable .forMethod m.access)
  let params := ", ".intercalate (parameters m.access d.params)
  Attempt.emit ⟨.trace, .throwsOmitted m.name⟩
  return modifiers flags ++ typeName d.result ++ " " ++ m.name ++ "(" ++ params ++ ")"

def throwingBody : String :=
  "\x7b\n    throw new RuntimeException(\"Stub method\");\n\x7d"

def methodText (className : String) (m : MemberDecl) : PrintM String := do
  Attempt.emit ⟨.trace, .method className m⟩
  Attempt.emit ⟨.trace, .annotationsOmitted m.name⟩
  let declaration ← methodDeclaration m
  let body := throwingBody.push Indented.endMark
  return ((Indented.empty.appendLine declaration).appendBlock body).text

end ClassSketch.Print
