import ClassSketch.Access.Form
import ClassSketch.Command.Print

namespace ClassSketch.Command

open ClassFile Files

def accessText (access : UInt16) : String := "0x" ++ Text.hexPadded 4 access.toNat

def summary (version : Version) (c : ClassDecl) : String :=
  let form := Access.ClassForm.ofAccess c.access
  let superName := c.superName.getD "(none)"
  let interfaces :=
    if c.interfaces.isEmpty then ""
    else "Interfaces:  " ++ ", ".intercalate c.interfaces ++ "\n"
  let field (f : MemberDecl) := s!"    {accessText f.access}  {f.name} {f.descriptor}\n"
  let method (m : MemberDecl) := s!"    {accessText m.access}  {m.name}{m.descriptor}\n"
  "=== Class Info ===\n" ++
    s!"Version:     {version}\n" ++
    s!"Name:        {c.name}\n" ++
    s!"Kind:        {form.keyword}\n" ++
    s!"Access:      {accessText c.access}\n" ++
    s!"Super:       {superName}\n" ++
    interfaces ++
    s!"Fields:      {c.fields.length}\n" ++
    String.join (c.fields.map field) ++
    s!"Methods:     {c.methods.length}\n" ++
    String.join (c.methods.map method)

def readVersioned (bytes : List UInt8) : Except ReadError (Version × ClassDecl) := do
  let version ← peekVersion bytes
  let c ← (ClassFile.read bytes).run.value
  return (version, c)

/-- What is told of a class, in short or as `serialize` writes it. -/
def describe (serialize : ClassDecl → Except String String) (yaml : Bool) :
    Except ReadError (Version × ClassDecl) → Outcome
  | .error e => .failure s!"Error: {e.message}\n"
  | .ok (version, c) =>
    if yaml then
      match serialize c with
      | .ok text => { out := text }
      | .error e => .failure s!"Error: {e}\n"
    else { out := summary version c }

def info {m : Type → Type} [Monad m] [FileAccess m]
    (serialize : ClassDecl → Except String String) (path : String) (yaml : Bool) : m Outcome := do
  let found := (← (Input.file path).view).bind readVersioned
  return describe serialize yaml found

end ClassSketch.Command
