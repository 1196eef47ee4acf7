import ClassSketch.Print.Member

namespace ClassSketch.Print

open Access Text

def declaration (form : ClassForm) (c : ClassDecl) : String :=
  let flags := sort .forClass (form.declaredFlags c.access)
  let superClause :=
    match form.shownSuper c.superName with
    | some name => " extends " ++ simpleName name
    | none => ""
  let interfaces := (c.interfaces.filter form.showsInterface).map simpleName
  let interfaceClause :=
    if interfaces.isEmpty then ""
    else " " ++ form.interfacesKeyword ++ " " ++ ", ".intercalate interfaces
  modifiers flags ++ form.keyword ++ " " ++ simpleName c.name ++ superClause ++ interfaceClause

def appendFields (className : String) (t : Indented) (fields : List MemberDecl) :
    PrintM Indented :=
  fields.foldlM (fun t f => return t.appendBlock (← fieldText className f)) t

/-- Adds the methods, with an empty line before each that is not the first member. -/
def appendMethods (className : String) (first : Bool) (t : Indented) (methods : List MemberDecl) :
    PrintM Indented := do
  let (_, t) ← methods.foldlM (fun (first, t) m => do
    let text ← methodText className m
    let t := if first then t else t.newline
    return (false, t.appendBlock text)) (first, t)
  return t

def classTextAs (form : ClassForm) (c : ClassDecl) : PrintM String := do
  Attempt.emit ⟨.debug, .cls c.name form⟩
  let t := (Indented.empty.appendLine (declaration form c)).appendLine "\x7b"
  let t ← appendFields c.name t.indent c.fields
  let t ← appendMethods c.name c.fields.isEmpty t c.methods
  return (t.dedent.appendLine "\x7d").text

def classText (c : ClassDecl) : PrintM String := classTextAs (ClassForm.ofAccess c.access) c

end ClassSketch.Print
