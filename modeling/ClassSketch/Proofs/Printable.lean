import ClassSketch.Command.Print
import ClassSketch.Proofs.ClassText
import ClassSketch.Proofs.LayoutReading

namespace ClassSketch

open ClassFile Print

theorem exists_describe_of_read {data : List UInt8} {c : ClassDecl}
    (h : (ClassFile.read data).run.value = .ok c) :
    ∃ (es : List Layout.Entry) (p : Layout.Parts),
      p.Describe (Layout.IsText es) (Layout.IsClassName es) c := by
  obtain ⟨-, c', hbody⟩ := value_read_eq_ok_iff.1 h
  obtain ⟨_, ⟨_, es, p, -, -, hd⟩, -⟩ := (Recognizes.readBody _ c' c).1 hbody
  exact ⟨es, p, hd⟩

theorem owner_of_read {data : List UInt8} {c : ClassDecl}
    (h : (ClassFile.read data).run.value = .ok c) :
    (∀ f ∈ c.fields, f.owner = c.name) ∧ ∀ m ∈ c.methods, m.owner = c.name := by
  obtain ⟨es, p, hd⟩ := exists_describe_of_read h
  apply And.intro
  · intro f hf
    obtain ⟨l, -, hl⟩ := exists_of_mem_forall₂ hd.fields hf
    exact hl.owner
  · intro m hm
    obtain ⟨l, -, hl⟩ := exists_of_mem_forall₂ hd.methods hm
    exact hl.owner

theorem hasValidDescriptors_of_read {data : List UInt8} {c : ClassDecl}
    (h : (ClassFile.read data).run.value = .ok c) : HasValidDescriptors c := by
  obtain ⟨es, p, hd⟩ := exists_describe_of_read h
  apply HasValidDescriptors.mk
  · intro f hf
    obtain ⟨l, -, hl⟩ := exists_of_mem_forall₂ hd.fields hf
    obtain ⟨t, ht⟩ := hl.valid
    exact ⟨t, Descriptor.TypeDescriptor.parse_eq_ok_iff.2 ht⟩
  · intro m hm
    obtain ⟨l, -, hl⟩ := exists_of_mem_forall₂ hd.methods hm
    obtain ⟨d, hd⟩ := hl.valid
    exact ⟨d, Descriptor.MethodDescriptor.parse_eq_ok_iff.2 hd⟩

structure Prints (c : ClassDecl) : Prop where
  field : ∀ f ∈ c.fields, ∀ className, ∃ line, (fieldText className f).run.value = .ok line
  method : ∀ m ∈ c.methods, ∀ className, ∃ text, (methodText className m).run.value = .ok text
  declaration : ∀ m ∈ c.methods, ∃ text, (methodDeclaration m).run.value = .ok text
  whole : ∃ text, (classText c).run.value = .ok text
  form : ∀ form, ∃ text, (classTextAs form c).run.value = .ok text

theorem Print.HasValidDescriptors.prints {c : ClassDecl} (h : HasValidDescriptors c) :
    Prints c where
  field f hf className := by
    obtain ⟨line, hline⟩ := exists_fieldText (h.fields f hf)
    exact ⟨line, hline className⟩
  method m hm className := by
    obtain ⟨declaration, -, htext⟩ := exists_methodDeclaration (h.methods m hm)
    exact ⟨methodBlock declaration, htext className⟩
  declaration m hm := by
    obtain ⟨declaration, hdeclaration, -⟩ := exists_methodDeclaration (h.methods m hm)
    exact ⟨declaration, hdeclaration⟩
  whole := by
    obtain ⟨lines, declarations, ht⟩ := h.exists_memberTexts
    exact ⟨_, ht.value_classTextAs _⟩
  form form := by
    obtain ⟨lines, declarations, ht⟩ := h.exists_memberTexts
    exact ⟨_, ht.value_classTextAs form⟩

namespace Command

open Files

variable {m : Type → Type} [Monad m] [FileAccess m]

/-- As `printFile`, but `otherwise` is done for a class that cannot be printed. -/
def printFileOr (otherwise : PrintError → m Report) (single : Bool) (output : Option String)
    (path : String) : m Report := do
  match (← (Input.file path).readClass).value with
  | .error e => return .failure s!"// Error reading {path}: {e.message}\n"
  | .ok c =>
    match (Print.classText c).run.value with
    | .error e => otherwise e
    | .ok text =>
      match output with
      | none => return { out := framed single path text }
      | some dir => writeClass dir c.name text

theorem printFile_eq_printFileOr (single : Bool) (output : Option String) (path : String) :
    (printFile single output path : m Report) = printFileOr
      (fun e => return .failure s!"// Error printing {path}: {e.message}\n") single output path :=
  rfl

theorem printFileOr_congr [LawfulMonad m] (f g : PrintError → m Report) (single : Bool)
    (output : Option String) (path : String) :
    printFileOr f single output path = printFileOr g single output path := by
  rw [printFileOr, printFileOr, Input.readClass, bind_assoc, bind_assoc]
  refine bind_congr fun content => ?_
  cases content with
  | error e => rw [pure_bind, pure_bind]; rfl
  | ok bytes =>
    rw [pure_bind, pure_bind]
    cases h : (ClassFile.read bytes).run.value with
    | error e => rfl
    | ok c =>
      obtain ⟨text, htext⟩ := (hasValidDescriptors_of_read h).prints.whole
      simp only [htext]

/-- Every class that is read has its own members, and can be printed whole and in parts. A file is
printed as if anything else were done for a class that cannot be printed. -/
theorem read_always_prints :
    (∀ (data : List UInt8) (c : ClassDecl), (ClassFile.read data).run.value = .ok c →
      (∀ f ∈ c.fields, f.owner = c.name) ∧ (∀ m ∈ c.methods, m.owner = c.name) ∧ Prints c) ∧
    ∀ (m : Type → Type) [Monad m] [LawfulMonad m] [FileAccess m]
      (otherwise : PrintError → m Report) (single : Bool) (output : Option String) (path : String),
      printFile single output path = printFileOr otherwise single output path := by
  apply And.intro
  · intro data c h
    obtain ⟨hfields, hmethods⟩ := owner_of_read h
    exact ⟨hfields, hmethods, (hasValidDescriptors_of_read h).prints⟩
  · intro m _ _ _ otherwise single output path
    rw [printFile_eq_printFileOr]
    exact printFileOr_congr _ otherwise single output path

/-- A class `A` with a field `x` and a method `x`. -/
theorem read_always_prints_members :
    let data : List UInt8 := [0xCA, 0xFE, 0xBA, 0xBE, 0, 0, 0, 52, 0, 6, 1, 0, 1, 65, 7, 0, 1,
      1, 0, 1, 120, 1, 0, 1, 73, 1, 0, 3, 40, 41, 86, 0, 0, 0, 2, 0, 0, 0, 0,
      0, 1, 0, 0, 0, 3, 0, 4, 0, 0, 0, 1, 0, 0, 0, 3, 0, 5, 0, 0, 0, 0]
    let c : ClassDecl := {
      name := "A", access := 0, superName := none
      fields := [⟨"A", "x", 0, "I"⟩], methods := [⟨"A", "x", 0, "()V"⟩] }
    (ClassFile.read data).run.value = .ok c ∧ Prints c ∧
      ∀ otherwise : PrintError → FileM Report,
        printFile true none "A.class" = printFileOr otherwise true none "A.class" := by
  intro data c
  have hread : (ClassFile.read data).run.value = .ok c := by decide +kernel
  obtain ⟨hprints, hfile⟩ := read_always_prints
  obtain ⟨-, -, hc⟩ := hprints data c hread
  exact ⟨hread, hc, fun otherwise => hfile FileM otherwise true none "A.class"⟩

end Command

end ClassSketch
