import ClassSketch.Print.Class
import ClassSketch.Proofs.Except
import ClassSketch.Proofs.IndentedText

namespace ClassSketch.Print

open Access Descriptor Text

def fieldLine (f : MemberDecl) (t : TypeDescriptor) : String :=
  modifiers (sort .forField (applicable .forField f.access)) ++ typeName t ++ " " ++ f.name ++ ";\n"

def methodLine (m : MemberDecl) (d : MethodDescriptor) : String :=
  modifiers (sort .forMethod (applicable .forMethod m.access)) ++ typeName d.result ++ " " ++
    m.name ++ "(" ++ ", ".intercalate (parameters m.access d.params) ++ ")"

def methodBlock (declaration : String) : String := declaration ++ "\n" ++ throwingBody ++ "\n"

theorem value_fieldText (className : String) (f : MemberDecl) :
    (fieldText className f).run.value =
      fieldLine f <$> (TypeDescriptor.parse f.descriptor).mapError (PrintError.ofMember f) := by
  rw [fieldText, Attempt.value_bind, Attempt.value_emit, ok_bind, Attempt.value_bind]
  rfl

theorem value_methodDeclaration (m : MemberDecl) :
    (methodDeclaration m).run.value =
      methodLine m <$> (MethodDescriptor.parse m.descriptor).mapError (PrintError.ofMember m) := by
  rw [methodDeclaration, Attempt.value_bind]
  rfl

theorem text_methodBlock (declaration : String) :
    ((Indented.empty.appendLine declaration).appendBlock
      (throwingBody.push Indented.endMark)).text = methodBlock declaration := by
  have hlast : throwingBody.toList.getLast? = some '\x7d' := by decide
  have hline := Indented.Shows.empty.appendLine (s := declaration) fun _ => rfl
  have hblock := hline.appendBlock (throwingBody.push Indented.endMark)
  rw [Draft.appendBlock_push_endMark hlast (by decide), Draft.append_append] at hblock
  rw [← String.toList_inj, hblock.text_unindented, methodBlock]
  simp

theorem value_methodText (className : String) (m : MemberDecl) :
    (methodText className m).run.value = methodBlock <$> (methodDeclaration m).run.value := by
  rw [methodText, Attempt.value_bind, Attempt.value_emit, ok_bind, Attempt.value_bind,
    Attempt.value_emit, ok_bind, Attempt.value_bind]
  cases (methodDeclaration m).run.value with
  | error e => rfl
  | ok declaration => exact congrArg Except.ok (text_methodBlock declaration)

def appendSpaced (first : Bool) (t : Indented) : List String → Indented
  | [] => t
  | text :: rest => appendSpaced false ((if first then t else t.newline).appendBlock text) rest

theorem appendFields_cons (className : String) (t : Indented) (f : MemberDecl)
    (fields : List MemberDecl) : appendFields className t (f :: fields) =
      fieldText className f >>= fun line => appendFields className (t.appendBlock line) fields := by
  rw [appendFields, List.foldlM_cons, bind_assoc]
  rfl

theorem appendMethods_cons (className : String) (first : Bool) (t : Indented) (m : MemberDecl)
    (methods : List MemberDecl) : appendMethods className first t (m :: methods) =
      methodText className m >>= fun text => appendMethods className false
        ((if first then t else t.newline).appendBlock text) methods := by
  rw [appendMethods, List.foldlM_cons]
  simp only [bind_assoc, pure_bind]
  rfl

theorem value_appendFields (className : String) (t : Indented) (fields : List MemberDecl) :
    (appendFields className t fields).run.value =
      List.foldl Indented.appendBlock t <$>
        fields.mapM fun f => (fieldText className f).run.value := by
  induction fields generalizing t with
  | nil => rfl
  | cons f fields ih =>
    rw [appendFields_cons, Attempt.value_bind, List.mapM_cons, map_bind]
    refine bind_congr fun line => ?_
    rw [ih, map_bind]
    rfl

theorem value_appendMethods (className : String) (first : Bool) (t : Indented)
    (methods : List MemberDecl) :
    (appendMethods className first t methods).run.value =
      appendSpaced first t <$> methods.mapM fun m => (methodText className m).run.value := by
  induction methods generalizing first t with
  | nil => rfl
  | cons m methods ih =>
    rw [appendMethods_cons, Attempt.value_bind, List.mapM_cons, map_bind]
    refine bind_congr fun text => ?_
    rw [ih, map_bind]
    rfl

theorem value_classTextAs (form : ClassForm) (c : ClassDecl) :
    (classTextAs form c).run.value = do
      let fields ← c.fields.mapM fun f => (fieldText c.name f).run.value
      let methods ← c.methods.mapM fun m => (methodText c.name m).run.value
      let t := (Indented.empty.appendLine (declaration form c)).appendLine "\x7b"
      let t := appendSpaced c.fields.isEmpty (fields.foldl Indented.appendBlock t.indent) methods
      return (t.dedent.appendLine "\x7d").text := by
  simp only [classTextAs, Attempt.value_bind, Attempt.value_emit, ok_bind, value_appendFields,
    value_appendMethods, bind_map_left]
  rfl

def spaced (first : Bool) : List String → String
  | [] => ""
  | text :: rest => (if first then "" else "\n") ++ text ++ spaced false rest

def membersText (fields methods : List String) : String :=
  String.join fields ++ spaced fields.isEmpty methods

theorem getLast?_append_of_break {s : String} (h : s.toList.getLast? = some '\n')
    (front : String) : (front ++ s).toList.getLast? = some '\n' := by
  rw [String.toList_append, List.getLast?_append, h]
  rfl

theorem getLast?_fieldText {className : String} {f : MemberDecl} {line : String}
    (h : (fieldText className f).run.value = .ok line) : line.toList.getLast? = some '\n' := by
  rw [value_fieldText] at h
  obtain ⟨t, -, rfl⟩ := map_eq_ok_iff.1 h
  apply getLast?_append_of_break
  decide

theorem getLast?_methodText {className : String} {m : MemberDecl} {text : String}
    (h : (methodText className m).run.value = .ok text) : text.toList.getLast? = some '\n' := by
  rw [value_methodText] at h
  obtain ⟨declaration, -, rfl⟩ := map_eq_ok_iff.1 h
  apply getLast?_append_of_break
  decide

theorem shows_foldl_appendBlock {lines : List String}
    (hl : ∀ line ∈ lines, line.toList.getLast? = some '\n') {t : Indented} {d : Draft}
    (h : t.Shows d) :
    (lines.foldl Indented.appendBlock t).Shows (d.append (String.join lines).toList) := by
  induction lines generalizing t d with
  | nil => simpa using h
  | cons line lines ih =>
    have hline := h.appendBlock line
    rw [Draft.appendBlock_of_break (hl line (by simp))] at hline
    have hlines := ih (fun l hm => hl l (by simp [hm])) hline
    rwa [Draft.append_append, ← String.toList_append, ← String.join_cons] at hlines

theorem shows_appendSpaced {texts : List String}
    (hl : ∀ text ∈ texts, text.toList.getLast? = some '\n') {t : Indented} {d : Draft}
    (h : t.Shows d) (first : Bool) :
    (appendSpaced first t texts).Shows (d.append (spaced first texts).toList) := by
  induction texts generalizing first t d with
  | nil =>
    rw [appendSpaced, spaced]
    simpa using h
  | cons text texts ih =>
    have hgap : (if first then t else t.newline).Shows
        (d.append (if first then "" else "\n").toList) := by
      cases first with
      | true => simpa using h
      | false => exact h.newline
    have htext := hgap.appendBlock text
    rw [Draft.appendBlock_of_break (hl text (by simp))] at htext
    have htexts := ih (fun l hm => hl l (by simp [hm])) htext false
    rwa [Draft.append_append, Draft.append_append, ← List.append_assoc, ← String.toList_append,
      ← String.toList_append] at htexts

theorem marginsFrom_indented {front : List Char} (h : front.getLast? = some '\n')
    (cs back : List Char) :
    marginsFrom false (atLevel 0 front ++ atLevel 1 cs ++ atLevel 0 back) =
      front ++ withMargins (atLevel 1 cs) ++ back := by
  rw [marginsFrom_append, marginsFrom_append, marginsFrom_atLevel_zero, marginsFrom_atLevel_zero,
    isOpen_atLevel, h, withMargins_eq_marginsFrom]
  rfl

theorem text_between_braces (declaration : String) {lines texts : List String}
    (hlines : ∀ line ∈ lines, line.toList.getLast? = some '\n')
    (htexts : ∀ text ∈ texts, text.toList.getLast? = some '\n') (first : Bool) :
    ((appendSpaced first (lines.foldl Indented.appendBlock
        ((Indented.empty.appendLine declaration).appendLine "\x7b").indent)
        texts).dedent.appendLine "\x7d").text =
      declaration ++ "\n\x7b\n" ++ indentLines (String.join lines ++ spaced first texts) ++
        "\x7d\n" := by
  have hfront : declaration.toList ++ ['\n'] ++ ("\x7b".toList ++ ['\n']) =
      (declaration ++ "\n\x7b\n").toList := by simp
  have hdeclaration := Indented.Shows.empty.appendLine (s := declaration) fun _ => rfl
  have hopen := hdeclaration.appendLine (s := "\x7b") fun _ => rfl
  rw [Draft.append_append, hfront] at hopen
  have hmembers := shows_appendSpaced htexts (shows_foldl_appendBlock hlines hopen.indent) first
  rw [Draft.append_append, ← String.toList_append] at hmembers
  have hclose := hmembers.dedent.appendLine (s := "\x7d") fun _ => rfl
  have hlast := getLast?_append_of_break (s := "\n\x7b\n") (by decide) declaration
  have hmargins := marginsFrom_indented hlast (String.join lines ++ spaced first texts).toList
    "\x7d\n".toList
  rw [withMargins_atLevel_one, ← String.toList_append, ← String.toList_append] at hmargins
  exact String.toList_inj.1 (hclose.text.trans hmargins)

theorem value_classTextAs_of_ok {c : ClassDecl} {lines texts : List String}
    (hf : (c.fields.mapM fun f => (fieldText c.name f).run.value) = .ok lines)
    (hm : (c.methods.mapM fun m => (methodText c.name m).run.value) = .ok texts)
    (form : ClassForm) :
    (classTextAs form c).run.value = .ok (declaration form c ++ "\n\x7b\n" ++
      indentLines (membersText lines texts) ++ "\x7d\n") := by
  have hempty : c.fields.isEmpty = lines.isEmpty := by
    have hlength := (mapM_eq_ok_iff.1 hf).length_eq
    rw [Bool.eq_iff_iff, List.isEmpty_iff_length_eq_zero, List.isEmpty_iff_length_eq_zero, hlength]
  have hlines : ∀ line ∈ lines, line.toList.getLast? = some '\n' := by
    intro line hline
    obtain ⟨f, -, h⟩ := exists_of_mem_forall₂ (mapM_eq_ok_iff.1 hf) hline
    exact getLast?_fieldText h
  have htexts : ∀ text ∈ texts, text.toList.getLast? = some '\n' := by
    intro text htext
    obtain ⟨m, -, h⟩ := exists_of_mem_forall₂ (mapM_eq_ok_iff.1 hm) htext
    exact getLast?_methodText h
  rw [value_classTextAs, hf, ok_bind, hm, ok_bind, membersText, hempty]
  exact congrArg Except.ok (text_between_braces _ hlines htexts lines.isEmpty)

structure HasValidDescriptors (c : ClassDecl) : Prop where
  fields : ∀ f ∈ c.fields, ∃ t, TypeDescriptor.parse f.descriptor = .ok t
  methods : ∀ m ∈ c.methods, ∃ d, MethodDescriptor.parse m.descriptor = .ok d

theorem exists_fieldText {f : MemberDecl} (h : ∃ t, TypeDescriptor.parse f.descriptor = .ok t) :
    ∃ line, ∀ className, (fieldText className f).run.value = .ok line := by
  obtain ⟨t, ht⟩ := h
  refine ⟨fieldLine f t, fun className => ?_⟩
  rw [value_fieldText, ht]
  rfl

theorem exists_methodDeclaration {m : MemberDecl}
    (h : ∃ d, MethodDescriptor.parse m.descriptor = .ok d) :
    ∃ declaration, (methodDeclaration m).run.value = .ok declaration ∧
      ∀ className, (methodText className m).run.value = .ok (methodBlock declaration) := by
  obtain ⟨d, hd⟩ := h
  have hm : (methodDeclaration m).run.value = .ok (methodLine m d) := by
    rw [value_methodDeclaration, hd]
    rfl
  refine ⟨methodLine m d, hm, fun className => ?_⟩
  rw [value_methodText, hm]
  rfl

/-- Printing the members gives these lines for the fields and these declarations for the methods. -/
structure MemberTexts (c : ClassDecl) (lines declarations : List String) : Prop where
  fields : List.Forall₂ (fun f line => ∀ className, (fieldText className f).run.value = .ok line)
    c.fields lines
  methods : List.Forall₂ (fun m declaration => (methodDeclaration m).run.value = .ok declaration ∧
    ∀ className, (methodText className m).run.value = .ok (methodBlock declaration))
    c.methods declarations

theorem HasValidDescriptors.exists_memberTexts {c : ClassDecl} (h : HasValidDescriptors c) :
    ∃ lines declarations, MemberTexts c lines declarations := by
  obtain ⟨lines, hlines⟩ := exists_forall₂ fun f hf => exists_fieldText (h.fields f hf)
  obtain ⟨declarations, hdeclarations⟩ :=
    exists_forall₂ fun m hm => exists_methodDeclaration (h.methods m hm)
  exact ⟨lines, declarations, hlines, hdeclarations⟩

theorem MemberTexts.value_classTextAs {c : ClassDecl} {lines declarations : List String}
    (h : MemberTexts c lines declarations) (form : ClassForm) :
    (classTextAs form c).run.value = .ok (declaration form c ++ "\n\x7b\n" ++
      indentLines (membersText lines (declarations.map methodBlock)) ++ "\x7d\n") := by
  apply value_classTextAs_of_ok
  · exact mapM_eq_ok_iff.2 (h.fields.imp fun f line hline => hline c.name)
  · exact mapM_eq_ok_iff.2 (List.forall₂_map_right_iff.2
      (h.methods.imp fun m declaration hm => hm.2 c.name))

/-- A class whose members have valid descriptors is printed in every form, and the forms differ in
the declaration only. Behind it stand, indented and between braces, the lines of the fields and the
blocks of the methods. -/
theorem classTextAs_layout {c : ClassDecl} (h : HasValidDescriptors c) :
    ∃ lines declarations, MemberTexts c lines declarations ∧
      ∀ form, (classTextAs form c).run.value = .ok (declaration form c ++ "\n\x7b\n" ++
        indentLines (membersText lines (declarations.map methodBlock)) ++ "\x7d\n") := by
  obtain ⟨lines, declarations, ht⟩ := h.exists_memberTexts
  exact ⟨lines, declarations, ht, ht.value_classTextAs⟩

/-- Line breaks, an empty name and the end mark inside names. -/
theorem classTextAs_layout_breaks :
    let c : ClassDecl := {
      name := "a/B\nC\x1e", access := 0, superName := none
      fields := [⟨"", "x\n\ny\x1e", 0x0002, "[I"⟩]
      methods := [⟨"", "", 0x0008, "(JLx\n;)V"⟩, ⟨"", "m", 0, "()LD\x1e;"⟩] }
    HasValidDescriptors c ∧
      (∃ body, ∀ form, (classTextAs form c).run.value = .ok (declaration form c ++ body)) ∧
      (classTextAs .enum c).run.value = .ok ("enum B\nC\x1e\n\x7b\n" ++
        "    private int[] x\n\n    y\x1e;\n\n" ++
        "    static void (long p0, x\n     p2)\n" ++
        "    \x7b\n        throw new RuntimeException(\"Stub method\");\n    \x7d\n\n" ++
        "    D\x1e m()\n" ++
        "    \x7b\n        throw new RuntimeException(\"Stub method\");\n    \x7d\n\x7d\n") := by
  intro c
  have hc : HasValidDescriptors c := by
    apply HasValidDescriptors.mk
    · simp only [c, List.mem_singleton, forall_eq]
      exact ⟨⟨1, .primitive .int⟩, by decide⟩
    · simp only [c, List.mem_cons, List.not_mem_nil, or_false, forall_eq_or_imp, forall_eq]
      refine ⟨⟨⟨[⟨0, .primitive .long⟩, ⟨0, .object "x\n"⟩], .void⟩, by decide +kernel⟩, ?_⟩
      exact ⟨⟨[], ⟨0, .object "D\x1e"⟩⟩, by decide +kernel⟩
  obtain ⟨lines, declarations, -, hlayout⟩ := classTextAs_layout hc
  have hform : ∀ form, (classTextAs form c).run.value = .ok (declaration form c ++ ("\n\x7b\n" ++
      (indentLines (membersText lines (declarations.map methodBlock)) ++ "\x7d\n"))) := by
    intro form
    rw [hlayout form, String.append_assoc, String.append_assoc]
  exact ⟨hc, ⟨_, hform⟩, by decide +kernel⟩

end ClassSketch.Print
