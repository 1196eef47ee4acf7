import ClassSketch.Proofs.ClassText

namespace ClassSketch.Print

open Access Descriptor Text

/-- `e` tells of the first of `members` whose descriptor `parse` refuses. -/
def FirstFault {α : Type} (parse : String → Except Fault α) (members : List MemberDecl)
    (e : PrintError) : Prop :=
  ∃ before m after fault, members = before ++ m :: after ∧
    (∀ n ∈ before, ∃ a, parse n.descriptor = .ok a) ∧ parse m.descriptor = .error fault ∧
      e = ⟨m.owner, m.name, m.descriptor, fault⟩

theorem exists_firstFault_iff {α : Type} {parse : String → Except Fault α}
    {members : List MemberDecl} : (∃ e, FirstFault parse members e) ↔
      ∃ m ∈ members, ∃ fault, parse m.descriptor = .error fault := by
  rw [← exists_mapM_eq_error_iff]
  simp only [mapM_eq_error_iff, FirstFault]
  constructor
  · intro ⟨_, before, m, after, fault, hmembers, hbefore, hfault, _⟩
    exact ⟨fault, before, m, after, hmembers, hbefore, hfault⟩
  · intro ⟨fault, before, m, after, hmembers, hbefore, hfault⟩
    exact ⟨_, before, m, after, fault, hmembers, hbefore, hfault, rfl⟩

section

variable {α : Type} {parse : String → Except Fault α} (line : MemberDecl → α → String)

def lineOf (parse : String → Except Fault α) (m : MemberDecl) : Except PrintError String :=
  line m <$> (parse m.descriptor).mapError (PrintError.ofMember m)

theorem lineOf_eq_ok_iff {m : MemberDecl} :
    (∃ text, lineOf line parse m = .ok text) ↔ ∃ a, parse m.descriptor = .ok a := by
  simp [lineOf, map_eq_ok_iff, mapError_eq_ok_iff]

theorem lineOf_eq_error_iff {m : MemberDecl} {e : PrintError} : lineOf line parse m = .error e ↔
    ∃ fault, parse m.descriptor = .error fault ∧ e = ⟨m.owner, m.name, m.descriptor, fault⟩ := by
  rw [lineOf, map_eq_error_iff, mapError_eq_error_iff]
  exact exists_congr fun fault => and_congr_right fun _ => eq_comm

theorem mapM_lineOf_eq_error_iff {members : List MemberDecl} {e : PrintError} :
    members.mapM (lineOf line parse) = .error e ↔ FirstFault parse members e := by
  simp only [mapM_eq_error_iff, lineOf_eq_ok_iff, lineOf_eq_error_iff, FirstFault]
  constructor
  · intro ⟨before, m, after, hmembers, hbefore, fault, hfault, he⟩
    exact ⟨before, m, after, fault, hmembers, hbefore, hfault, he⟩
  · intro ⟨before, m, after, fault, hmembers, hbefore, hfault, he⟩
    exact ⟨before, m, after, hmembers, hbefore, fault, hfault, he⟩

theorem exists_mapM_lineOf_eq_ok_iff {members : List MemberDecl} :
    (∃ lines, members.mapM (lineOf line parse) = .ok lines) ↔
      ∀ m ∈ members, ∃ a, parse m.descriptor = .ok a := by
  constructor
  · intro ⟨lines, h⟩ m hm
    obtain ⟨before, after, rfl⟩ := List.append_of_mem hm
    obtain ⟨_, text, _, _, htext, _⟩ := exists_append_of_forall₂ (mapM_eq_ok_iff.1 h)
    exact (lineOf_eq_ok_iff line).1 ⟨text, htext⟩
  · intro h
    obtain ⟨lines, hlines⟩ := exists_forall₂ fun m hm => (lineOf_eq_ok_iff line).2 (h m hm)
    exact ⟨lines, mapM_eq_ok_iff.2 hlines⟩

end

theorem value_methodText_eq (className : String) (m : MemberDecl) :
    (methodText className m).run.value =
      lineOf (fun m d => methodBlock (methodLine m d)) MethodDescriptor.parse m := by
  rw [value_methodText, value_methodDeclaration, Functor.map_map]
  rfl

/-- The fields are gone through before the methods, and nothing else of a class can fail. -/
theorem classTextAs_eq_error_iff (form : ClassForm) (c : ClassDecl) (e : PrintError) :
    (classTextAs form c).run.value = .error e ↔ FirstFault TypeDescriptor.parse c.fields e ∨
      (∀ f ∈ c.fields, ∃ t, TypeDescriptor.parse f.descriptor = .ok t) ∧
        FirstFault MethodDescriptor.parse c.methods e := by
  have hfields : (c.fields.mapM fun f => (fieldText c.name f).run.value) =
      c.fields.mapM (lineOf fieldLine TypeDescriptor.parse) := by
    simp only [value_fieldText]
    rfl
  rw [value_classTextAs, hfields]
  simp only [value_methodText_eq, bind_eq_error_iff, mapM_lineOf_eq_error_iff]
  refine or_congr_right ?_
  rw [← exists_mapM_lineOf_eq_ok_iff fieldLine]
  constructor
  · intro ⟨lines, hlines, h⟩
    obtain h | ⟨_, _, h⟩ := h
    · exact ⟨⟨lines, hlines⟩, h⟩
    · cases h
  · intro ⟨⟨lines, hlines⟩, h⟩
    exact ⟨lines, hlines, .inl h⟩

theorem exists_classTextAs_eq_error_iff (form : ClassForm) (c : ClassDecl) :
    (∃ e, (classTextAs form c).run.value = .error e) ↔
      (∃ f ∈ c.fields, ∃ fault, TypeDescriptor.parse f.descriptor = .error fault) ∨
        ∃ m ∈ c.methods, ∃ fault, MethodDescriptor.parse m.descriptor = .error fault := by
  simp only [classTextAs_eq_error_iff, exists_or, exists_and_left,
    exists_firstFault_iff]
  constructor
  · intro h
    exact h.imp_right And.right
  · intro h
    by_cases hf : ∃ f ∈ c.fields, ∃ fault, TypeDescriptor.parse f.descriptor = .error fault
    · exact .inl hf
    · refine .inr ⟨fun f hmem => ?_, h.resolve_left hf⟩
      cases hparse : TypeDescriptor.parse f.descriptor with
      | ok t => exact ⟨t, rfl⟩
      | error fault => exact absurd ⟨f, hmem, fault, hparse⟩ hf

theorem classTextAs_without_members (form : ClassForm) (c : ClassDecl) :
    (classTextAs form { c with fields := [], methods := [] }).run.value =
      .ok (declaration form c ++ "\n\x7b\n\x7d\n") := by
  have htexts : MemberTexts { c with fields := [], methods := [] } [] [] := ⟨.nil, .nil⟩
  have hbody : "\n\x7b\n" ++ (indentLines (membersText [] []) ++ "\x7d\n") =
      "\n\x7b\n\x7d\n" := by decide
  rw [htexts.value_classTextAs, List.map_nil, String.append_assoc, String.append_assoc, hbody]
  rfl

/-- Printing a class fails just if the descriptor of a member is faulty. It fails with the first
such member, fields before methods, and tells its own owner, name and descriptor. The declaration
does not fail, and the form of the class makes no difference. -/
theorem classTextAs_blames_first (form : ClassForm) (c : ClassDecl) :
    ((∃ e, (classTextAs form c).run.value = .error e) ↔
      (∃ f ∈ c.fields, ∃ fault, TypeDescriptor.parse f.descriptor = .error fault) ∨
        ∃ m ∈ c.methods, ∃ fault, MethodDescriptor.parse m.descriptor = .error fault) ∧
    (∀ e, (classTextAs form c).run.value = .error e ↔ FirstFault TypeDescriptor.parse c.fields e ∨
      (∀ f ∈ c.fields, ∃ t, TypeDescriptor.parse f.descriptor = .ok t) ∧
        FirstFault MethodDescriptor.parse c.methods e) ∧
    (classTextAs form { c with fields := [], methods := [] }).run.value =
      .ok (declaration form c ++ "\n\x7b\n\x7d\n") ∧
    ∀ other, (∀ e, (classTextAs other c).run.value = .error e ↔
        (classTextAs form c).run.value = .error e) ∧
      ((∃ text, (classTextAs other c).run.value = .ok text) ↔
        ∃ text, (classTextAs form c).run.value = .ok text) := by
  have hsame : ∀ other e, (classTextAs other c).run.value = .error e ↔
      (classTextAs form c).run.value = .error e := by
    intro other e
    rw [classTextAs_eq_error_iff, classTextAs_eq_error_iff]
  refine ⟨exists_classTextAs_eq_error_iff form c, classTextAs_eq_error_iff form c,
    classTextAs_without_members form c, fun other => ⟨hsame other, ?_⟩⟩
  have hother := hsame other
  cases h : (classTextAs form c).run.value with
  | ok text =>
    cases h' : (classTextAs other c).run.value with
    | ok text' => exact ⟨fun _ => ⟨text, rfl⟩, fun _ => ⟨text', rfl⟩⟩
    | error e =>
      rw [h, h'] at hother
      cases (hother e).1 rfl
  | error e =>
    rw [(hother e).2 h]

/-- Of two faulty members the first field is told, with the class that it says to be of. -/
example : ∀ form, (classTextAs form {
    name := "a/B", access := 0, superName := none
    fields := [⟨"a/B", "x", 0, "I"⟩, ⟨"c/D", "y", 0, "Lbroken"⟩]
    methods := [⟨"a/B", "m", 0, "(V)V"⟩] }).run.value =
      .error ⟨"c/D", "y", "Lbroken", .unterminatedClass 0⟩ := by
  intro form
  cases form <;> decide +kernel

end ClassSketch.Print
