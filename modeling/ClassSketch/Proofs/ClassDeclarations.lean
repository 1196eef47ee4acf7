import ClassSketch.Print.Class
import ClassSketch.Proofs.Modifiers

namespace ClassSketch.Print

open Access Text

/-- The short names in the declaration of a class are single words. -/
structure HasPlainNames (c : ClassDecl) : Prop where
  name : ' ' ∉ (simpleName c.name).toList
  superName : ∀ s ∈ c.superName, ' ' ∉ (simpleName s).toList
  interfaces : ∀ i ∈ c.interfaces, ' ' ∉ (simpleName i).toList

def shownSuperName (form : ClassForm) (c : ClassDecl) : Option String :=
  (form.shownSuper c.superName).map simpleName

def shownInterfaceNames (form : ClassForm) (c : ClassDecl) : List String :=
  (c.interfaces.filter form.showsInterface).map simpleName

def superWords : Option String → List String
  | some name => ["extends", name]
  | none => []

def listWords (word : String) : List String → List String
  | [] => []
  | item :: rest => word :: withCommas (item :: rest)

def clauses (form : ClassForm) (c : ClassDecl) : List String :=
  superWords (shownSuperName form c) ++
    listWords form.interfacesKeyword (shownInterfaceNames form c)

def declarationWords (form : ClassForm) (c : ClassDecl) : List String :=
  (form.declaredFlags c.access).map Flag.keyword ++
    form.keyword :: simpleName c.name :: clauses form c

theorem spaced_listWords (front word : String) (items : List String) :
    " ".intercalate (front :: listWords word items) =
      front ++ if items.isEmpty then "" else " " ++ word ++ " " ++ ", ".intercalate items := by
  cases items with
  | nil => simp [listWords]
  | cons item rest =>
    have hne : withCommas (item :: rest) ≠ [] := mt withCommas_eq_nil_iff.1 (by simp)
    rw [listWords, String.intercalate_cons_cons, String.intercalate_cons_of_ne_nil hne,
      spaced_withCommas]
    simp [String.append_assoc]

theorem spaced_extends (front name : String) (rest : List String) :
    " ".intercalate (front :: "extends" :: name :: rest) =
      front ++ " extends " ++ " ".intercalate (name :: rest) := by
  have hextends : " extends " = " " ++ "extends" ++ " " := rfl
  rw [String.intercalate_cons_cons, String.intercalate_cons_cons, hextends]
  simp only [String.append_assoc]

theorem declaration_eq_spaced (form : ClassForm) (c : ClassDecl) :
    declaration form c = " ".intercalate (declarationWords form c) := by
  rw [declarationWords, ← modifiers_append _ (by simp), declaration, sort_declaredFlags, clauses,
    shownSuperName]
  cases form.shownSuper c.superName with
  | none =>
    rw [Option.map_none, superWords, List.nil_append, String.intercalate_cons_cons,
      spaced_listWords]
    simp [String.append_assoc, shownInterfaceNames]
  | some name =>
    rw [Option.map_some, superWords, List.cons_append, List.cons_append, List.nil_append,
      String.intercalate_cons_cons, spaced_extends, spaced_listWords]
    simp [String.append_assoc, shownInterfaceNames]

theorem no_space_of_mem_listWords {word : String} {items : List String}
    (hword : ' ' ∉ word.toList) (hitems : ∀ item ∈ items, ' ' ∉ item.toList) :
    ∀ w ∈ listWords word items, ' ' ∉ w.toList := by
  intro w hw
  cases items with
  | nil => cases hw
  | cons item rest =>
    obtain rfl | hw := List.mem_cons.1 hw
    · exact hword
    · obtain ⟨i, hi, rfl | rfl⟩ := of_mem_withCommas hw
      · exact hitems w hi
      · simpa using hitems i hi

theorem HasPlainNames.no_space {c : ClassDecl} (h : HasPlainNames c) (form : ClassForm) :
    ∀ w ∈ declarationWords form c, ' ' ∉ w.toList := by
  have hform : ' ' ∉ form.keyword.toList := by cases form <;> decide
  have hword : ' ' ∉ form.interfacesKeyword.toList := by cases form <;> decide
  have hsuper : ∀ s ∈ shownSuperName form c, ' ' ∉ s.toList := by
    intro s hs
    obtain ⟨name, hname, rfl⟩ := Option.map_eq_some_iff.1 hs
    have hmem : name ∈ c.superName := by
      cases form with
      | ordinary => exact hname
      | enum => exact (Option.filter_eq_some_iff.1 hname).1
      | interface => cases hname
      | annotationType => cases hname
    exact h.superName name hmem
  have hinterfaces : ∀ i ∈ shownInterfaceNames form c, ' ' ∉ i.toList := by
    intro i hi
    obtain ⟨name, hname, rfl⟩ := List.mem_map.1 hi
    exact h.interfaces name (List.mem_of_mem_filter hname)
  intro w hw
  obtain hw | hw := List.mem_append.1 hw
  · obtain ⟨f, -, rfl⟩ := List.mem_map.1 hw
    exact f.not_mem_keyword rfl (by decide)
  obtain rfl | hw := List.mem_cons.1 hw
  · exact hform
  obtain rfl | hw := List.mem_cons.1 hw
  · exact h.name
  obtain hw | hw := List.mem_append.1 hw
  · cases hs : shownSuperName form c with
    | none =>
      rw [hs] at hw
      cases hw
    | some s =>
      rw [hs] at hw
      obtain rfl | hw := List.mem_cons.1 hw
      · decide
      · rw [List.mem_singleton.1 hw]
        exact hsuper s hs
  · exact no_space_of_mem_listWords hword hinterfaces w hw

theorem declarationWords_eq {form form' : ClassForm} {c d : ClassDecl} (hc : HasPlainNames c)
    (hd : HasPlainNames d) (h : declaration form c = declaration form' d) :
    declarationWords form c = declarationWords form' d := by
  rw [declaration_eq_spaced, declaration_eq_spaced] at h
  apply eq_of_spaced_eq (hc.no_space form) (hd.no_space form') _ _ h
  · simp [declarationWords]
  · simp [declarationWords]

theorem keyword_ne_of_mem_declaredFlags {form : ClassForm} {access : UInt16} {f : Flag}
    (h : f ∈ form.declaredFlags access) : f.keyword ≠ form.keyword := by
  have himplied : f.keyword = form.keyword → form.impliedFlags.contains f = true := by
    cases form <;> cases f <;> decide
  intro heq
  have hkept := (List.mem_filter.1 h).2
  rw [himplied heq] at hkept
  cases hkept

theorem listWords_injective (word : String) : Function.Injective (listWords word) := by
  intro items items' h
  cases items with
  | nil =>
    cases items' with
    | nil => rfl
    | cons => cases h
  | cons item rest =>
    cases items' with
    | nil => cases h
    | cons item' rest' => exact withCommas_injective (List.cons.inj h).2

theorem head?_listWords_ne {word : String} (hword : word ≠ "extends") (items : List String) :
    (listWords word items).head? ≠ some "extends" := by
  cases items with
  | nil => simp [listWords]
  | cons item rest => simpa [listWords] using hword

theorem superWords_append_inj {word : String} (hword : word ≠ "extends") {s s' : Option String}
    {items items' : List String}
    (h : superWords s ++ listWords word items = superWords s' ++ listWords word items') :
    s = s' ∧ items = items' := by
  cases s with
  | none =>
    cases s' with
    | none => exact ⟨rfl, listWords_injective word h⟩
    | some name' =>
      have hhead := congrArg List.head? h
      exact absurd hhead (head?_listWords_ne hword items)
  | some name =>
    cases s' with
    | none =>
      have hhead := congrArg List.head? h
      exact absurd hhead.symm (head?_listWords_ne hword items')
    | some name' =>
      obtain ⟨hname, hitems⟩ := List.cons.inj (List.cons.inj h).2
      exact ⟨congrArg some hname, listWords_injective word hitems⟩

theorem clauses_inj {form : ClassForm} {c d : ClassDecl} (h : clauses form c = clauses form d) :
    shownSuperName form c = shownSuperName form d ∧
      shownInterfaceNames form c = shownInterfaceNames form d := by
  cases form with
  | ordinary => exact superWords_append_inj (by decide) h
  | enum => exact superWords_append_inj (by decide) h
  | interface => exact ⟨rfl, listWords_injective "extends" h⟩
  | annotationType => exact ⟨rfl, listWords_injective "extends" h⟩

theorem declarationWords_inj {form : ClassForm} {c d : ClassDecl}
    (h : declarationWords form c = declarationWords form d) :
    form.declaredFlags c.access = form.declaredFlags d.access ∧
      simpleName c.name = simpleName d.name ∧ clauses form c = clauses form d := by
  have hflags : ∀ access, ∀ w ∈ (form.declaredFlags access).map Flag.keyword,
      (w != form.keyword) = true := by
    intro access w hw
    obtain ⟨f, hf, rfl⟩ := List.mem_map.1 hw
    exact bne_iff_ne.2 (keyword_ne_of_mem_declaredFlags hf)
  obtain ⟨hfront, hback⟩ := append_inj_of_takeWhile (hflags c.access) (hflags d.access)
    (by simp) (by simp) h
  obtain ⟨hname, hclauses⟩ := List.cons.inj (List.cons.inj hback).2
  exact ⟨List.map_injective_iff.2 Flag.keyword_injective hfront, hname, hclauses⟩

def isModifier (w : String) : Bool :=
  ["public", "protected", "private", "static", "abstract", "final"].contains w

/-- The last keywords before the name of a class. Not only an enum may have the flag of enums. -/
def marks (withEnum : Bool) (form : ClassForm) : List String :=
  if withEnum then ["enum", form.keyword] else [form.keyword]

theorem implied_of_isInterface {access : UInt16} (h : isInterface access = true) :
    (ClassForm.ofAccess access).impliedFlags.contains .accInterface = true := by
  rw [ClassForm.ofAccess, h]
  cases isAnnotationType access <;> rfl

theorem implied_of_isAnnotationType {access : UInt16} (h : isAnnotationType access = true) :
    (ClassForm.ofAccess access).impliedFlags.contains .accAnnotationType = true := by
  rw [ClassForm.ofAccess, h]
  rfl

theorem cases_of_mem_declaredFlags {access : UInt16} {f : Flag}
    (h : f ∈ (ClassForm.ofAccess access).declaredFlags access) :
    isModifier f.keyword = true ∨ f = .accEnum := by
  obtain ⟨hmem, hkept⟩ := List.mem_filter.1 h
  obtain ⟨happlies, hbit⟩ := Bool.and_eq_true_iff.1 (List.mem_filter.1 hmem).2
  have himplied : (ClassForm.ofAccess access).impliedFlags.contains f = false := by
    simpa using hkept
  cases f with
  | accInterface =>
    rw [implied_of_isInterface hbit] at himplied
    cases himplied
  | accAnnotationType =>
    rw [implied_of_isAnnotationType hbit] at himplied
    cases himplied
  | accEnum => exact .inr rfl
  | accTransient => cases happlies
  | accVolatile => cases happlies
  | accSynchronized => cases happlies
  | accNative => cases happlies
  | accStrict => cases happlies
  | _ => exact .inl (by decide)

theorem form_of_accEnum {access : UInt16}
    (h : .accEnum ∈ (ClassForm.ofAccess access).declaredFlags access) :
    ClassForm.ofAccess access = .interface ∨ ClassForm.ofAccess access = .annotationType := by
  obtain ⟨hmem, hkept⟩ := List.mem_filter.1 h
  obtain ⟨-, hbit⟩ := Bool.and_eq_true_iff.1 (List.mem_filter.1 hmem).2
  have henum : isEnum access = true := hbit
  revert hkept
  rw [ClassForm.ofAccess, henum]
  cases isAnnotationType access <;> cases isInterface access <;> decide

theorem exists_declarationWords_eq (c : ClassDecl) : ∃ front withEnum,
    declarationWords (.ofAccess c.access) c = front ++ (marks withEnum (.ofAccess c.access) ++
        simpleName c.name :: clauses (.ofAccess c.access) c) ∧
      (∀ w ∈ front, isModifier w = true) ∧
      (withEnum = true → ClassForm.ofAccess c.access = .interface ∨
        ClassForm.ofAccess c.access = .annotationType) := by
  let kept (f : Flag) : Bool := !(ClassForm.ofAccess c.access).impliedFlags.contains f &&
    (f.appliesTo .forClass && hasBit c.access f.bit)
  have hflags : (ClassForm.ofAccess c.access).declaredFlags c.access =
      Flag.all.dropLast.filter kept ++ [Flag.accEnum].filter kept := by
    rw [← List.filter_append, ClassForm.declaredFlags, applicable, List.filter_filter]
    rfl
  refine ⟨(Flag.all.dropLast.filter kept).map Flag.keyword, kept .accEnum, ?_, ?_, ?_⟩
  · rw [declarationWords, hflags, List.map_append, List.append_assoc]
    cases henum : kept .accEnum <;> simp [marks, henum, Flag.keyword]
  · intro w hw
    obtain ⟨f, hf, rfl⟩ := List.mem_map.1 hw
    have hmem : f ∈ (ClassForm.ofAccess c.access).declaredFlags c.access := by
      rw [hflags]
      exact List.mem_append_left _ hf
    obtain h | rfl := cases_of_mem_declaredFlags hmem
    · exact h
    · exact absurd (List.mem_filter.1 hf).1 (by decide)
  · intro henum
    apply form_of_accEnum
    rw [hflags]
    simp [henum]

theorem withCommas_ne_listWords {word : String} (hword : ',' ∉ word.toList) {items : List String}
    (hne : items ≠ []) (items' : List String) : withCommas items ≠ listWords word items' := by
  intro h
  cases items' with
  | nil => exact hne (withCommas_eq_nil_iff.1 h)
  | cons item rest => cases eq_nil_of_withCommas_eq_cons hword h

theorem cons_listWords_ne (name : String) (items : List String) (s : Option String)
    (items' : List String) :
    name :: listWords "extends" items ≠ superWords s ++ listWords "implements" items' := by
  intro h
  cases s with
  | none =>
    cases items' with
    | nil => cases h
    | cons item rest =>
      exact withCommas_ne_listWords (by decide) (by simp) items (List.cons.inj h).2.symm
  | some superName =>
    cases items with
    | nil => cases h
    | cons item rest =>
      have htail := (List.cons.inj (List.cons.inj h).2).2
      exact withCommas_ne_listWords (by decide) (by simp) items' htail

theorem enum_cons_ne {form form' : ClassForm} (h : form = .interface ∨ form = .annotationType)
    (c d : ClassDecl) : "enum" :: form.keyword :: simpleName c.name :: clauses form c ≠
      form'.keyword :: simpleName d.name :: clauses form' d := by
  intro heq
  obtain ⟨hkeyword, hback⟩ := List.cons.inj heq
  have henum : form' = .enum := ClassForm.keyword_injective hkeyword.symm
  subst henum
  have hclauses := (List.cons.inj hback).2
  obtain rfl | rfl := h
  · exact cons_listWords_ne _ _ _ _ hclauses
  · exact cons_listWords_ne _ _ _ _ hclauses

theorem marks_append_ne {form form' : ClassForm} (hne : form ≠ form') {withEnum withEnum' : Bool}
    (he : withEnum = true → form = .interface ∨ form = .annotationType)
    (he' : withEnum' = true → form' = .interface ∨ form' = .annotationType) (c d : ClassDecl) :
    marks withEnum form ++ simpleName c.name :: clauses form c ≠
      marks withEnum' form' ++ simpleName d.name :: clauses form' d := by
  intro h
  cases withEnum with
  | true =>
    cases withEnum' with
    | true => exact hne (ClassForm.keyword_injective (List.cons.inj (List.cons.inj h).2).1)
    | false => exact enum_cons_ne (he rfl) c d h
  | false =>
    cases withEnum' with
    | true => exact enum_cons_ne (he' rfl) d c h.symm
    | false => exact hne (ClassForm.keyword_injective (List.cons.inj h).1)

theorem declarationWords_ne {c d : ClassDecl}
    (hne : ClassForm.ofAccess c.access ≠ ClassForm.ofAccess d.access) :
    declarationWords (.ofAccess c.access) c ≠ declarationWords (.ofAccess d.access) d := by
  have hmarks : ∀ withEnum form rest,
      (marks withEnum form ++ rest).takeWhile isModifier = [] := by
    intro withEnum form rest
    cases withEnum <;> cases form <;> rfl
  obtain ⟨front, withEnum, hwords, hfront, he⟩ := exists_declarationWords_eq c
  obtain ⟨front', withEnum', hwords', hfront', he'⟩ := exists_declarationWords_eq d
  rw [hwords, hwords']
  intro h
  obtain ⟨-, hback⟩ := append_inj_of_takeWhile hfront hfront' (hmarks ..) (hmarks ..) h
  exact marks_append_ne hne he he' c d hback

/-- From the declaration of a class in a given form, its flags can be told, but for those implied,
and its short names: its own, that of the super class if one is written, and those of the
interfaces that are written. In the forms that their access bits call for, classes of two forms
are not declared alike. Commas in short names do no harm. -/
theorem declaration_unambiguous :
    (∀ (form : ClassForm) (c d : ClassDecl), HasPlainNames c → HasPlainNames d →
      declaration form c = declaration form d →
        form.declaredFlags c.access = form.declaredFlags d.access ∧
        simpleName c.name = simpleName d.name ∧
        (form.shownSuper c.superName).map simpleName =
          (form.shownSuper d.superName).map simpleName ∧
        (c.interfaces.filter form.showsInterface).map simpleName =
          (d.interfaces.filter form.showsInterface).map simpleName) ∧
    ∀ c d : ClassDecl, HasPlainNames c → HasPlainNames d →
      ClassForm.ofAccess c.access ≠ ClassForm.ofAccess d.access →
        declaration (.ofAccess c.access) c ≠ declaration (.ofAccess d.access) d := by
  constructor
  · intro form c d hc hd h
    obtain ⟨hflags, hname, hclauses⟩ := declarationWords_inj (declarationWords_eq hc hd h)
    obtain ⟨hsuper, hinterfaces⟩ := clauses_inj hclauses
    exact ⟨hflags, hname, hsuper, hinterfaces⟩
  · intro c d hc hd hne h
    exact declarationWords_ne hne (declarationWords_eq hc hd h)

/-- An enum and an interface whose names are words of declarations, and two classes that are
declared alike and so agree in what is declared of them. -/
theorem declaration_unambiguous_keywords :
    let c : ClassDecl := { name := "a/interface", access := 0x4000, superName := some "extends" }
    let d : ClassDecl := {
      name := "extends", access := 0x4200, superName := none, interfaces := ["implements"] }
    let e : ClassDecl := {
      name := "a/B", access := 0x0021, superName := some "c/extends", interfaces := ["e,/I", "J"] }
    let e' : ClassDecl := {
      name := "B", access := 0x0001, superName := some "extends", interfaces := ["I", "f/J"] }
    HasPlainNames c ∧ HasPlainNames d ∧ HasPlainNames e ∧ HasPlainNames e' ∧
      declaration (.ofAccess c.access) c = "enum interface extends extends" ∧
      declaration (.ofAccess d.access) d = "enum interface extends extends implements" ∧
      declaration (.ofAccess c.access) c ≠ declaration (.ofAccess d.access) d ∧
      declaration .ordinary e = "public class B extends extends implements I, J" ∧
      declaration .ordinary e = declaration .ordinary e' ∧
      ClassForm.ordinary.declaredFlags e.access = ClassForm.ordinary.declaredFlags e'.access ∧
      (e.interfaces.filter ClassForm.ordinary.showsInterface).map simpleName =
        (e'.interfaces.filter ClassForm.ordinary.showsInterface).map simpleName := by
  intro c d e e'
  have hc : HasPlainNames c := ⟨by decide, by simp [c]; decide, by simp [c]⟩
  have hd : HasPlainNames d := ⟨by decide, by simp [d], by simp [d]; decide⟩
  have he : HasPlainNames e := ⟨by decide, by simp [e]; decide, by simp [e]; decide⟩
  have he' : HasPlainNames e' := ⟨by decide, by simp [e']; decide, by simp [e']; decide⟩
  have heq : declaration .ordinary e = declaration .ordinary e' := by decide +kernel
  obtain ⟨hsame, hother⟩ := declaration_unambiguous
  obtain ⟨hflags, -, -, hinterfaces⟩ := hsame .ordinary e e' he he' heq
  exact ⟨hc, hd, he, he', by decide +kernel, by decide +kernel, hother c d hc hd (by decide),
    by decide +kernel, heq, hflags, hinterfaces⟩

end ClassSketch.Print
