import ClassSketch.Proofs.ClassText
import ClassSketch.Proofs.Modifiers

namespace ClassSketch

namespace Text

theorem of_mem_afterLast {p : Char → Bool} {cs : List Char} {c : Char} (h : c ∈ afterLast p cs) :
    c ∈ cs ∧ p c = false := by
  rw [afterLast, List.mem_reverse] at h
  have hmem := (List.takeWhile_sublist _).subset h
  exact ⟨List.mem_reverse.1 hmem, by simpa using List.mem_takeWhile_imp h⟩

end Text

namespace Print

open Access Descriptor Text

def isDelimiter (c : Char) : Bool := [' ', ',', '(', ')', '[', ']'].contains c

def IsPlainName (name : String) : Prop := ∀ c ∈ name.toList, isDelimiter c = false

instance (name : String) : Decidable (IsPlainName name) :=
  decidable_of_iff (name.toList.all fun c => !isDelimiter c) (by simp [IsPlainName])

def HasPlainElement (t : TypeDescriptor) : Prop :=
  ∀ name, t.element = .object name → IsPlainName name

/-- Neither the name of the method nor that of a class in its descriptor has a delimiter. -/
structure IsPlainMethod (m : MemberDecl) (d : MethodDescriptor) : Prop where
  name : IsPlainName m.name
  result : HasPlainElement d.result
  params : ∀ t ∈ d.params, HasPlainElement t

/-- Whether a parameter takes any number of arguments, so that its last pair of brackets is written
as dots. -/
def takesMany (access : UInt16) (types : List TypeDescriptor) (i : Nat) (t : TypeDescriptor) :
    Bool :=
  isVarargs access && i + 1 == types.length && decide (0 < t.dims)

theorem plain_elementName {t : TypeDescriptor} (h : HasPlainElement t) :
    ∀ c ∈ (elementName t.element).toList, isDelimiter c = false ∧ c ≠ '.' := by
  intro c hc
  cases he : t.element with
  | primitive p =>
    have hall : p.keyword.toList.all (fun c => !isDelimiter c && c != '.') = true := by
      cases p <;> decide
    rw [he] at hc
    simpa using List.all_eq_true.1 hall c hc
  | object name =>
    rw [he, elementName, lastPart, ← afterLast_eq_getLastD, String.toList_ofList] at hc
    obtain ⟨hname, hsep⟩ := of_mem_afterLast hc
    refine ⟨h name he c hname, ?_⟩
    rintro rfl
    cases hsep

def dimsText (dots : Bool) (dims : Nat) : String :=
  if dots then brackets (dims - 1) ++ "..." else brackets dims

theorem typeText_eq_dimsText (access : UInt16) (types : List TypeDescriptor) (i : Nat)
    (t : TypeDescriptor) : typeText access types i t =
      elementName t.element ++ dimsText (takesMany access types i t) t.dims := by
  rw [typeText, dimsText]
  simp only [takesMany, Bool.and_eq_true, beq_iff_eq, decide_eq_true_eq, and_assoc]

theorem length_brackets (dims : Nat) : (brackets dims).toList.length = 2 * dims := by
  simp [brackets]
  omega

/-- Dots make the length odd, so they and the dimensions are told by it. -/
theorem dimsText_inj {dots dots' : Bool} {dims dims' : Nat} (hdots : dots = true → 0 < dims)
    (hdots' : dots' = true → 0 < dims') (h : dimsText dots dims = dimsText dots' dims') :
    dots = dots' ∧ dims = dims' := by
  have hlength := congrArg (fun s => s.toList.length) h
  cases dots <;> cases dots' <;>
    simp [dimsText, length_brackets] at hlength hdots hdots' ⊢ <;> omega

theorem takeWhile_dimsText (dots : Bool) (dims : Nat) :
    (dimsText dots dims).toList.takeWhile (fun c => !isDelimiter c && c != '.') = [] := by
  cases dots with
  | false => cases dims <;> simp [dimsText, brackets, List.replicate_succ, isDelimiter]
  | true =>
    cases dims with
    | zero => rfl
    | succ dims => cases dims <;> simp [dimsText, brackets, List.replicate_succ, isDelimiter]

theorem mem_dimsText {dots : Bool} {dims : Nat} {c : Char} (h : c ∈ (dimsText dots dims).toList) :
    c ∈ ['[', ']', '.'] := by
  have hbrackets : ∀ n, c ∈ (brackets n).toList → c = '[' ∨ c = ']' := by
    intro n hn
    rw [brackets, String.toList_ofList] at hn
    obtain ⟨pair, hpair, hc⟩ := List.mem_flatten.1 hn
    rw [List.eq_of_mem_replicate hpair] at hc
    simpa using hc
  cases dots with
  | false =>
    obtain rfl | rfl := hbrackets dims h <;> decide
  | true =>
    rw [dimsText, if_pos rfl, String.toList_append] at h
    obtain h | h := List.mem_append.1 h
    · obtain rfl | rfl := hbrackets _ h <;> decide
    · have hdot : c = '.' := by simpa using h
      simp [hdot]

theorem elementText_inj {t t' : TypeDescriptor} (ht : HasPlainElement t) (ht' : HasPlainElement t')
    {dots dots' : Bool} (hdots : dots = true → 0 < t.dims) (hdots' : dots' = true → 0 < t'.dims)
    (h : elementName t.element ++ dimsText dots t.dims =
      elementName t'.element ++ dimsText dots' t'.dims) :
    elementName t.element = elementName t'.element ∧ t.dims = t'.dims ∧ dots = dots' := by
  have hlists := congrArg String.toList h
  rw [String.toList_append, String.toList_append] at hlists
  obtain ⟨hname, htext⟩ := append_inj_of_takeWhile
    (fun c hc => by simpa using plain_elementName ht c hc)
    (fun c hc => by simpa using plain_elementName ht' c hc)
    (takeWhile_dimsText dots t.dims) (takeWhile_dimsText dots' t'.dims) hlists
  obtain ⟨heq, hdims⟩ := dimsText_inj hdots hdots' (String.toList_injective htext)
  exact ⟨String.toList_injective hname, hdims, heq⟩

theorem not_mem_typeText {t : TypeDescriptor} (ht : HasPlainElement t) (access : UInt16)
    (types : List TypeDescriptor) (i : Nat) {c : Char} (hc : isDelimiter c = true)
    (hbracket : c ∉ ['[', ']', '.']) : c ∉ (typeText access types i t).toList := by
  rw [typeText_eq_dimsText, String.toList_append]
  intro hmem
  obtain h | h := List.mem_append.1 hmem
  · rw [(plain_elementName ht c h).1] at hc
    cases hc
  · exact hbracket (mem_dimsText h)

theorem pos_of_takesMany {access : UInt16} {types : List TypeDescriptor} {i : Nat}
    {t : TypeDescriptor} (h : takesMany access types i t = true) : 0 < t.dims := by
  rw [takesMany, Bool.and_eq_true] at h
  exact of_decide_eq_true h.2

theorem toList_parameter (text : String) (slot : Nat) :
    (text ++ " p" ++ toString slot).toList = text.toList ++ ' ' :: 'p' :: Nat.toDigits 10 slot := by
  simp

theorem comma_not_mem_slotName (slot : Nat) : ',' ∉ 'p' :: Nat.toDigits 10 slot := by
  intro h
  obtain h | h := List.mem_cons.1 h
  · cases h
  · exact absurd (Nat.isDigit_of_mem_toDigits (by decide) (by decide) h) (by decide)

theorem parameter_inj {t t' : TypeDescriptor} (ht : HasPlainElement t) (ht' : HasPlainElement t')
    {access access' : UInt16} {types types' : List TypeDescriptor} {i i' slot slot' : Nat}
    (h : typeText access types i t ++ " p" ++ toString slot =
      typeText access' types' i' t' ++ " p" ++ toString slot') :
    (elementName t.element = elementName t'.element ∧ t.dims = t'.dims ∧
      takesMany access types i t = takesMany access' types' i' t') ∧ slot = slot' := by
  have hlists := congrArg String.toList h
  rw [toList_parameter, toList_parameter] at hlists
  obtain ⟨htext, hslot⟩ := append_cons_inj_of_not_mem
    (not_mem_typeText ht access types i (by decide) (by decide))
    (not_mem_typeText ht' access' types' i' (by decide) (by decide)) hlists
  have htypes := String.toList_injective htext
  rw [typeText_eq_dimsText, typeText_eq_dimsText] at htypes
  refine ⟨elementText_inj ht ht' pos_of_takesMany pos_of_takesMany htypes, ?_⟩
  apply eq_of_toString_eq
  rw [Nat.toString_eq_ofList_toDigits, Nat.toString_eq_ofList_toDigits, (List.cons.inj hslot).2]

theorem exists_of_mem_parameters {access : UInt16} {types : List TypeDescriptor} {text : String}
    (h : text ∈ parameters access types) : ∃ i t, types[i]? = some t ∧
      text = typeText access types i t ++ " p" ++ toString (slotAt access types i) := by
  obtain ⟨i, hi⟩ := List.mem_iff_getElem?.1 h
  rw [getElem?_parameters] at hi
  obtain ⟨t, ht, rfl⟩ := Option.map_eq_some_iff.1 hi
  exact ⟨i, t, ht, rfl⟩

theorem plain_of_mem_parameters {access : UInt16} {types : List TypeDescriptor}
    (h : ∀ t ∈ types, HasPlainElement t) :
    ∀ text ∈ parameters access types, text ≠ "" ∧ ',' ∉ text.toList := by
  intro text htext
  obtain ⟨i, t, ht, rfl⟩ := exists_of_mem_parameters htext
  have hplain := h t (List.mem_of_getElem? ht)
  constructor
  · intro hempty
    have hlist := congrArg String.toList hempty
    rw [toList_parameter] at hlist
    simp at hlist
  · rw [toList_parameter]
    intro hmem
    obtain hmem | hmem := List.mem_append.1 hmem
    · exact not_mem_typeText hplain access types i (by decide) (by decide) hmem
    · obtain hmem | hmem := List.mem_cons.1 hmem
      · cases hmem
      · exact comma_not_mem_slotName _ hmem

theorem methodLine_eq_spaced (m : MemberDecl) (d : MethodDescriptor) : methodLine m d =
    " ".intercalate ((applicable .forMethod m.access).map Flag.keyword ++
      [typeName d.result, m.name]) ++ "(" ++ ", ".intercalate (parameters m.access d.params) ++
        ")" := by
  rw [methodLine, sort_applicable, ← modifiers_append _ (by simp)]
  simp [String.append_assoc]

theorem typeName_eq_dimsText (t : TypeDescriptor) :
    typeName t = elementName t.element ++ dimsText false t.dims := typeName_eq t

theorem IsPlainMethod.not_mem_word {m : MemberDecl} {d : MethodDescriptor} (h : IsPlainMethod m d)
    {c : Char} (hc : c ∈ [' ', '(']) : ∀ w ∈
      (applicable .forMethod m.access).map Flag.keyword ++ [typeName d.result, m.name],
        c ∉ w.toList := by
  have hdelimiter : isDelimiter c = true ∧ c ∉ ['[', ']', '.'] ∧ c.isAlpha = false ∧ c ≠ '@' := by
    obtain rfl | rfl : c = ' ' ∨ c = '(' := by simpa using hc
    · decide
    · decide
  obtain ⟨hdel, hbracket, halpha, hat⟩ := hdelimiter
  intro w hw hmem
  obtain hw | hw := List.mem_append.1 hw
  · obtain ⟨f, -, rfl⟩ := List.mem_map.1 hw
    exact f.not_mem_keyword halpha hat hmem
  obtain rfl | hw := List.mem_cons.1 hw
  · rw [typeName_eq_dimsText, String.toList_append] at hmem
    obtain hmem | hmem := List.mem_append.1 hmem
    · rw [(plain_elementName h.result c hmem).1] at hdel
      cases hdel
    · exact hbracket (mem_dimsText hmem)
  · rw [List.mem_singleton.1 hw] at hmem
    rw [h.name c hmem] at hdel
    cases hdel

theorem methodLine_inj {m m' : MemberDecl} {d d' : MethodDescriptor} (hp : IsPlainMethod m d)
    (hp' : IsPlainMethod m' d') (h : methodLine m d = methodLine m' d') :
    applicable .forMethod m.access = applicable .forMethod m'.access ∧ m.name = m'.name ∧
      typeName d.result = typeName d'.result ∧
        parameters m.access d.params = parameters m'.access d'.params := by
  have hopen : ∀ {m : MemberDecl} {d : MethodDescriptor}, IsPlainMethod m d →
      '(' ∉ (" ".intercalate ((applicable .forMethod m.access).map Flag.keyword ++
        [typeName d.result, m.name])).toList := by
    intro m d hp hmem
    obtain hspace | ⟨w, hw, hmem⟩ := of_mem_spaced hmem
    · cases hspace
    · exact hp.not_mem_word (by simp) w hw hmem
  have hlists := congrArg String.toList h
  rw [methodLine_eq_spaced, methodLine_eq_spaced] at hlists
  simp only [String.toList_append, List.append_assoc] at hlists
  obtain ⟨hfront, hback⟩ := append_cons_inj_of_not_mem (hopen hp) (hopen hp') hlists
  have hparams := String.toList_injective (List.append_cancel_right hback)
  have hwords := eq_of_spaced_eq (hp.not_mem_word (by simp)) (hp'.not_mem_word (by simp)) (by simp)
    (by simp) (String.toList_injective hfront)
  obtain ⟨hflags, hnames⟩ := List.append_inj' hwords rfl
  obtain ⟨hresult, hname⟩ := List.cons.inj hnames
  exact ⟨List.map_injective_iff.2 Flag.keyword_injective hflags, (List.cons.inj hname).1, hresult,
    eq_of_listed_eq (plain_of_mem_parameters hp.params) (plain_of_mem_parameters hp'.params)
      hparams⟩

/-- From the declaration of a method, its flags and its name can be told, the short names and the
dimensions of its types, the slot of each parameter, and whether the last one takes any number of
arguments. -/
theorem methodDeclaration_unambiguous {m m' : MemberDecl} {d d' : MethodDescriptor}
    (hd : MethodDescriptor.parse m.descriptor = .ok d)
    (hd' : MethodDescriptor.parse m'.descriptor = .ok d') (hp : IsPlainMethod m d)
    (hp' : IsPlainMethod m' d') {text : String} (h : (methodDeclaration m).run.value = .ok text)
    (h' : (methodDeclaration m').run.value = .ok text) :
    applicable .forMethod m.access = applicable .forMethod m'.access ∧ m.name = m'.name ∧
      elementName d.result.element = elementName d'.result.element ∧
      d.result.dims = d'.result.dims ∧ d.params.length = d'.params.length ∧
      ∀ i t t', d.params[i]? = some t → d'.params[i]? = some t' →
        elementName t.element = elementName t'.element ∧ t.dims = t'.dims ∧
          slotAt m.access d.params i = slotAt m'.access d'.params i ∧
          takesMany m.access d.params i t = takesMany m'.access d'.params i t' := by
  rw [value_methodDeclaration, hd] at h
  rw [value_methodDeclaration, hd'] at h'
  have hline : methodLine m d = methodLine m' d' := Except.ok.inj (h.trans h'.symm)
  obtain ⟨hflags, hname, hresult, hparams⟩ := methodLine_inj hp hp' hline
  rw [typeName_eq_dimsText, typeName_eq_dimsText] at hresult
  obtain ⟨helement, hdims, -⟩ := elementText_inj hp.result hp'.result (by simp) (by simp) hresult
  have hlength := congrArg List.length hparams
  rw [length_parameters, length_parameters] at hlength
  refine ⟨hflags, hname, helement, hdims, hlength, ?_⟩
  intro i t t' ht ht'
  have htext := congrArg (fun texts => texts[i]?) hparams
  simp only [getElem?_parameters, ht, ht', Option.map_some, Option.some.injEq] at htext
  obtain ⟨⟨hname, hdims, hmany⟩, hslot⟩ := parameter_inj (hp.params t (List.mem_of_getElem? ht))
    (hp'.params t' (List.mem_of_getElem? ht')) htext
  exact ⟨hname, hdims, hslot, hmany⟩

/-- Two methods that return classes called `static`, which differ in packages and in bits that are
not flags of methods. -/
theorem methodDeclaration_unambiguous_static :
    let m : MemberDecl := ⟨"A", "m", 0x0089, "(J[[La/String;)Lb/static;"⟩
    let m' : MemberDecl := ⟨"B", "m", 0x10C9, "(J[[Lc/d/String;)Lstatic;"⟩
    let t : TypeDescriptor := ⟨2, .object "a/String"⟩
    let t' : TypeDescriptor := ⟨2, .object "c/d/String"⟩
    let d : MethodDescriptor := ⟨[⟨0, .primitive .long⟩, t], ⟨0, .object "b/static"⟩⟩
    let d' : MethodDescriptor := ⟨[⟨0, .primitive .long⟩, t'], ⟨0, .object "static"⟩⟩
    let text := "public static static m(long p0, String[]... p2)"
    MethodDescriptor.parse m.descriptor = .ok d ∧ MethodDescriptor.parse m'.descriptor = .ok d' ∧
      IsPlainMethod m d ∧ IsPlainMethod m' d' ∧ (methodDeclaration m).run.value = .ok text ∧
      (methodDeclaration m').run.value = .ok text ∧
      applicable .forMethod m.access = applicable .forMethod m'.access ∧
      elementName t.element = elementName t'.element ∧
      slotAt m.access d.params 1 = slotAt m'.access d'.params 1 ∧
      takesMany m.access d.params 1 t = takesMany m'.access d'.params 1 t' := by
  intro m m' t t' d d' text
  have hd : MethodDescriptor.parse m.descriptor = .ok d := by decide +kernel
  have hd' : MethodDescriptor.parse m'.descriptor = .ok d' := by decide +kernel
  have hp : IsPlainMethod m d := by
    constructor
    · decide
    · rintro _ ⟨⟩
      decide
    · simp only [d, t, List.mem_cons, List.not_mem_nil, or_false, forall_eq_or_imp, forall_eq]
      exact ⟨by rintro _ ⟨⟩, by rintro _ ⟨⟩; decide⟩
  have hp' : IsPlainMethod m' d' := by
    constructor
    · decide
    · rintro _ ⟨⟩
      decide
    · simp only [d', t', List.mem_cons, List.not_mem_nil, or_false, forall_eq_or_imp, forall_eq]
      exact ⟨by rintro _ ⟨⟩, by rintro _ ⟨⟩; decide⟩
  have h : (methodDeclaration m).run.value = .ok text := by decide +kernel
  have h' : (methodDeclaration m').run.value = .ok text := by decide +kernel
  obtain ⟨hflags, -, -, -, -, hparams⟩ := methodDeclaration_unambiguous hd hd' hp hp' h h'
  obtain ⟨hname, -, hslot, hmany⟩ := hparams 1 t t' rfl rfl
  exact ⟨hd, hd', hp, hp', h, h', hflags, hname, hslot, hmany⟩

end Print

end ClassSketch
