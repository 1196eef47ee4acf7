import ClassSketch.Print.Member
import ClassSketch.Proofs.DescriptorGrammar
import Mathlib.Algebra.Ring.Nat
import Mathlib.Data.List.Nodup

namespace ClassSketch

namespace Text

theorem afterLast_of_forall {p : Char → Bool} {cs : List Char} (h : ∀ c ∈ cs, p c = false) :
    afterLast p cs = cs := by
  rw [afterLast, List.takeWhile_eq_self_iff.2 (by simpa using h), List.reverse_reverse]

theorem afterLast_append {p : Char → Bool} {back : List Char} (h : ∀ b ∈ back, p b = false)
    (front : List Char) : afterLast p (front ++ back) = afterLast p front ++ back := by
  have hback : ∀ b ∈ back.reverse, (!p b) = true := by simpa using h
  rw [afterLast, afterLast, List.reverse_append, List.takeWhile_append_of_pos hback,
    List.reverse_append, List.reverse_reverse]

theorem afterLast_append_cons {p : Char → Bool} {c : Char} {back : List Char} (hc : p c)
    (h : ∀ b ∈ back, p b = false) (front : List Char) :
    afterLast p (front ++ c :: back) = back := by
  rw [← List.singleton_append, ← List.append_assoc, afterLast_append h]
  simp [afterLast, hc]

theorem afterLast_cases (p : Char → Bool) (cs : List Char) : (∀ c ∈ cs, p c = false) ∨
    ∃ front c back, cs = front ++ c :: back ∧ p c ∧ ∀ b ∈ back, p b = false := by
  by_cases hcs : ∃ c ∈ cs, p c
  · obtain ⟨front, c, back, h, hc, hback⟩ := exists_last hcs
    exact .inr ⟨front, c, back, h, hc, fun b hb => by simpa using hback b hb⟩
  · exact .inl fun c hmem => by simpa using fun hc => hcs ⟨c, hmem, hc⟩

theorem afterLast_eq_getLastD (p : Char → Bool) (cs : List Char) :
    afterLast p cs = (cs.splitOnP p).getLastD [] := by
  rcases afterLast_cases p cs with hcs | ⟨front, c, back, rfl, hc, hback⟩
  · rw [afterLast_of_forall hcs, List.splitOnP_eq_singleton hcs]
    rfl
  · rw [afterLast_append_cons hc hback, List.splitOnP_append_cons _ _ hc,
      List.splitOnP_eq_singleton hback]
    simp

end Text

namespace Print

open Access Descriptor Text

def lastPart (name : String) : String :=
  String.ofList ((name.toList.splitOnP isSeparator).getLastD [])

def elementName : Element → String
  | .primitive p => p.keyword
  | .object name => lastPart name

def brackets (dims : Nat) : String := String.ofList (List.replicate dims ['[', ']']).flatten

theorem brackets_succ (dims : Nat) : brackets (dims + 1) = brackets dims ++ "[]" := by
  rw [brackets, brackets, List.replicate_succ', List.flatten_concat, String.ofList_append]

theorem isSeparator_of_mem_brackets (dims : Nat) :
    ∀ c ∈ (List.replicate dims ['[', ']']).flatten, isSeparator c = false := by
  intro c hc
  have hpair : ∀ b ∈ ['[', ']'], isSeparator b = false := by simp [isSeparator]
  obtain ⟨pair, hmem, hc⟩ := List.mem_flatten.1 hc
  exact hpair c (List.eq_of_mem_replicate hmem ▸ hc)

theorem afterLast_dots (name : List Char) :
    afterLast isSeparator (name.map fun c => if c = '/' then '.' else c) =
      afterLast isSeparator name := by
  have hkept : ∀ back : List Char, (∀ b ∈ back, isSeparator b = false) →
      back.map (fun c => if c = '/' then '.' else c) = back := by
    intro back hback
    refine (List.map_congr_left fun b hb => if_neg ?_).trans (List.map_id' back)
    rintro rfl
    exact absurd (hback _ hb) (by decide)
  rcases afterLast_cases isSeparator name with hname | ⟨front, c, back, rfl, hc, hback⟩
  · rw [hkept name hname]
  · have hdot : isSeparator (if c = '/' then '.' else c) := by
      split
      · rfl
      · exact hc
    rw [List.map_append, List.map_cons, hkept back hback, afterLast_append_cons hdot hback,
      afterLast_append_cons hc hback]

theorem afterLast_className (e : Element) :
    afterLast isSeparator e.className = (elementName e).toList := by
  cases e with
  | primitive p => cases p <;> rfl
  | object name =>
    rw [Element.className, afterLast_dots, afterLast_eq_getLastD, elementName, lastPart,
      String.toList_ofList]

theorem typeName_eq (t : TypeDescriptor) :
    typeName t = elementName t.element ++ brackets t.dims := by
  rw [typeName, TypeDescriptor.className, afterLast_append (isSeparator_of_mem_brackets t.dims),
    afterLast_className, String.ofList_append, String.ofList_toList, brackets]

theorem replaceLast_append (text target replacement : String) :
    replaceLast (text ++ target) target replacement = text ++ replacement := by
  have hends : target.toList.reverse.isPrefixOf (text ++ target).toList.reverse = true := by
    rw [String.toList_append, List.reverse_append, List.isPrefixOf_iff_prefix]
    exact List.prefix_append _ _
  rw [replaceLast, replaceFirstReversed.eq_def, if_pos hends]
  apply String.toList_injective
  simp

theorem parameterType_eq (takesMany : Bool) (t : TypeDescriptor) :
    parameterType takesMany t = elementName t.element ++
      if takesMany ∧ 0 < t.dims then brackets (t.dims - 1) ++ "..." else brackets t.dims := by
  rw [parameterType, typeName_eq, TypeDescriptor.isArray]
  cases takesMany with
  | false => simp
  | true =>
    cases hdims : t.dims with
    | zero => simp
    | succ n =>
      simp [brackets_succ, ← String.append_assoc, replaceLast_append]

def firstSlot (access : UInt16) : Nat := if isStatic access then 0 else 1

/-- The sizes of the parameters before it lead to the slot of a parameter. -/
def slotAt (access : UInt16) (types : List TypeDescriptor) (i : Nat) : Nat :=
  firstSlot access + ((types.take i).map TypeDescriptor.size).sum

theorem size_pos {t : TypeDescriptor} (h : t.WellFormed) : 0 < t.size := by
  obtain ⟨dims, e⟩ := t
  rw [TypeDescriptor.size]
  split
  · decide
  · cases e with
    | primitive p =>
      rw [TypeDescriptor.WellFormed, Element.WellFormed] at h
      cases p <;> simp_all [Element.size, Primitive.size]
    | object => exact Nat.one_pos

theorem slotAt_succ (access : UInt16) {types : List TypeDescriptor} {i : Nat} {t : TypeDescriptor}
    (h : types[i]? = some t) : slotAt access types (i + 1) = slotAt access types i + t.size := by
  rw [slotAt, slotAt, List.take_add_one, h]
  simp [Nat.add_assoc]

theorem slotAt_lt (access : UInt16) {types : List TypeDescriptor} (h : ∀ t ∈ types, t.WellFormed)
    {i j : Nat} (hij : i < j) (hj : j < types.length) :
    slotAt access types i < slotAt access types j := by
  induction j with
  | zero => exact absurd hij (Nat.not_lt_zero i)
  | succ j ih =>
    have ht : types[j]? = some types[j] := List.getElem?_eq_getElem (by omega)
    have hpos := size_pos (h _ (List.mem_of_getElem? ht))
    rw [slotAt_succ access ht]
    rcases Nat.lt_succ_iff_lt_or_eq.1 hij with hlt | rfl
    · have := ih hlt (by omega)
      omega
    · omega

theorem slotAt_length (access : UInt16) (types : List TypeDescriptor) (result : TypeDescriptor) :
    slotAt access types types.length =
      firstSlot access + MethodDescriptor.argsSize ⟨types, result⟩ := by
  rw [slotAt, List.take_length, MethodDescriptor.argsSize]
  congr 1
  induction types with
  | nil => rfl
  | cons t types ih => rw [List.map_cons, List.sum_cons, ih, List.foldr_cons]

theorem parametersFrom_eq (varargs : Bool) (slot : Nat) (before : List String)
    (types : List TypeDescriptor) : parametersFrom varargs slot before types =
      before.reverse ++ parametersFrom varargs slot [] types := by
  induction types generalizing slot before with
  | nil => simp [parametersFrom]
  | cons t types ih =>
    rw [parametersFrom, parametersFrom, ih, ih (slot + t.size) [_]]
    simp

theorem parametersFrom_cons (varargs : Bool) (slot : Nat) (t : TypeDescriptor)
    (types : List TypeDescriptor) : parametersFrom varargs slot [] (t :: types) =
      (parameterType (varargs && types.isEmpty) t ++ " p" ++ toString slot) ::
        parametersFrom varargs (slot + t.size) [] types := by
  rw [parametersFrom, parametersFrom_eq]
  rfl

theorem getElem?_parametersFrom (varargs : Bool) (slot : Nat) (types : List TypeDescriptor)
    (i : Nat) : (parametersFrom varargs slot [] types)[i]? = types[i]?.map fun t =>
      parameterType (varargs && i + 1 == types.length) t ++ " p" ++
        toString (slot + ((types.take i).map TypeDescriptor.size).sum) := by
  induction types generalizing slot i with
  | nil => rfl
  | cons t types ih =>
    rw [parametersFrom_cons]
    cases i with
    | zero => cases types <;> simp
    | succ i => simp [ih, Nat.add_assoc]

/-- The type of a parameter as it is written: with dots for a pair of brackets where it is the last
one, is an array, and takes any number of arguments. -/
def typeText (access : UInt16) (types : List TypeDescriptor) (i : Nat) (t : TypeDescriptor) :
    String :=
  elementName t.element ++
    if isVarargs access ∧ i + 1 = types.length ∧ 0 < t.dims then brackets (t.dims - 1) ++ "..."
    else brackets t.dims

theorem getElem?_parameters (access : UInt16) (types : List TypeDescriptor) (i : Nat) :
    (parameters access types)[i]? = types[i]?.map fun t =>
      typeText access types i t ++ " p" ++ toString (slotAt access types i) := by
  rw [parameters, getElem?_parametersFrom]
  simp only [parameterType_eq, typeText, slotAt, firstSlot, Bool.and_eq_true, beq_iff_eq, and_assoc]

theorem length_parameters (access : UInt16) (types : List TypeDescriptor) :
    (parameters access types).length = types.length := by
  rw [parameters]
  generalize (if isStatic access then 0 else 1) = slot
  induction types generalizing slot with
  | nil => rfl
  | cons t types ih => rw [parametersFrom_cons, List.length_cons, ih, List.length_cons]

def parameterName (text : String) : String := String.ofList (afterLast (· = ' ') text.toList)

theorem parameterName_append (type : String) (slot : Nat) :
    parameterName (type ++ " p" ++ toString slot) = "p" ++ toString slot := by
  have hdigits : ∀ c ∈ 'p' :: Nat.toDigits 10 slot, decide (c = ' ') = false := by
    intro c hc
    rcases List.mem_cons.1 hc with rfl | hc
    · decide
    · have hdigit := Nat.isDigit_of_mem_toDigits (by decide) (by decide) hc
      rw [decide_eq_false_iff_not]
      rintro rfl
      exact absurd hdigit (by decide)
  have htext : (type ++ " p" ++ toString slot).toList =
      type.toList ++ ' ' :: 'p' :: Nat.toDigits 10 slot := by
    simp
  rw [parameterName, htext, afterLast_append_cons (by decide) hdigits, String.ofList_cons,
    Nat.toString_eq_ofList_toDigits]
  rfl

theorem eq_of_toString_eq {m n : Nat} (h : toString m = toString n) : m = n := by
  rw [Nat.toString_eq_ofList_toDigits, Nat.toString_eq_ofList_toDigits] at h
  have hdigits := congrArg (Nat.ofDigitChars 10 · 0) (String.ofList_injective h)
  simpa only [Nat.ofDigitChars_ten_toDigits] using hdigits

theorem nodup_parameterName (access : UInt16) {types : List TypeDescriptor}
    (h : ∀ t ∈ types, t.WellFormed) : ((parameters access types).map parameterName).Nodup := by
  have hname : ∀ {i : Nat} {t : TypeDescriptor}, types[i]? = some t →
      ((parameters access types).map parameterName)[i]? =
        some ("p" ++ toString (slotAt access types i)) := by
    intro i t ht
    rw [List.getElem?_map, getElem?_parameters, ht, Option.map_some, Option.map_some,
      parameterName_append]
  rw [List.nodup_iff_getElem?_ne_getElem?]
  intro i j hij hj
  rw [List.length_map, length_parameters] at hj
  rw [hname (List.getElem?_eq_getElem (hij.trans hj)), hname (List.getElem?_eq_getElem hj)]
  have hlt := slotAt_lt access h hij hj
  intro heq
  exact hlt.ne (eq_of_toString_eq ((String.append_right_inj _).1 (Option.some.inj heq)))

/-- Each parameter has the short type of its element with a pair of brackets for each dimension,
and a name that tells its slot. Only the last type may differ from this, in its last pair of
brackets. The slots grow, so no name is given twice, and behind the last one all arguments have
their place. -/
theorem parameters_types_and_slots (access : UInt16) (types : List TypeDescriptor) :
    (parameters access types).length = types.length ∧
      (∀ i t, types[i]? = some t → (parameters access types)[i]? =
        some (typeText access types i t ++ " p" ++ toString (slotAt access types i))) ∧
      ((∀ t ∈ types, t.WellFormed) →
        (∀ i j, i < j → j < types.length → slotAt access types i < slotAt access types j) ∧
          ((parameters access types).map parameterName).Nodup) ∧
      ∀ front last result, types = front ++ [last] →
        slotAt access types front.length + last.size =
          firstSlot access + MethodDescriptor.argsSize ⟨types, result⟩ := by
  refine ⟨length_parameters access types, ?_, ?_, ?_⟩
  · intro i t ht
    rw [getElem?_parameters, ht, Option.map_some]
  · intro h
    exact ⟨fun i j => slotAt_lt access h, nodup_parameterName access h⟩
  · rintro front last result rfl
    have hlast : (front ++ [last])[front.length]? = some last := by simp
    rw [← slotAt_succ access hlast, ← slotAt_length, List.length_append]
    rfl

/-- The last of three parameters takes any number of arguments, and behind a `long` there is a class
whose name has brackets and dots of its own. -/
theorem parameters_types_and_slots_varargs :
    let types : List TypeDescriptor :=
      [⟨0, .primitive .long⟩, ⟨1, .object "a/b.c[]"⟩, ⟨2, .primitive .double⟩]
    MethodDescriptor.parse "(J[La/b.c[];[[D)V" = .ok ⟨types, .void⟩ ∧
      (parameters 0x0080 types)[1]? = some "c[][] p3" ∧
      (parameters 0x0080 types)[2]? = some "double[]... p4" ∧
      ((parameters 0x0080 types).map parameterName).Nodup ∧
      slotAt 0x0080 types 2 + 1 = 1 + MethodDescriptor.argsSize ⟨types, .void⟩ := by
  intro types
  have hparse : MethodDescriptor.parse "(J[La/b.c[];[[D)V" = .ok ⟨types, .void⟩ := by decide +kernel
  have hwell : ∀ t ∈ types, t.WellFormed := (MethodDescriptor.parse_eq_ok_iff.1 hparse).1.1
  obtain ⟨-, htext, hnames, hend⟩ := parameters_types_and_slots 0x0080 types
  exact ⟨hparse, (htext 1 _ rfl).trans (by decide +kernel),
    (htext 2 _ rfl).trans (by decide +kernel), (hnames hwell).2,
    hend (types.take 2) _ .void rfl⟩

end Print

end ClassSketch
