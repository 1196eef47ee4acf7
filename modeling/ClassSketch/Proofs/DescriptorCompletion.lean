import ClassSketch.Proofs.DescriptorFaults

namespace ClassSketch.Descriptor

open List (replicate)

theorem utf8ByteSize_ofList (cs : List Char) : (String.ofList cs).utf8ByteSize = byteLength cs := by
  induction cs with
  | nil => rfl
  | cons c cs ih =>
    rw [String.ofList_cons, String.utf8ByteSize_append, String.utf8ByteSize_singleton, ih,
      byteLength_cons]

theorem ofList_append_eq (cs : List Char) (more : String) :
    String.ofList cs ++ more = String.ofList (cs ++ more.toList) := by
  rw [String.ofList_append, String.ofList_toList]

def Accepts {α : Type} (parse : String → Except Fault α) (s : String) : Prop :=
  ∃ a, parse s = .ok a

theorem not_accepts_append {α : Type} {parse : String → Except Fault α} {cs : List Char}
    (h : ∀ more, ∃ fault, parse (String.ofList (cs ++ more)) = .error fault) (more : String) :
    ¬ Accepts parse (String.ofList cs ++ more) := by
  rintro ⟨a, ha⟩
  obtain ⟨fault, hfault⟩ := h more.toList
  rw [ofList_append_eq, hfault] at ha
  cases ha

/-- What a fault found in `d` tells where the texts in demand are the `accepted` ones, and where
nothing may stand behind a `complete` one. -/
structure Fault.Explains (accepted complete : String → Prop) (d : String) (fault : Fault) :
    Prop where
  incomplete_iff : fault.Incomplete ↔ ∃ more, accepted (d ++ more)
  unknownTag {c : Char} {offset : Nat} : fault = .unknownTag c offset → ∃ before after,
    d = before ++ String.singleton c ++ after ∧ before.utf8ByteSize = offset ∧
      (∃ more, accepted (before ++ more)) ∧
      ∀ more, ¬ accepted (before ++ String.singleton c ++ more)
  emptyClass {offset : Nat} : fault = .emptyClass offset → ∃ before after,
    d = before ++ "L;" ++ after ∧ before.utf8ByteSize = offset ∧
      ∃ more, accepted (before ++ "L" ++ more)
  trailing {offset : Nat} : fault = .trailing offset → ∃ before after,
    d = before ++ after ∧ after ≠ "" ∧ before.utf8ByteSize = offset ∧ complete before

variable {accepted complete : String → Prop}

theorem Fault.Explains.of_incomplete {d : String} {fault : Fault} (h : fault.Incomplete)
    (more : String) (hmore : accepted (d ++ more)) : fault.Explains accepted complete d where
  incomplete_iff := iff_of_true h ⟨more, hmore⟩
  unknownTag he := (he ▸ h : (Fault.unknownTag ..).Incomplete).elim
  emptyClass he := (he ▸ h : (Fault.emptyClass _).Incomplete).elim
  trailing he := (he ▸ h : (Fault.trailing _).Incomplete).elim

theorem Fault.Explains.missingOpenParen {d : String} (h : ∀ more, ¬ accepted (d ++ more)) :
    Fault.missingOpenParen.Explains accepted complete d where
  incomplete_iff := iff_of_false id fun ⟨more, hmore⟩ => h more hmore
  unknownTag := nofun
  emptyClass := nofun
  trailing := nofun

theorem Fault.Explains.misplacedVoid {d : String} (h : ∀ more, ¬ accepted (d ++ more)) :
    Fault.misplacedVoid.Explains accepted complete d where
  incomplete_iff := iff_of_false id fun ⟨more, hmore⟩ => h more hmore
  unknownTag := nofun
  emptyClass := nofun
  trailing := nofun

theorem Fault.Explains.ofTrailing {before after : List Char} (hafter : after ≠ [])
    (hbefore : complete (String.ofList before))
    (h : ∀ more, ¬ accepted (String.ofList (before ++ after) ++ more)) :
    (Fault.trailing (byteLength before)).Explains accepted complete
      (String.ofList (before ++ after)) where
  incomplete_iff := iff_of_false id fun ⟨more, hmore⟩ => h more hmore
  unknownTag := nofun
  emptyClass := nofun
  trailing := by
    rintro p ⟨⟩
    exact ⟨String.ofList before, String.ofList after, String.ofList_append, by simpa using hafter,
      utf8ByteSize_ofList before, hbefore⟩

def BeginsType (cs : List Char) : Prop :=
  ∃ (more : List Char) (t : TypeDescriptor), t.WellFormed ∧ cs ++ more = t.encode

theorem beginsType_brackets (dims : Nat) : BeginsType (replicate dims '[') :=
  ⟨['I'], ⟨dims, .primitive .int⟩, by simp [TypeDescriptor.WellFormed, Element.WellFormed], rfl⟩

theorem beginsType_class (dims : Nat) {name : List Char} (h : ';' ∉ name) :
    BeginsType (replicate dims '[' ++ 'L' :: name) := by
  refine ⟨['x', ';'], ⟨dims, .object (String.ofList (name ++ ['x']))⟩, ?_, ?_⟩
  · rw [TypeDescriptor.WellFormed, Element.WellFormed, String.toList_ofList]
    simpa using h
  · simp [TypeDescriptor.encode, Element.encode]

namespace NoType

variable {o : Nat} {cs : List Char} {fault : Fault}

theorem begins (h : NoType o cs fault) (hf : fault.Incomplete) : BeginsType cs := by
  cases h with
  | brackets dims => exact beginsType_brackets dims
  | openName dims hname => exact beginsType_class dims hname
  | emptyName => exact hf.elim
  | unknownTag => exact hf.elim
  | voidArray => exact hf.elim

theorem ne_nil (h : NoType o cs fault) (hf : ¬ fault.Incomplete) : cs ≠ [] := by
  cases h with
  | brackets => exact (hf trivial).elim
  | openName => exact (hf trivial).elim
  | emptyName => simp
  | unknownTag => simp
  | voidArray => simp

theorem append (h : NoType o cs fault) (hf : ¬ fault.Incomplete) (more : List Char) :
    NoType o (cs ++ more) fault := by
  cases h with
  | brackets dims => exact (hf trivial).elim
  | openName dims hname => exact (hf trivial).elim
  | emptyName dims rest =>
    rw [List.append_assoc]
    exact .emptyName dims (rest ++ more)
  | unknownTag dims rest htag hclass hbracket =>
    rw [List.append_assoc]
    exact .unknownTag dims (rest ++ more) htag hclass hbracket
  | voidArray dims rest =>
    rw [List.append_assoc]
    exact .voidArray dims (rest ++ more)

theorem of_unknownTag {c : Char} {p : Nat} (h : NoType o cs (.unknownTag c p)) :
    ∃ before after, cs = before ++ c :: after ∧ o + byteLength before = p ∧ BeginsType before ∧
      NoType o (before ++ [c]) (.unknownTag c p) := by
  cases h with
  | unknownTag dims rest htag hclass hbracket =>
    exact ⟨replicate dims '[', rest, rfl, by rw [byteLength_brackets], beginsType_brackets dims,
      .unknownTag dims [] htag hclass hbracket⟩

theorem of_emptyClass {p : Nat} (h : NoType o cs (.emptyClass p)) :
    ∃ before after, cs = before ++ 'L' :: ';' :: after ∧ o + byteLength before = p ∧
      BeginsType (before ++ ['L']) := by
  cases h with
  | emptyName dims rest =>
    exact ⟨replicate dims '[', rest, rfl, by rw [byteLength_brackets],
      beginsType_class dims List.not_mem_nil⟩

end NoType

/-- A type is to be read behind `front`, from a text whose first character is one that `starts`. -/
structure Awaits (accepted : String → Prop) (front : List Char) (starts : Char → Prop) : Prop where
  completes {cs : List Char} : BeginsType cs → ∃ more, accepted (String.ofList (front ++ cs) ++ more)
  refuses {c : Char} {rest : List Char} {fault : Fault} : starts c →
    NoType (byteLength front) (c :: rest) fault → ¬ accepted (String.ofList (front ++ c :: rest))

namespace Awaits

variable {front cs : List Char} {starts : Char → Prop} {fault : Fault}

theorem refuses_append (h : Awaits accepted front starts) (hcs : ∀ c ∈ cs.head?, starts c)
    (hno : NoType (byteLength front) cs fault) (hf : ¬ fault.Incomplete) (more : String) :
    ¬ accepted (String.ofList (front ++ cs) ++ more) := by
  have happend := hno.append hf more.toList
  obtain ⟨c, rest, rfl⟩ := List.exists_cons_of_ne_nil (hno.ne_nil hf)
  rw [ofList_append_eq, List.append_assoc]
  exact h.refuses (hcs c rfl) happend

theorem explains (h : Awaits accepted front starts) (hcs : ∀ c ∈ cs.head?, starts c)
    (hno : NoType (byteLength front) cs fault) :
    fault.Explains accepted complete (String.ofList (front ++ cs)) where
  incomplete_iff := by
    by_cases hf : fault.Incomplete
    · exact iff_of_true hf (h.completes (hno.begins hf))
    · exact iff_of_false hf fun ⟨more, hmore⟩ => h.refuses_append hcs hno hf more hmore
  unknownTag := by
    rintro c p rfl
    obtain ⟨before, after, rfl, hp, hbegins, hstop⟩ := hno.of_unknownTag
    refine ⟨String.ofList (front ++ before), String.ofList after, ?_, ?_, h.completes hbegins, ?_⟩
    · rw [← String.toList_inj]
      simp
    · rw [utf8ByteSize_ofList, byteLength_append, hp]
    · intro more
      have hhead : ∀ d ∈ (before ++ [c]).head?, starts d := by
        simpa [List.head?_append] using hcs
      have hcut : String.ofList (front ++ before) ++ String.singleton c =
          String.ofList (front ++ (before ++ [c])) := by
        rw [← String.toList_inj]
        simp
      rw [hcut]
      exact h.refuses_append hhead hstop id more
  emptyClass := by
    rintro p rfl
    obtain ⟨before, after, rfl, hp, hbegins⟩ := hno.of_emptyClass
    refine ⟨String.ofList (front ++ before), String.ofList after, ?_, ?_, ?_⟩
    · rw [← String.toList_inj]
      simp
    · rw [utf8ByteSize_ofList, byteLength_append, hp]
    · obtain ⟨more, hmore⟩ := h.completes hbegins
      have hcut : String.ofList (front ++ before) ++ "L" =
          String.ofList (front ++ (before ++ ['L'])) := by
        rw [← String.toList_inj]
        simp
      exact ⟨more, hcut ▸ hmore⟩
  trailing := by
    rintro p rfl
    cases hno

end Awaits

namespace TypeDescriptor

theorem parse_of_noField {cs : List Char} {fault : Fault} (h : NoField cs fault) :
    parse (String.ofList cs) = .error fault := by
  rwa [parse_eq_error_iff, String.toList_ofList]

theorem awaits : Awaits (Accepts parse) [] fun _ => True where
  completes := by
    rintro cs ⟨more, t, ht, hc⟩
    refine ⟨String.ofList more, t, parse_eq_ok_iff.2 ⟨ht, ?_⟩⟩
    rw [← String.ofList_append, List.nil_append, hc]
    rfl
  refuses _ hno := by
    rintro ⟨t, ht⟩
    rw [List.nil_append, parse_of_noField (.noType hno)] at ht
    cases ht

theorem explains_of_noField {cs : List Char} {fault : Fault} (h : NoField cs fault) :
    fault.Explains (Accepts parse) (fun s => Accepts parse s ∨ s = "V") (String.ofList cs) := by
  cases h with
  | empty => exact .of_incomplete trivial "I" ⟨⟨0, .primitive .int⟩, by decide⟩
  | noType h => exact awaits.explains (fun _ _ => trivial) h
  | @trailing t ht rest hrest =>
    refine .ofTrailing hrest ?_ (not_accepts_append fun more => ?_)
    · rcases ht with ht | rfl
      · exact .inl ⟨t, parse_eq_ok_iff.2 ⟨ht, rfl⟩⟩
      · exact .inr rfl
    · rw [List.append_assoc]
      exact ⟨_, parse_of_noField (.trailing ht (List.append_ne_nil_of_left_ne_nil hrest more))⟩
  | void =>
    refine .misplacedVoid (not_accepts_append fun more => ?_)
    cases more with
    | nil => exact ⟨_, parse_of_noField .void⟩
    | cons c more => exact ⟨_, parse_of_noField (.trailing (.inr rfl) (List.cons_ne_nil c more))⟩

end TypeDescriptor

namespace MethodDescriptor

theorem accepts_encode {m : MethodDescriptor} (hm : m.WellFormed) :
    Accepts parse (String.ofList m.encode) :=
  ⟨m, parse_eq_ok_iff.2 ⟨hm, rfl⟩⟩

variable {params : List TypeDescriptor}

theorem awaits_param (hp : ∀ t ∈ params, t.WellFormed) :
    Awaits (Accepts parse) (openParams params) (· ≠ ')') where
  completes := by
    rintro cs ⟨more, t, ht, hc⟩
    have hm : WellFormed ⟨params ++ [t], .void⟩ :=
      ⟨by simpa [or_imp, forall_and] using ⟨hp, ht⟩, .inl rfl⟩
    refine ⟨String.ofList (more ++ [')', 'V']), ?_⟩
    have hencode : openParams params ++ cs ++ (more ++ [')', 'V']) =
        encode ⟨params ++ [t], .void⟩ := by
      rw [List.append_assoc, ← List.append_assoc cs, hc, openParams_append]
      simp [encode, TypeDescriptor.void, TypeDescriptor.encode, Element.encode, Primitive.tag]
    rw [← String.ofList_append, hencode]
    exact accepts_encode hm
  refuses hc hno := by
    rintro ⟨m, hm⟩
    rw [(NoMethod.noParam hp (.noType hc hno)).parse_eq] at hm
    cases hm

theorem awaits_result (hp : ∀ t ∈ params, t.WellFormed) :
    Awaits (Accepts parse) (openParams params ++ [')']) fun _ => True where
  completes := by
    rintro cs ⟨more, t, ht, hc⟩
    have hm : WellFormed ⟨params, t⟩ := ⟨hp, .inr ht⟩
    refine ⟨String.ofList more, ?_⟩
    rw [← String.ofList_append, List.append_assoc, hc, ← encode_eq ⟨params, t⟩]
    exact accepts_encode hm
  refuses _ hno := by
    rintro ⟨m, hm⟩
    rw [(NoMethod.noResult hp hno).parse_eq] at hm
    cases hm

theorem explains_of_noMethod {cs : List Char} {fault : Fault} (h : NoMethod cs fault) :
    fault.Explains (Accepts parse) (Accepts parse) (String.ofList cs) := by
  cases h with
  | empty => exact .of_incomplete trivial "()V" ⟨⟨[], .void⟩, by decide +kernel⟩
  | unopened rest hc =>
    exact .missingOpenParen (not_accepts_append fun more =>
      ⟨_, (NoMethod.unopened (rest ++ more) hc).parse_eq⟩)
  | @noParam params hp rest _ h =>
    cases h with
    | atEnd =>
      have hm : WellFormed ⟨params, .void⟩ := ⟨hp, .inl rfl⟩
      have haccepts := accepts_encode hm
      rw [encode_eq, List.append_assoc, String.ofList_append] at haccepts
      rw [List.append_nil]
      exact .of_incomplete trivial _ haccepts
    | void rest =>
      refine .misplacedVoid (not_accepts_append fun more => ?_)
      rw [List.append_assoc]
      exact ⟨_, (NoMethod.noParam hp (.void (rest ++ more))).parse_eq⟩
    | noType hc h => exact (awaits_param hp).explains (by simpa using hc) h
  | noResult hp h => exact (awaits_result hp).explains (fun _ _ => trivial) h
  | @trailing m hm rest hrest =>
    refine .ofTrailing hrest (accepts_encode hm) (not_accepts_append fun more => ?_)
    rw [List.append_assoc]
    exact ⟨_, (NoMethod.trailing hm (List.append_ne_nil_of_left_ne_nil hrest more)).parse_eq⟩

end MethodDescriptor

/-- A fault is one that more text could mend just if some text behind `d` makes it a descriptor.
A tag at fault stands where a type could, an empty class name is where a class could be named, and
what trails stands behind a whole descriptor, or behind a lone `void` where a field has its type. -/
theorem fault_explains (d : String) (fault : Fault) :
    (TypeDescriptor.parse d = .error fault →
      fault.Explains (Accepts TypeDescriptor.parse)
        (fun s => Accepts TypeDescriptor.parse s ∨ s = "V") d) ∧
    (MethodDescriptor.parse d = .error fault →
      fault.Explains (Accepts MethodDescriptor.parse) (Accepts MethodDescriptor.parse) d) := by
  rw [TypeDescriptor.parse_eq_error_iff, MethodDescriptor.parse_eq_error_iff]
  refine ⟨fun h => ?_, fun h => ?_⟩
  · simpa using TypeDescriptor.explains_of_noField h
  · simpa using MethodDescriptor.explains_of_noMethod h

/-- An unknown tag behind a class name of two-byte characters, and a class name that is not ended. -/
theorem fault_explains_offsets :
    MethodDescriptor.parse "([Lé;I[Q)V" = .error (.unknownTag 'Q' 8) ∧
    (Fault.unknownTag 'Q' 8).Explains (Accepts MethodDescriptor.parse)
      (Accepts MethodDescriptor.parse) "([Lé;I[Q)V" ∧
    TypeDescriptor.parse "[[Lé" = .error (.unterminatedClass 2) ∧
    ∃ more, Accepts TypeDescriptor.parse ("[[Lé" ++ more) := by
  have hm : MethodDescriptor.parse "([Lé;I[Q)V" = .error (.unknownTag 'Q' 8) := by decide +kernel
  have ht : TypeDescriptor.parse "[[Lé" = .error (.unterminatedClass 2) := by decide +kernel
  have hincomplete := ((fault_explains _ _).1 ht).incomplete_iff
  exact ⟨hm, (fault_explains _ _).2 hm, ht, hincomplete.1 trivial⟩

end ClassSketch.Descriptor
