import ClassSketch.Proofs.DescriptorGrammar

namespace ClassSketch.Descriptor

open List (replicate)

/-- More text could mend the fault: the descriptor is begun well and not finished. -/
def Fault.Incomplete : Fault → Prop
  | .empty | .unterminatedClass _ | .missingCloseParen => True
  | .unknownTag _ _ | .emptyClass _ | .missingOpenParen | .misplacedVoid | .trailing _ => False

/-- The text from offset `o` on begins with no type, and `fault` is why. -/
inductive NoType (o : Nat) : List Char → Fault → Prop
  | brackets (dims : Nat) : NoType o (replicate dims '[') (.unterminatedClass o)
  | openName (dims : Nat) {name : List Char} (h : ';' ∉ name) :
      NoType o (replicate dims '[' ++ 'L' :: name) (.unterminatedClass (o + dims))
  | emptyName (dims : Nat) (rest : List Char) :
      NoType o (replicate dims '[' ++ 'L' :: ';' :: rest) (.emptyClass (o + dims))
  | unknownTag (dims : Nat) {c : Char} (rest : List Char) (htag : Primitive.ofTag? c = none)
      (hclass : c ≠ 'L') (hbracket : c ≠ '[') :
      NoType o (replicate dims '[' ++ c :: rest) (.unknownTag c (o + dims))
  | voidArray (dims : Nat) (rest : List Char) :
      NoType o (replicate (dims + 1) '[' ++ 'V' :: rest) .misplacedVoid

/-- The text from offset `o` on begins neither with a parameter nor with the parenthesis behind the
last one. -/
inductive NoParam (o : Nat) : List Char → Fault → Prop
  | atEnd : NoParam o [] .missingCloseParen
  | void (rest : List Char) : NoParam o ('V' :: rest) .misplacedVoid
  | noType {c : Char} {rest : List Char} {fault : Fault} (hc : c ≠ ')')
      (h : NoType o (c :: rest) fault) : NoParam o (c :: rest) fault

inductive NoField : List Char → Fault → Prop
  | empty : NoField [] .empty
  | noType {c : Char} {rest : List Char} {fault : Fault} (h : NoType 0 (c :: rest) fault) :
      NoField (c :: rest) fault
  | trailing {t : TypeDescriptor} (ht : t.Result) {rest : List Char} (hrest : rest ≠ []) :
      NoField (t.encode ++ rest) (.trailing (byteLength t.encode))
  | void : NoField TypeDescriptor.void.encode .misplacedVoid

def openParams (params : List TypeDescriptor) : List Char :=
  '(' :: params.flatMap TypeDescriptor.encode

inductive NoMethod : List Char → Fault → Prop
  | empty : NoMethod [] .empty
  | unopened {c : Char} (rest : List Char) (hc : c ≠ '(') : NoMethod (c :: rest) .missingOpenParen
  | noParam {params : List TypeDescriptor} (hp : ∀ t ∈ params, t.WellFormed) {rest : List Char}
      {fault : Fault} (h : NoParam (byteLength (openParams params)) rest fault) :
      NoMethod (openParams params ++ rest) fault
  | noResult {params : List TypeDescriptor} (hp : ∀ t ∈ params, t.WellFormed) {rest : List Char}
      {fault : Fault} (h : NoType (byteLength (openParams params ++ [')'])) rest fault) :
      NoMethod (openParams params ++ [')'] ++ rest) fault
  | trailing {m : MethodDescriptor} (hm : m.WellFormed) {rest : List Char} (hrest : rest ≠ []) :
      NoMethod (m.encode ++ rest) (.trailing (byteLength m.encode))

theorem span_brackets_of_head {cs : List Char} (h : cs.head? ≠ some '[') (dims : Nat) :
    (replicate dims '[' ++ cs).takeWhile (· = '[') = replicate dims '[' ∧
      (replicate dims '[' ++ cs).dropWhile (· = '[') = cs := by
  have hb : ∀ b ∈ replicate dims '[', decide (b = '[') = true := by
    intro b hm
    simpa using (List.mem_replicate.1 hm).2
  rw [List.takeWhile_append_of_pos hb, List.dropWhile_append_of_pos hb]
  cases cs with
  | nil => simp
  | cons c cs =>
    have hc : c ≠ '[' := by simpa using h
    simp [hc]

theorem readType_replicate {cs : List Char} (h : cs.head? ≠ some '[') (o dims : Nat) :
    readType ⟨o, replicate dims '[' ++ cs⟩ =
      (readElement dims o ⟨o + dims, cs⟩).map fun e => (⟨dims, e.1⟩, e.2) := by
  obtain ⟨ht, hd⟩ := span_brackets_of_head h dims
  simp only [readType, ht, hd, List.length_replicate]
  cases readElement dims o ⟨o + dims, cs⟩ <;> rfl

theorem noType_of_readElement {dims o : Nat} {cs : List Char} {fault : Fault}
    (hcs : cs.head? ≠ some '[') (h : readElement dims o ⟨o + dims, cs⟩ = .error fault) :
    NoType o (replicate dims '[' ++ cs) fault := by
  simp only [readElement] at h
  split at h
  · cases h
    simpa using NoType.brackets dims
  · rename_i tail
    split at h
    · rename_i hd
      cases h
      refine .openName dims fun hm => ?_
      simpa using List.dropWhile_eq_nil_iff.1 hd ';' hm
    · rename_i rest hd
      obtain ⟨-, htail⟩ := eq_of_span_semicolon hd
      split at h
      · rename_i hempty
        cases h
        rw [htail, List.isEmpty_iff.1 hempty]
        exact .emptyName dims rest
      · cases h
  · rename_i c rest hclass
    split at h
    · rename_i htag
      cases h
      exact .unknownTag dims rest htag (fun hc => hclass hc) (by simpa using hcs)
    · rename_i p hp
      split at h
      · rename_i hv
        cases h
        obtain ⟨n, rfl⟩ := Nat.exists_eq_add_of_lt hv.2
        rw [← Primitive.ofTag?_eq_some_iff.1 hp, hv.1, Nat.zero_add]
        exact .voidArray n rest
      · cases h

theorem readElement_of_head_L {dims start o : Nat} {name : List Char} (h : ';' ∉ name) :
    readElement dims start ⟨o, 'L' :: name⟩ = .error (.unterminatedClass o) := by
  have hd : name.dropWhile (· ≠ ';') = [] := by
    rw [List.dropWhile_eq_nil_iff]
    intro c hc
    simpa using fun he : c = ';' => h (he ▸ hc)
  simp only [readElement, hd]

theorem NoType.readType_eq {o : Nat} {cs : List Char} {fault : Fault} (h : NoType o cs fault) :
    readType ⟨o, cs⟩ = .error fault := by
  cases h with
  | brackets dims =>
    rw [← List.append_nil (replicate dims '['), readType_replicate (by simp)]
    rfl
  | openName dims h =>
    rw [readType_replicate (by simp), readElement_of_head_L h]
    rfl
  | emptyName dims rest =>
    rw [readType_replicate (by simp)]
    simp [readElement, Except.map]
  | unknownTag dims rest htag hclass hbracket =>
    rw [readType_replicate (by simpa using hbracket)]
    simp [readElement, htag, Except.map]
  | voidArray dims rest =>
    rw [readType_replicate (by simp)]
    have htag : Primitive.ofTag? 'V' = some .void := by decide
    simp [readElement, htag, Except.map]

theorem readType_eq_error_iff {r : Rest} {fault : Fault} :
    readType r = .error fault ↔ NoType r.offset r.chars fault := by
  refine ⟨fun h => ?_, NoType.readType_eq⟩
  obtain ⟨o, cs⟩ := r
  have hhead : (cs.dropWhile (· = '[')).head? ≠ some '[' := by
    intro he
    have hnot := List.head?_dropWhile_not (· = '[') cs
    rw [he] at hnot
    simp at hnot
  have hcs : cs = replicate (cs.takeWhile (· = '[')).length '[' ++ cs.dropWhile (· = '[') := by
    rw [← takeWhile_bracket, List.takeWhile_append_dropWhile]
  rw [hcs, readType_replicate hhead] at h
  rw [hcs]
  cases he : readElement (cs.takeWhile (· = '[')).length o
      ⟨o + (cs.takeWhile (· = '[')).length, cs.dropWhile (· = '[')⟩ with
  | ok e =>
    rw [he] at h
    cases h
  | error fault' =>
    rw [he] at h
    cases h
    exact noType_of_readElement hhead he

theorem readParams_of_ne {c : Char} (hc : c ≠ ')') (before : List TypeDescriptor) (o : Nat)
    (rest : List Char) : readParams before ⟨o, c :: rest⟩ =
      readType ⟨o, c :: rest⟩ >>= fun r =>
        if r.1 = .void then .error .misplacedVoid else readParams (r.1 :: before) r.2 := by
  rw [readParams]
  split
  · rename_i hr
    cases hr
  · rename_i hr
    exact absurd (List.cons.inj hr).1 hc
  · split
    · rename_i hread
      rw [hread]
      rfl
    · rename_i hread
      rw [hread, ok_bind]

theorem NoParam.readParams_eq {o : Nat} {cs : List Char} {fault : Fault} (h : NoParam o cs fault)
    (before : List TypeDescriptor) : readParams before ⟨o, cs⟩ = .error fault := by
  cases h with
  | atEnd => rw [readParams]
  | void rest =>
    have hread : readType ⟨o, 'V' :: rest⟩ = .ok (.void, ⟨o + 1, rest⟩) :=
      readType_eq_ok_iff.2 ⟨.inr rfl, rfl, rfl⟩
    rw [readParams_of_ne (by decide), hread, ok_bind, if_pos rfl]
  | noType hc h =>
    rw [readParams_of_ne hc, h.readType_eq]
    rfl

theorem readParams_eq_error_iff {before : List TypeDescriptor} {r : Rest} {fault : Fault} :
    readParams before r = .error fault ↔ ∃ (params : List TypeDescriptor) (rest : List Char),
      (∀ t ∈ params, t.WellFormed) ∧ r.chars = params.flatMap TypeDescriptor.encode ++ rest ∧
        NoParam (r.offset + byteLength (params.flatMap TypeDescriptor.encode)) rest fault := by
  constructor
  · intro h
    fun_induction readParams before r with
    | case1 before r hr =>
      cases h
      exact ⟨[], [], by simp, by simp [hr], .atEnd⟩
    | case2 => cases h
    | case3 before r fault' hread hnil hclose =>
      cases h
      have hno := readType_eq_error_iff.1 hread
      refine ⟨[], r.chars, by simp, by simp, ?_⟩
      cases hr : r.chars with
      | nil => exact (hnil hr).elim
      | cons c rest =>
        rw [hr] at hno
        exact .noType (fun hc => hclose rest (hc ▸ hr)) hno
    | case4 before r rest hnil hclose hread =>
      cases h
      obtain ⟨-, hc, -⟩ := readType_eq_ok_iff.1 hread
      refine ⟨[], r.chars, by simp, by simp, ?_⟩
      rw [hc]
      exact .void rest.chars
    | case5 before r t rest hread hv _ _ ih =>
      obtain ⟨params, tail, hw, hc, hno⟩ := ih h
      obtain ⟨ht, hrc, hro⟩ := readType_eq_ok_iff.1 hread
      refine ⟨t :: params, tail, ?_, ?_, ?_⟩
      · simpa using ⟨ht.resolve_right hv, hw⟩
      · rw [hrc, hc, List.flatMap_cons, List.append_assoc]
      · rwa [List.flatMap_cons, byteLength_append, ← Nat.add_assoc, ← hro]
  · rintro ⟨params, rest, hw, hc, hno⟩
    induction params generalizing before r with
    | nil =>
      obtain ⟨o, cs⟩ := r
      obtain rfl : cs = rest := hc
      exact hno.readParams_eq before
    | cons t params ih =>
      have ht : t.WellFormed := hw t (by simp)
      rw [List.flatMap_cons, List.append_assoc] at hc
      rw [List.flatMap_cons, byteLength_append, ← Nat.add_assoc] at hno
      have hread : readType r = .ok (t, ⟨r.offset + byteLength t.encode,
          params.flatMap TypeDescriptor.encode ++ rest⟩) :=
        readType_eq_ok_iff.2 ⟨.inl ht, hc, rfl⟩
      rw [readParams_cons ht hread]
      exact ih (fun t hm => hw t (by simp [hm])) rfl hno

theorem expectEnd_eq_error_iff {r : Rest} {fault : Fault} :
    expectEnd r = .error fault ↔ r.chars ≠ [] ∧ fault = .trailing r.offset := by
  rw [expectEnd]
  split
  · rename_i h
    simp [List.isEmpty_iff.1 h]
  · rename_i h
    rw [List.isEmpty_iff] at h
    simp [h, eq_comm]

theorem exists_readType_trailing_iff {o : Nat} {cs : List Char} {fault : Fault} :
    (∃ t s, readType ⟨o, cs⟩ = .ok (t, s) ∧ expectEnd s = .error fault) ↔
      ∃ (t : TypeDescriptor) (rest : List Char), t.Result ∧ rest ≠ [] ∧ cs = t.encode ++ rest ∧
        fault = .trailing (o + byteLength t.encode) := by
  constructor
  · rintro ⟨t, s, hr, he⟩
    obtain ⟨ht, hc, ho⟩ := readType_eq_ok_iff.1 hr
    obtain ⟨hrest, rfl⟩ := expectEnd_eq_error_iff.1 he
    exact ⟨t, s.chars, ht, hrest, hc, by rw [ho]⟩
  · rintro ⟨t, rest, ht, hrest, rfl, rfl⟩
    exact ⟨t, ⟨o + byteLength t.encode, rest⟩, readType_eq_ok_iff.2 ⟨ht, rfl, rfl⟩,
      expectEnd_eq_error_iff.2 ⟨hrest, rfl⟩⟩

theorem TypeDescriptor.parse_eq_error_of_ne_empty {s : String} (h : s ≠ "") {fault : Fault} :
    parse s = .error fault ↔ readType ⟨0, s.toList⟩ = .error fault ∨
      (∃ t r, readType ⟨0, s.toList⟩ = .ok (t, r) ∧ expectEnd r = .error fault) ∨
      (∃ r, readType ⟨0, s.toList⟩ = .ok (.void, r) ∧ expectEnd r = .ok ()) ∧
        fault = .misplacedVoid := by
  have hs : ¬ s.isEmpty = true := by simpa using h
  rw [parse, if_neg hs, bind_eq_error_iff]
  refine or_congr_right ⟨?_, ?_⟩
  · rintro ⟨⟨t, r⟩, hr, h⟩
    rcases bind_eq_error_iff.1 h with he | ⟨_, he, h⟩
    · exact .inl ⟨t, r, hr, he⟩
    · split at h
      · rename_i hv
        cases h
        obtain rfl : t = .void := hv
        exact .inr ⟨⟨r, hr, he⟩, rfl⟩
      · cases h
  · rintro (⟨t, r, hr, he⟩ | ⟨⟨r, hr, he⟩, rfl⟩)
    · exact ⟨(t, r), hr, bind_eq_error_iff.2 (.inl he)⟩
    · exact ⟨(.void, r), hr, bind_eq_error_iff.2 (.inr ⟨(), he, by rw [if_pos rfl]; rfl⟩)⟩

theorem noField_nil_iff {fault : Fault} : NoField [] fault ↔ fault = .empty := by
  constructor
  · intro h
    generalize hcs : [] = cs at h
    cases h with
    | empty => rfl
    | noType => cases hcs
    | trailing _ hrest => exact absurd (List.append_eq_nil_iff.1 hcs.symm).2 hrest
    | void => cases hcs
  · rintro rfl
    exact .empty

theorem TypeDescriptor.parse_eq_error_iff {s : String} {fault : Fault} :
    parse s = .error fault ↔ NoField s.toList fault := by
  by_cases hs : s = ""
  · subst hs
    rw [String.toList_empty, noField_nil_iff]
    constructor
    · intro h
      cases h
      rfl
    · rintro rfl
      rfl
  · rw [parse_eq_error_of_ne_empty hs, exists_readType_trailing_iff, exists_readType_iff,
      readType_eq_error_iff]
    have hne : s.toList ≠ [] := by simpa using hs
    generalize s.toList = cs at hne
    constructor
    · rintro (h | ⟨t, rest, ht, hrest, rfl, rfl⟩ | ⟨⟨-, rfl⟩, rfl⟩)
      · obtain ⟨c, rest, rfl⟩ := List.exists_cons_of_ne_nil hne
        exact .noType h
      · rw [Nat.zero_add]
        exact .trailing ht hrest
      · exact .void
    · intro h
      cases h with
      | empty => exact absurd rfl hne
      | noType h => exact .inl h
      | @trailing t ht rest hrest =>
        exact .inr (.inl ⟨t, rest, ht, hrest, rfl, by rw [Nat.zero_add]⟩)
      | void => exact .inr (.inr ⟨⟨.inr rfl, rfl⟩, rfl⟩)

theorem openParams_append (params : List TypeDescriptor) (rest : List Char) :
    openParams params ++ rest = '(' :: (params.flatMap TypeDescriptor.encode ++ rest) := rfl

theorem byteLength_openParams (params : List TypeDescriptor) :
    byteLength (openParams params) = 1 + byteLength (params.flatMap TypeDescriptor.encode) := by
  have hopen : '('.utf8Size = 1 := by decide
  rw [openParams, byteLength_cons, hopen]

theorem MethodDescriptor.encode_eq (m : MethodDescriptor) :
    m.encode = openParams m.params ++ [')'] ++ m.result.encode := by
  simp [encode, openParams]

theorem byteLength_closeParams (params : List TypeDescriptor) :
    byteLength (openParams params ++ [')']) =
      1 + byteLength (params.flatMap TypeDescriptor.encode) + 1 := by
  have hclose : ')'.utf8Size = 1 := by decide
  rw [byteLength_append, byteLength_openParams, byteLength_cons, byteLength_nil, hclose]

theorem parse_of_open {cs : List Char} {fault : Fault} :
    MethodDescriptor.parse (String.ofList ('(' :: cs)) = .error fault ↔
      readParams [] ⟨1, cs⟩ = .error fault ∨ ∃ params r, readParams [] ⟨1, cs⟩ = .ok (params, r) ∧
        (readType r = .error fault ∨
          ∃ t r', readType r = .ok (t, r') ∧ expectEnd r' = .error fault) := by
  rw [MethodDescriptor.parse, String.toList_ofList]
  refine bind_eq_error_iff.trans (or_congr_right ⟨?_, ?_⟩)
  · rintro ⟨⟨params, r⟩, hp, h⟩
    refine ⟨params, r, hp, ?_⟩
    rcases bind_eq_error_iff.1 h with h | ⟨⟨t, r'⟩, ht, h⟩
    · exact .inl h
    · rcases bind_eq_error_iff.1 h with h | ⟨_, -, h⟩
      · exact .inr ⟨t, r', ht, h⟩
      · cases h
  · rintro ⟨params, r, hp, h | ⟨t, r', ht, he⟩⟩
    · exact ⟨(params, r), hp, bind_eq_error_iff.2 (.inl h)⟩
    · exact ⟨(params, r), hp,
        bind_eq_error_iff.2 (.inr ⟨(t, r'), ht, bind_eq_error_iff.2 (.inl he)⟩)⟩

theorem NoMethod.of_open {cs : List Char} {fault : Fault}
    (h : MethodDescriptor.parse (String.ofList ('(' :: cs)) = .error fault) :
    NoMethod ('(' :: cs) fault := by
  rcases parse_of_open.1 h with h | ⟨params, ⟨o, rest⟩, hp, h⟩
  · obtain ⟨params, rest, hw, hc, hno⟩ := readParams_eq_error_iff.1 h
    dsimp only at hc hno
    rw [hc, ← openParams_append]
    rw [← byteLength_openParams] at hno
    exact .noParam hw hno
  · obtain ⟨params, rfl, hw, hc, ho⟩ := readParams_eq_ok_iff.1 hp
    dsimp only at hc ho
    rw [← byteLength_closeParams] at ho
    have hcs : '(' :: cs = openParams params ++ [')'] ++ rest := by
      rw [hc, openParams, List.append_assoc]
      rfl
    rw [hcs]
    rcases h with h | h
    · rw [readType_eq_error_iff, ho] at h
      exact .noResult hw h
    · obtain ⟨t, tail, ht, htail, rfl, rfl⟩ := exists_readType_trailing_iff.1 h
      have hm : MethodDescriptor.WellFormed ⟨params, t⟩ := ⟨hw, ht.symm⟩
      have htrailing := NoMethod.trailing hm htail
      rwa [MethodDescriptor.encode_eq, byteLength_append, ← ho, List.append_assoc] at htrailing

theorem NoMethod.parse_eq {cs : List Char} {fault : Fault} (h : NoMethod cs fault) :
    MethodDescriptor.parse (String.ofList cs) = .error fault := by
  cases h with
  | empty => rfl
  | unopened rest hc =>
    rw [MethodDescriptor.parse, String.toList_ofList]
    split
    · rename_i hs
      cases hs
    · rename_i hs
      exact absurd (List.cons.inj hs).1 hc
    · rfl
  | @noParam params hp rest _ h =>
    rw [byteLength_openParams] at h
    exact parse_of_open.2 (.inl (readParams_eq_error_iff.2 ⟨params, rest, hp, rfl, h⟩))
  | @noResult params hp rest _ h =>
    rw [byteLength_closeParams] at h
    rw [List.append_assoc, openParams_append]
    exact parse_of_open.2 (.inr ⟨params, ⟨_, rest⟩,
      readParams_eq_ok_iff.2 ⟨params, rfl, hp, rfl, rfl⟩, .inl h.readType_eq⟩)
  | @trailing m hm rest hrest =>
    obtain ⟨hp, hr⟩ := hm
    rw [MethodDescriptor.encode_eq, byteLength_append, byteLength_closeParams, List.append_assoc,
      List.append_assoc, openParams_append]
    exact parse_of_open.2 (.inr ⟨m.params, ⟨_, m.result.encode ++ rest⟩,
      readParams_eq_ok_iff.2 ⟨m.params, rfl, hp, rfl, rfl⟩,
      .inr (exists_readType_trailing_iff.2 ⟨m.result, rest, hr.symm, hrest, rfl, rfl⟩)⟩)

theorem MethodDescriptor.parse_eq_error_iff {s : String} {fault : Fault} :
    parse s = .error fault ↔ NoMethod s.toList fault := by
  constructor
  · intro h
    cases hs : s.toList with
    | nil =>
      rw [parse, hs] at h
      cases h
      exact .empty
    | cons c cs =>
      by_cases hc : c = '('
      · subst hc
        rw [← s.ofList_toList, hs] at h
        exact .of_open h
      · rw [← s.ofList_toList, hs, (NoMethod.unopened cs hc).parse_eq] at h
        cases h
        exact .unopened cs hc
  · intro h
    rw [← s.ofList_toList]
    exact h.parse_eq

end ClassSketch.Descriptor
