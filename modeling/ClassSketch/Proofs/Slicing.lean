import ClassSketch.Proofs.Boundaries

namespace ClassSketch.Descriptor

variable {α β : Type} {d : String}

inductive Stop where
  | fault (f : Fault)
  | badSlice (i j : Nat)
  | unfinished
deriving DecidableEq, Repr

/-- Steps on a text that log the offsets at which they slice it. -/
abbrev SliceM := Attempt Nat Stop

def slice (d : String) (i j : Nat) : SliceM String := do
  Attempt.emit i
  Attempt.emit j
  if i ≤ j ∧ IsBoundary d i ∧ IsBoundary d j then return textBetween d i j
  else throw (.badSlice i j)

def sliceFrom (d : String) (i : Nat) : SliceM String := slice d i d.utf8ByteSize

def offsetOf? (c : Char) (s : String) : Option Nat :=
  if c ∈ s.toList then some (byteLength (s.toList.takeWhile (· ≠ c))) else none

def classAt (d : String) (cur : Nat) : SliceM (Element × Nat) := do
  match offsetOf? ';' (← sliceFrom d (cur + 1)) with
  | none => throw (.fault (.unterminatedClass cur))
  | some size =>
    if size = 0 then throw (.fault (.emptyClass cur))
    else return (.object (← slice d (cur + 1) (cur + 1 + size)), cur + 1 + size + 1)

def primitiveAt (dims cur : Nat) (c : Char) : SliceM (Element × Nat) :=
  match Primitive.ofTag? c with
  | none => throw (.fault (.unknownTag c cur))
  | some p =>
    if p = .void ∧ 0 < dims then throw (.fault .misplacedVoid) else return (.primitive p, cur + 1)

def elementAt (d : String) (dims start cur : Nat) : SliceM (Element × Nat) := do
  match (← sliceFrom d cur).toList with
  | [] => throw (.fault (.unterminatedClass start))
  | 'L' :: _ => classAt d cur
  | c :: _ => primitiveAt dims cur c

def typeAt (d : String) (pos : Nat) : SliceM (TypeDescriptor × Nat) := do
  let dims := bracketsAt d pos
  let (element, stop) ← elementAt d dims pos (pos + dims)
  return (⟨dims, element⟩, stop)

/-- Reads types from `pos` on up to a closing parenthesis, each round one of them. -/
def paramsAt (d : String) (before : List TypeDescriptor) (pos : Nat) :
    Nat → SliceM (List TypeDescriptor × Nat)
  | 0 => throw .unfinished
  | rounds + 1 => do
    match (← sliceFrom d pos).toList with
    | [] => throw (.fault .missingCloseParen)
    | ')' :: _ => return (before.reverse, pos + 1)
    | _ =>
      let (t, stop) ← typeAt d pos
      if t = .void then throw (.fault .misplacedVoid)
      else paramsAt d (t :: before) stop rounds

def expectEndAt (d : String) (stop : Nat) : SliceM Unit :=
  if stop = d.utf8ByteSize then return () else throw (.fault (.trailing stop))

def TypeDescriptor.parseAt (d : String) : SliceM TypeDescriptor := do
  if d.isEmpty then throw (.fault .empty)
  let (t, stop) ← typeAt d 0
  expectEndAt d stop
  if t = .void then throw (.fault .misplacedVoid)
  return t

def MethodDescriptor.parseAt (d : String) : SliceM MethodDescriptor :=
  match d.toList with
  | [] => throw (.fault .empty)
  | '(' :: _ => do
    let (params, pos) ← paramsAt d [] 1 d.utf8ByteSize
    let (result, stop) ← typeAt d pos
    expectEndAt d stop
    return ⟨params, result⟩
  | _ => throw (.fault .missingOpenParen)

def Fault.offset? : Fault → Option Nat
  | unknownTag _ offset | unterminatedClass offset | emptyClass offset | trailing offset =>
    some offset
  | empty | missingOpenParen | missingCloseParen | misplacedVoid => none

/-- The steps slice `d` at boundaries only, which never fails, and come to what is `parsed`. -/
structure SlicesSafely (d : String) (steps : SliceM α) (parsed : Except Fault α) : Prop where
  boundary : ∀ i ∈ steps.run.log, IsBoundary d i
  value : steps.run.value = parsed.mapError .fault
  fault : ∀ fault, parsed = .error fault → ∀ o ∈ fault.offset?, IsBoundary d o

namespace SlicesSafely

protected theorem pure (a : α) : SlicesSafely d (pure a) (.ok a) where
  boundary := by
    intro i hi
    cases hi
  value := rfl
  fault := by
    intro fault h
    cases h

protected theorem throw {f : Fault} (h : ∀ o ∈ f.offset?, IsBoundary d o) :
    SlicesSafely d (throw (.fault f) : SliceM α) (.error f) where
  boundary := by
    intro i hi
    cases hi
  value := rfl
  fault := by
    intro fault hf
    cases hf
    exact h

theorem throw_of_none {f : Fault} (h : f.offset? = none) :
    SlicesSafely d (throw (.fault f) : SliceM α) (.error f) := by
  refine SlicesSafely.throw fun o ho => ?_
  rw [h] at ho
  cases ho

theorem throw_of_some {f : Fault} {o : Nat} (h : f.offset? = some o) (ho : IsBoundary d o) :
    SlicesSafely d (throw (.fault f) : SliceM α) (.error f) := by
  refine SlicesSafely.throw fun o' ho' => ?_
  rw [h] at ho'
  cases ho'
  exact ho

/-- What comes behind may be told from more than the steps give. -/
protected theorem bind {γ : Type} {steps : SliceM α} {f : α → SliceM β} {x : Except Fault γ}
    {m : γ → α} {g : γ → Except Fault β} (h : SlicesSafely d steps (m <$> x))
    (hf : ∀ c, x = .ok c → SlicesSafely d (f (m c)) (g c)) :
    SlicesSafely d (steps >>= f) (x >>= g) := by
  obtain ⟨hboundary, hvalue, hfault⟩ := h
  cases x with
  | error e =>
    have herror : steps.run.value = .error (.fault e) := hvalue
    refine ⟨?_, ?_, ?_⟩
    · rw [Attempt.log_bind_of_error herror]
      exact hboundary
    · rw [Attempt.value_bind, herror]
      rfl
    · intro fault he
      cases he
      exact hfault e rfl
  | ok c =>
    have hok : steps.run.value = .ok (m c) := hvalue
    have hc := hf c rfl
    refine ⟨?_, ?_, hc.fault⟩
    · rw [Attempt.log_bind_of_ok hok]
      intro i hi
      obtain hi | hi := List.mem_append.1 hi
      · exact hboundary i hi
      · exact hc.boundary i hi
    · rw [Attempt.value_bind, hok]
      exact hc.value

protected theorem seq {steps : SliceM α} {more : SliceM β} {x : Except Fault α}
    {y : Except Fault β} (h : SlicesSafely d steps x) (hmore : SlicesSafely d more y) :
    SlicesSafely d (steps >>= fun _ => more) (x >>= fun _ => y) := by
  have hx : id <$> x = x := by cases x <;> rfl
  rw [← hx] at h
  exact h.bind fun _ _ => hmore

theorem slice_of {r : Rest} {cs back : List Char} (hr : r.Of d) (hc : r.chars = cs ++ back) :
    SlicesSafely d (slice d r.offset (r.offset + byteLength cs)) (.ok (String.ofList cs)) := by
  have hstop : IsBoundary d (r.offset + byteLength cs) :=
    (hr.advance (s := ⟨r.offset + byteLength cs, back⟩) cs hc rfl).boundary
  have hslice : (slice d r.offset (r.offset + byteLength cs)).run =
      ⟨[r.offset, r.offset + byteLength cs], .ok (String.ofList cs)⟩ := by
    rw [slice, if_pos ⟨Nat.le_add_right .., hr.boundary, hstop⟩, hr.textBetween_eq hc]
    rfl
  refine ⟨?_, ?_, ?_⟩
  · rw [hslice]
    simpa using ⟨hr.boundary, hstop⟩
  · rw [hslice]
    rfl
  · intro fault h
    cases h

theorem slice_bind {r : Rest} {cs back : List Char} {f : String → SliceM α} {x : Except Fault α}
    (hr : r.Of d) (hc : r.chars = cs ++ back) (h : SlicesSafely d (f (String.ofList cs)) x) :
    SlicesSafely d (slice d r.offset (r.offset + byteLength cs) >>= f) x := by
  refine SlicesSafely.bind (m := id) (x := .ok (String.ofList cs)) (g := fun _ => x)
    (slice_of hr hc) fun c hok => ?_
  cases hok
  exact h

theorem sliceFrom_bind {r : Rest} {f : String → SliceM α} {x : Except Fault α} (hr : r.Of d)
    (h : SlicesSafely d (f (String.ofList r.chars)) x) :
    SlicesSafely d (sliceFrom d r.offset >>= f) x := by
  rw [sliceFrom, hr.end_eq]
  exact slice_bind hr (List.append_nil _).symm h

end SlicesSafely

def stopOf (p : α × Rest) : α × Nat := (p.1, p.2.offset)

theorem offsetOf?_of_not_mem {c : Char} {cs : List Char} (h : c ∉ cs) :
    offsetOf? c (String.ofList cs) = none := by
  rw [offsetOf?, String.toList_ofList, if_neg h]

theorem offsetOf?_semicolon {name : List Char} (h : ';' ∉ name) (rest : List Char) :
    offsetOf? ';' (String.ofList (name ++ ';' :: rest)) = some (byteLength name) := by
  rw [offsetOf?, String.toList_ofList, if_pos (by simp), (span_semicolon h rest).1]

theorem readElement_class {name : List Char} (h : ';' ∉ name) (dims start o : Nat)
    (rest : List Char) : readElement dims start ⟨o, 'L' :: (name ++ ';' :: rest)⟩ =
      if name = [] then .error (.emptyClass o)
      else .ok (.object (String.ofList name), ⟨o + byteLength name + 2, rest⟩) := by
  obtain ⟨htake, hdrop⟩ := span_semicolon h rest
  simp only [readElement, htake, hdrop, List.isEmpty_iff]

theorem slicesSafely_classAt {o : Nat} {tail : List Char} (hr : Rest.Of d ⟨o, 'L' :: tail⟩)
    (dims start : Nat) :
    SlicesSafely d (classAt d o) (stopOf <$> readElement dims start ⟨o, 'L' :: tail⟩) := by
  have htail : Rest.Of d ⟨o + 1, tail⟩ := hr.advance ['L'] rfl rfl
  rw [classAt]
  refine .sliceFrom_bind htail ?_
  by_cases hs : ';' ∈ tail
  · obtain ⟨name, rest, rfl, hname⟩ := List.eq_append_cons_of_mem hs
    rw [offsetOf?_semicolon hname, readElement_class hname]
    dsimp only
    by_cases hempty : name = []
    · rw [if_pos (byteLength_eq_zero_iff.2 hempty), if_pos hempty]
      exact .throw_of_some rfl hr.boundary
    · rw [if_neg (mt byteLength_eq_zero_iff.1 hempty), if_neg hempty]
      refine .slice_bind htail rfl ?_
      have hstop : o + byteLength name + 2 = o + 1 + byteLength name + 1 := by omega
      rw [hstop]
      exact .pure _
  · rw [offsetOf?_of_not_mem hs, readElement_of_head_L hs]
    exact .throw_of_some rfl hr.boundary

theorem slicesSafely_primitiveAt {o : Nat} {c : Char} {rest : List Char}
    (hr : Rest.Of d ⟨o, c :: rest⟩) (hc : c ≠ 'L') (dims start : Nat) :
    SlicesSafely d (primitiveAt dims o c) (stopOf <$> readElement dims start ⟨o, c :: rest⟩) := by
  rw [primitiveAt]
  cases htag : Primitive.ofTag? c with
  | none =>
    have hread : readElement dims start ⟨o, c :: rest⟩ = .error (.unknownTag c o) := by
      simp [readElement, htag]
    rw [hread]
    exact .throw_of_some rfl hr.boundary
  | some p =>
    have hread : readElement dims start ⟨o, c :: rest⟩ =
        if p = .void ∧ 0 < dims then .error .misplacedVoid
        else .ok (.primitive p, ⟨o + 1, rest⟩) := by
      simp [readElement, htag]
    rw [hread]
    dsimp only
    split
    · exact .throw_of_none rfl
    · exact .pure _

theorem slicesSafely_elementAt {r : Rest} {dims start : Nat} (hr : r.Of d)
    (hstart : IsBoundary d start) :
    SlicesSafely d (elementAt d dims start r.offset) (stopOf <$> readElement dims start r) := by
  obtain ⟨o, cs⟩ := r
  rw [elementAt]
  refine .sliceFrom_bind hr ?_
  rw [String.toList_ofList]
  dsimp only
  split
  · exact .throw_of_some rfl hstart
  · exact slicesSafely_classAt hr dims start
  · rename_i hne
    exact slicesSafely_primitiveAt hr hne dims start

theorem slicesSafely_typeAt {r : Rest} (hr : r.Of d) :
    SlicesSafely d (typeAt d r.offset) (stopOf <$> readType r) := by
  have hbehind : Rest.Of d ⟨r.offset + (r.chars.takeWhile (· = '[')).length,
      r.chars.dropWhile (· = '[')⟩ := by
    refine hr.advance _ List.takeWhile_append_dropWhile.symm ?_
    rw [takeWhile_bracket, byteLength_brackets, List.length_replicate]
  have hread : stopOf <$> readType r =
      readElement (r.chars.takeWhile (· = '[')).length r.offset
        ⟨r.offset + (r.chars.takeWhile (· = '[')).length, r.chars.dropWhile (· = '[')⟩ >>=
      fun p => .ok (⟨(r.chars.takeWhile (· = '[')).length, p.1⟩, p.2.offset) := by
    rw [readType]
    split
    · rename_i h
      rw [h]
      rfl
    · rename_i h
      rw [h]
      rfl
  rw [hread, typeAt, bracketsAt_eq hr]
  exact (slicesSafely_elementAt hbehind hr.boundary).bind fun p _ => .pure _

theorem slicesSafely_paramsAt {r : Rest} {rounds : Nat} {before : List TypeDescriptor}
    (hr : r.Of d) (h : r.chars.length < rounds) :
    SlicesSafely d (paramsAt d before r.offset rounds) (stopOf <$> readParams before r) := by
  -- each round but the last takes a character at least, so there are rounds enough
  induction rounds generalizing before r with
  | zero => exact absurd h (Nat.not_lt_zero _)
  | succ rounds ih =>
    obtain ⟨o, cs⟩ := r
    rw [paramsAt]
    refine .sliceFrom_bind hr ?_
    rw [String.toList_ofList]
    dsimp only
    split
    · rw [readParams]
      exact .throw_of_none rfl
    · rw [readParams]
      exact .pure _
    · rename_i hnil hclose
      obtain ⟨c, rest, rfl⟩ := List.exists_cons_of_ne_nil hnil
      have hc : c ≠ ')' := by
        rintro rfl
        exact hclose rest rfl
      rw [readParams_of_ne hc, map_bind]
      refine (slicesSafely_typeAt hr).bind fun p hp => ?_
      obtain ⟨t, s⟩ := p
      have hshorter := readType_shorter hp
      dsimp only at h hshorter
      show SlicesSafely d (if t = .void then _ else paramsAt d (t :: before) s.offset rounds) _
      by_cases ht : t = .void
      · rw [if_pos ht, if_pos ht]
        exact .throw_of_none rfl
      · rw [if_neg ht, if_neg ht]
        exact ih (hr.readType hp) (by omega)

theorem slicesSafely_expectEndAt {r : Rest} (hr : r.Of d) :
    SlicesSafely d (expectEndAt d r.offset) (expectEnd r) := by
  rw [expectEndAt, expectEnd, hr.end_eq]
  by_cases h : r.chars = []
  · rw [if_pos (by rw [h]; rfl), if_pos (by rw [h]; rfl)]
    exact .pure _
  · have hpos : byteLength r.chars ≠ 0 := mt byteLength_eq_zero_iff.1 h
    rw [if_neg (by omega), if_neg (by rwa [List.isEmpty_iff])]
    exact .throw_of_some rfl hr.boundary

theorem TypeDescriptor.slicesSafely_parseAt (d : String) :
    SlicesSafely d (parseAt d) (parse d) := by
  rw [parseAt, parse]
  by_cases hd : d.isEmpty
  · rw [if_pos hd, if_pos hd]
    exact .throw_of_none rfl
  · rw [if_neg hd, if_neg hd]
    refine (slicesSafely_typeAt (.start d)).bind fun p hp => ?_
    obtain ⟨t, s⟩ := p
    show SlicesSafely d (do
      expectEndAt d s.offset
      if t = .void then throw (.fault .misplacedVoid)
      return t) _
    refine (slicesSafely_expectEndAt ((Rest.Of.start d).readType hp)).seq ?_
    by_cases ht : t = .void
    · rw [if_pos ht, if_pos ht]
      exact .throw_of_none rfl
    · rw [if_neg ht, if_neg ht]
      exact .pure t

theorem MethodDescriptor.slicesSafely_parseAt (d : String) :
    SlicesSafely d (parseAt d) (parse d) := by
  have hrefused {cs : List Char} (hd : d.toList = cs) (fault : Fault) (h : NoMethod cs fault) :
      parse d = .error fault := parse_eq_error_iff.2 (hd ▸ h)
  rw [parseAt]
  split
  · rename_i hd
    rw [hrefused hd _ .empty]
    exact .throw_of_none rfl
  · rename_i cs hd
    have hr : Rest.Of d ⟨1, cs⟩ := ⟨['('], hd, rfl⟩
    have hrounds : cs.length < d.utf8ByteSize := by
      have hlength := length_le_byteLength cs
      rw [hr.end_eq]
      dsimp only
      omega
    rw [parse, hd]
    refine (slicesSafely_paramsAt hr hrounds).bind fun p hp => ?_
    obtain ⟨params, r⟩ := p
    have hbehind : r.Of d := hr.readParams hp
    refine (slicesSafely_typeAt hbehind).bind fun p hp => ?_
    obtain ⟨result, s⟩ := p
    exact (slicesSafely_expectEndAt (hbehind.readType hp)).seq (.pure _)
  · rename_i hnil hopen
    cases hd : d.toList with
    | nil => exact absurd hd hnil
    | cons c cs =>
      rw [hrefused hd _ (.unopened cs fun hc => hopen cs (hc ▸ hd))]
      exact .throw_of_none rfl

/-- A type that is read in place moves on, over just the text that it is written as. -/
theorem typeAt_advances {pos stop : Nat} {t : TypeDescriptor} (hpos : IsBoundary d pos)
    (h : (typeAt d pos).run.value = .ok (t, stop)) :
    IsBoundary d stop ∧ pos < stop ∧ textBetween d pos stop = toString t := by
  have hr := hpos.exists_rest
  rw [(slicesSafely_typeAt hr).value, mapError_eq_ok_iff, map_eq_ok_iff] at h
  obtain ⟨⟨u, s⟩, hread, ⟨⟩⟩ := h
  obtain ⟨-, hc, ho⟩ := readType_eq_ok_iff.1 hread
  dsimp only at hc ho
  have hpositive : byteLength u.encode ≠ 0 := by
    obtain ⟨c, cs, hencode, -⟩ := u.encode_eq_cons
    rw [Ne, byteLength_eq_zero_iff, hencode]
    exact List.cons_ne_nil c cs
  show IsBoundary d s.offset ∧ pos < s.offset ∧ textBetween d pos s.offset = toString u
  refine ⟨(hr.readType hread).boundary, by omega, ?_⟩
  rw [ho]
  exact hr.textBetween_eq hc

/-- Inside a character there is nothing to read. -/
example : (typeAt "é" 1).run.value = .error (.badSlice 1 2) := by decide +kernel

/-- Whatever the text is, reading it in place slices it at boundaries only, and so neither fails on
a slice nor runs out of rounds: it gives what the parsers give. -/
theorem parsers_slice_at_boundaries (d : String) :
    SlicesSafely d (TypeDescriptor.parseAt d) (TypeDescriptor.parse d) ∧
      SlicesSafely d (MethodDescriptor.parseAt d) (MethodDescriptor.parse d) ∧
      (∀ i, IsBoundary d i → i ≤ d.utf8ByteSize) ∧
      ∀ pos, IsBoundary d pos →
        SlicesSafely d (typeAt d pos)
            (stopOf <$> readType ⟨pos, (textBetween d pos d.utf8ByteSize).toList⟩) ∧
          ∀ t stop, (typeAt d pos).run.value = .ok (t, stop) →
            IsBoundary d stop ∧ pos < stop ∧ textBetween d pos stop = toString t := by
  refine ⟨TypeDescriptor.slicesSafely_parseAt d, MethodDescriptor.slicesSafely_parseAt d,
    fun i => IsBoundary.le, fun pos hpos => ⟨?_, fun t stop => typeAt_advances hpos⟩⟩
  have hr := hpos.exists_rest
  have htype := slicesSafely_typeAt hr
  exact htype

/-- The character in the class name takes four bytes, and none of the offsets inside it is met. -/
theorem parsers_slice_at_boundaries_wide :
    IsBoundary "(L𝄞;)V" 1 ∧ (typeAt "(L𝄞;)V" 1).run.log = [1, 9, 2, 9, 2, 6] ∧
      (typeAt "(L𝄞;)V" 1).run.value = .ok (⟨0, .object "𝄞"⟩, 7) ∧
      textBetween "(L𝄞;)V" 1 7 = "L𝄞;" := by
  have hpos : IsBoundary "(L𝄞;)V" 1 := by decide
  have hvalue : (typeAt "(L𝄞;)V" 1).run.value = .ok (⟨0, .object "𝄞"⟩, 7) := by decide +kernel
  have h := (parsers_slice_at_boundaries "(L𝄞;)V").2.2.2 1 hpos
  exact ⟨hpos, by decide +kernel, hvalue, (h.2 _ _ hvalue).2.2⟩

end ClassSketch.Descriptor
