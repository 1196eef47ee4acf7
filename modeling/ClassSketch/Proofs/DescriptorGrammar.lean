import ClassSketch.Descriptor.Parse
import ClassSketch.Proofs.Except
import Mathlib.Data.List.TakeWhile

namespace ClassSketch.Descriptor

@[simp] theorem byteLength_nil : byteLength [] = 0 := rfl

@[simp] theorem byteLength_cons (c : Char) (cs : List Char) :
    byteLength (c :: cs) = c.utf8Size + byteLength cs := rfl

@[simp] theorem byteLength_append (cs ds : List Char) :
    byteLength (cs ++ ds) = byteLength cs + byteLength ds := by
  induction cs with
  | nil => simp
  | cons c cs ih => rw [List.cons_append, byteLength_cons, byteLength_cons, ih, Nat.add_assoc]

theorem byteLength_brackets (n : Nat) : byteLength (List.replicate n '[') = n := by
  induction n with
  | zero => rfl
  | succ n ih =>
    rw [List.replicate_succ, byteLength_cons, ih]
    have hb : '['.utf8Size = 1 := by decide
    omega

namespace Primitive

theorem ofTag?_eq_some_iff {c : Char} {p : Primitive} : ofTag? c = some p ↔ p.tag = c := by
  constructor
  · intro h
    simpa using List.find?_some h
  · rintro rfl
    cases p <;> decide

theorem tag_utf8Size (p : Primitive) : p.tag.utf8Size = 1 := by cases p <;> decide

theorem tag_ne_class (p : Primitive) : p.tag ≠ 'L' := by cases p <;> decide

end Primitive

/-- An element reads as itself under `dims` brackets: no array holds `void`. -/
def Element.Readable (dims : Nat) (e : Element) : Prop :=
  e.WellFormed ∨ e = .primitive .void ∧ dims = 0

theorem span_semicolon {name : List Char} (h : ';' ∉ name) (rest : List Char) :
    (name ++ ';' :: rest).takeWhile (· ≠ ';') = name ∧
      (name ++ ';' :: rest).dropWhile (· ≠ ';') = ';' :: rest := by
  have hn : ∀ c ∈ name, decide (c ≠ ';') = true := by
    intro c hc
    simpa using fun he : c = ';' => h (he ▸ hc)
  rw [List.takeWhile_append_of_pos hn, List.dropWhile_append_of_pos hn]
  simp

theorem eq_of_span_semicolon {cs rest : List Char} {c : Char}
    (h : cs.dropWhile (· ≠ ';') = c :: rest) :
    ';' ∉ cs.takeWhile (· ≠ ';') ∧ cs = cs.takeWhile (· ≠ ';') ++ ';' :: rest := by
  have hhead := List.head?_dropWhile_not (· ≠ ';') cs
  rw [h] at hhead
  have hc : c = ';' := by simpa using hhead
  refine ⟨fun hm => ?_, ?_⟩
  · simpa using List.mem_takeWhile_imp hm
  · rw [hc] at h
    rw [← h, List.takeWhile_append_dropWhile]

theorem readElement_encode {dims start : Nat} {e : Element} (h : e.Readable dims)
    (o : Nat) (rest : List Char) :
    readElement dims start ⟨o, e.encode ++ rest⟩ =
      .ok (e, ⟨o + byteLength e.encode, rest⟩) := by
  cases e with
  | primitive p =>
    have hp : ¬ (p = .void ∧ 0 < dims) := by
      rintro ⟨rfl, hd⟩
      rcases h with h | ⟨-, h⟩
      · exact h rfl
      · omega
    have ht := Primitive.ofTag?_eq_some_iff.2 (rfl : p.tag = p.tag)
    simp only [Element.encode, List.cons_append, List.nil_append, readElement]
    split
    · rename_i hc
      cases hc
    · rename_i tail hc
      exact absurd (List.cons.inj hc).1 p.tag_ne_class
    · rename_i hc
      cases hc
      rw [ht]
      simp [hp, p.tag_utf8Size]
  | object name =>
    obtain ⟨hne, hs⟩ : name ≠ "" ∧ ';' ∉ name.toList := by
      simpa [Element.Readable, Element.WellFormed] using h
    have hspan := span_semicolon hs rest
    have hemp : name.toList.isEmpty = false := by
      simpa [List.isEmpty_eq_false_iff] using hne
    have hl : 'L'.utf8Size = 1 := by decide
    have hc : ';'.utf8Size = 1 := by decide
    simp only [Element.encode, List.cons_append, List.append_assoc, List.nil_append, readElement,
      hspan.1, hspan.2, hemp, String.ofList_toList, byteLength_cons, byteLength_append,
      byteLength_nil, hl, hc]
    simp only [Bool.false_eq_true, if_false, Except.ok.injEq, Prod.mk.injEq, Rest.mk.injEq,
      true_and, and_true]
    omega

theorem encode_of_readElement {dims start : Nat} {r s : Rest} {e : Element}
    (h : readElement dims start r = .ok (e, s)) :
    e.Readable dims ∧ r.chars = e.encode ++ s.chars ∧
      s.offset = r.offset + byteLength e.encode := by
  simp only [readElement] at h
  split at h
  · cases h
  · rename_i tail hr
    split at h
    · cases h
    · rename_i c rest hd
      obtain ⟨hout, htail⟩ := eq_of_span_semicolon hd
      split at h
      · cases h
      · rename_i hne
        cases h
        refine ⟨.inl ⟨?_, ?_⟩, ?_, ?_⟩
        · simpa using hne
        · rwa [String.toList_ofList]
        · rw [hr, Element.encode, String.toList_ofList, List.cons_append, List.append_assoc]
          exact congrArg _ htail
        · have hl : 'L'.utf8Size = 1 := by decide
          have hs : ';'.utf8Size = 1 := by decide
          simp only [Element.encode, String.toList_ofList, byteLength_cons, byteLength_append,
            byteLength_nil, hl, hs]
          omega
  · rename_i c rest _ hr
    split at h
    · cases h
    · rename_i p hp
      have htag := Primitive.ofTag?_eq_some_iff.1 hp
      split at h
      · cases h
      · rename_i hv
        cases h
        refine ⟨?_, ?_, ?_⟩
        · by_cases hvoid : p = .void
          · exact .inr ⟨by rw [hvoid], Nat.eq_zero_of_not_pos fun hd => hv ⟨hvoid, hd⟩⟩
          · exact .inl hvoid
        · simp [Element.encode, hr, htag]
        · simp [Element.encode, p.tag_utf8Size]

theorem readElement_eq_ok_iff {dims start : Nat} {r s : Rest} {e : Element} :
    readElement dims start r = .ok (e, s) ↔ e.Readable dims ∧ r.chars = e.encode ++ s.chars ∧
      s.offset = r.offset + byteLength e.encode := by
  refine ⟨encode_of_readElement, ?_⟩
  rintro ⟨he, hc, ho⟩
  obtain ⟨o, cs⟩ := r
  obtain ⟨o', rest⟩ := s
  dsimp only at hc ho
  rw [hc, ho]
  exact readElement_encode he o rest

theorem Element.encode_eq_cons (e : Element) :
    ∃ c cs, e.encode = c :: cs ∧ c ≠ '[' ∧ c ≠ ')' := by
  cases e with
  | primitive p => exact ⟨p.tag, [], rfl, by cases p <;> decide, by cases p <;> decide⟩
  | object name => exact ⟨'L', name.toList ++ [';'], rfl, by decide, by decide⟩

theorem span_brackets (dims : Nat) (e : Element) (rest : List Char) :
    (List.replicate dims '[' ++ (e.encode ++ rest)).takeWhile (· = '[') =
        List.replicate dims '[' ∧
      (List.replicate dims '[' ++ (e.encode ++ rest)).dropWhile (· = '[') =
        e.encode ++ rest := by
  obtain ⟨c, cs, he, hc, -⟩ := e.encode_eq_cons
  have hb : ∀ b ∈ List.replicate dims '[', decide (b = '[') = true := by
    intro b hm
    simpa using (List.mem_replicate.1 hm).2
  rw [List.takeWhile_append_of_pos hb, List.dropWhile_append_of_pos hb, he]
  simp [hc]

theorem takeWhile_bracket (cs : List Char) :
    cs.takeWhile (· = '[') = List.replicate (cs.takeWhile (· = '[')).length '[' := by
  rw [List.eq_replicate_iff]
  exact ⟨rfl, fun c hm => by simpa using List.mem_takeWhile_imp hm⟩

namespace TypeDescriptor

def Result (t : TypeDescriptor) : Prop := t.WellFormed ∨ t = .void

theorem result_iff {dims : Nat} {e : Element} :
    Result ⟨dims, e⟩ ↔ e.Readable dims := by
  simp [Result, WellFormed, void, Element.Readable, and_comm]

theorem byteLength_encode (dims : Nat) (e : Element) :
    byteLength (encode ⟨dims, e⟩) = dims + byteLength e.encode := by
  simp [encode, byteLength_brackets]

end TypeDescriptor

theorem readType_eq_ok_iff {r s : Rest} {t : TypeDescriptor} :
    readType r = .ok (t, s) ↔ t.Result ∧ r.chars = t.encode ++ s.chars ∧
      s.offset = r.offset + byteLength t.encode := by
  obtain ⟨dims, e⟩ := t
  rw [TypeDescriptor.result_iff, TypeDescriptor.byteLength_encode, TypeDescriptor.encode,
    List.append_assoc]
  constructor
  · intro h
    simp only [readType] at h
    split at h
    · cases h
    · rename_i e' rest he
      cases h
      obtain ⟨hr, hc, ho⟩ := readElement_eq_ok_iff.1 he
      dsimp only at hc ho
      refine ⟨hr, ?_, by omega⟩
      rw [← takeWhile_bracket, ← hc, List.takeWhile_append_dropWhile]
  · rintro ⟨hr, hc, ho⟩
    obtain ⟨ht, hd⟩ := span_brackets dims e s.chars
    rw [← hc] at ht hd
    have he : readElement dims r.offset ⟨r.offset + dims, e.encode ++ s.chars⟩ = .ok (e, s) :=
      readElement_eq_ok_iff.2 ⟨hr, rfl, by dsimp only; omega⟩
    simp only [readType, ht, hd, List.length_replicate, he]

theorem TypeDescriptor.encode_eq_cons (t : TypeDescriptor) :
    ∃ c cs, t.encode = c :: cs ∧ c ≠ ')' := by
  obtain ⟨dims, e⟩ := t
  cases dims with
  | zero =>
    obtain ⟨c, cs, he, -, hc⟩ := e.encode_eq_cons
    exact ⟨c, cs, by simpa [encode] using he, hc⟩
  | succ n => exact ⟨'[', List.replicate n '[' ++ e.encode, by simp [encode,
      List.replicate_succ], by decide⟩

theorem readParams_cons {before : List TypeDescriptor} {r s : Rest} {t : TypeDescriptor}
    (ht : t.WellFormed) (h : readType r = .ok (t, s)) :
    readParams before r = readParams (t :: before) s := by
  have hv : t ≠ .void := by
    rintro rfl
    exact ht rfl
  obtain ⟨-, hc, -⟩ := readType_eq_ok_iff.1 h
  obtain ⟨c, cs, he, hne⟩ := t.encode_eq_cons
  rw [he, List.cons_append] at hc
  rw [readParams]
  split
  · rename_i hr
    rw [hr] at hc
    cases hc
  · rename_i rest hr
    rw [hr] at hc
    exact absurd (List.cons.inj hc).1.symm hne
  · rename_i hr
    split
    · rename_i hf
      rw [h] at hf
      cases hf
    · rename_i hf
      rw [h] at hf
      cases hf
      rw [if_neg hv]

/-- The parameters that `readParams` adds to those it starts with are all it reads up to the
closing parenthesis. -/
theorem readParams_eq_ok_iff {before ts : List TypeDescriptor} {r s : Rest} :
    readParams before r = .ok (ts, s) ↔ ∃ params : List TypeDescriptor,
      ts = before.reverse ++ params ∧ (∀ t ∈ params, t.WellFormed) ∧
        r.chars = params.flatMap TypeDescriptor.encode ++ ')' :: s.chars ∧
        s.offset = r.offset + byteLength (params.flatMap TypeDescriptor.encode) + 1 := by
  constructor
  · intro h
    fun_induction readParams before r with
    | case1 => cases h
    | case2 before r rest hr =>
      cases h
      exact ⟨[], by simp, by simp, by simpa using hr, by simp⟩
    | case3 => cases h
    | case4 => cases h
    | case5 before r t rest hread hv _ _ ih =>
      obtain ⟨params, rfl, hw, hc, ho⟩ := ih h
      obtain ⟨ht, hrc, hro⟩ := readType_eq_ok_iff.1 hread
      refine ⟨t :: params, by simp, ?_, ?_, ?_⟩
      · simpa using ⟨ht.resolve_right hv, hw⟩
      · rw [hrc, hc, List.flatMap_cons, List.append_assoc]
      · rw [List.flatMap_cons, byteLength_append]
        omega
  · rintro ⟨params, rfl, hw, hc, ho⟩
    induction params generalizing before r with
    | nil =>
      rw [readParams, show r.chars = ')' :: s.chars by simpa using hc]
      simp only [List.append_nil]
      obtain ⟨o, rest⟩ := s
      simp_all
    | cons t params ih =>
      have ht : t.WellFormed := hw t (by simp)
      rw [List.flatMap_cons, List.append_assoc] at hc
      rw [List.flatMap_cons, byteLength_append] at ho
      have hread : readType r = .ok (t, ⟨r.offset + byteLength t.encode,
          params.flatMap TypeDescriptor.encode ++ ')' :: s.chars⟩) :=
        readType_eq_ok_iff.2 ⟨.inl ht, hc, rfl⟩
      rw [readParams_cons ht hread, ih (fun t hm => hw t (by simp [hm])) rfl (by dsimp only; omega)]
      simp

theorem expectEnd_eq_ok_iff {r : Rest} : expectEnd r = .ok () ↔ r.chars = [] := by
  simp [expectEnd]

theorem eq_toString_iff {s : String} {cs : List Char} : s = String.ofList cs ↔ s.toList = cs := by
  constructor
  · rintro rfl
    exact String.toList_ofList
  · rintro rfl
    exact String.ofList_toList.symm

theorem exists_readType_iff {o : Nat} {cs : List Char} {t : TypeDescriptor} :
    (∃ s, readType ⟨o, cs⟩ = .ok (t, s) ∧ expectEnd s = .ok ()) ↔ t.Result ∧ cs = t.encode := by
  constructor
  · rintro ⟨s, hr, he⟩
    obtain ⟨ht, hc, -⟩ := readType_eq_ok_iff.1 hr
    rw [expectEnd_eq_ok_iff.1 he, List.append_nil] at hc
    exact ⟨ht, hc⟩
  · rintro ⟨ht, rfl⟩
    exact ⟨⟨o + byteLength t.encode, []⟩, readType_eq_ok_iff.2 ⟨ht, by simp, rfl⟩, rfl⟩

theorem TypeDescriptor.parse_of_ne_empty {s : String} (h : s ≠ "") {t : TypeDescriptor} :
    parse s = .ok t ↔
      (∃ r, readType ⟨0, s.toList⟩ = .ok (t, r) ∧ expectEnd r = .ok ()) ∧ t ≠ .void := by
  have hs : ¬ s.isEmpty = true := by simpa using h
  rw [parse, if_neg hs, bind_eq_ok_iff]
  constructor
  · rintro ⟨⟨t', r⟩, hr, h⟩
    obtain ⟨_, he, h⟩ := bind_eq_ok_iff.1 h
    split at h
    · cases h
    · rename_i hv
      cases h
      exact ⟨⟨r, hr, he⟩, hv⟩
  · rintro ⟨⟨r, hr, he⟩, hv⟩
    exact ⟨(t, r), hr, bind_eq_ok_iff.2 ⟨(), he, by rw [if_neg hv]; rfl⟩⟩

theorem TypeDescriptor.toString_ne_empty (t : TypeDescriptor) : toString t ≠ "" := by
  obtain ⟨c, cs, he, -⟩ := t.encode_eq_cons
  intro h
  have hc : t.encode = [] := by simpa using (eq_toString_iff.1 h.symm).symm
  rw [he] at hc
  cases hc

theorem TypeDescriptor.wellFormed_iff {t : TypeDescriptor} :
    t.WellFormed ↔ t.Result ∧ t ≠ .void := by
  constructor
  · intro h
    refine ⟨.inl h, ?_⟩
    rintro rfl
    exact h rfl
  · rintro ⟨h, hv⟩
    exact h.resolve_right hv

theorem TypeDescriptor.parse_eq_ok_iff {s : String} {t : TypeDescriptor} :
    parse s = .ok t ↔ t.WellFormed ∧ s = toString t := by
  by_cases hs : s = ""
  · subst hs
    constructor
    · intro h
      cases h
    · rintro ⟨-, h⟩
      exact absurd h.symm t.toString_ne_empty
  · have ht : s = toString t ↔ s.toList = t.encode := eq_toString_iff
    rw [parse_of_ne_empty hs, exists_readType_iff, wellFormed_iff, ht]
    exact and_right_comm

theorem MethodDescriptor.parse_eq_ok_iff {s : String} {m : MethodDescriptor} :
    parse s = .ok m ↔ m.WellFormed ∧ s = toString m := by
  have hs : s = toString m ↔ s.toList = m.encode := eq_toString_iff
  rw [hs, parse]
  constructor
  · intro h
    split at h
    · cases h
    · rename_i cs hcs
      obtain ⟨⟨params, r⟩, hp, h⟩ := bind_eq_ok_iff.1 h
      obtain ⟨⟨result, r'⟩, hr, h⟩ := bind_eq_ok_iff.1 h
      obtain ⟨_, he, h⟩ := bind_eq_ok_iff.1 h
      cases h
      obtain ⟨ps, rfl, hw, hc, -⟩ := readParams_eq_ok_iff.1 hp
      obtain ⟨hv, hrc⟩ := exists_readType_iff.1 ⟨r', hr, he⟩
      dsimp only at hc hrc
      refine ⟨⟨by simpa using hw, hv.symm⟩, ?_⟩
      rw [hcs, hc, hrc]
      rfl
    · cases h
  · rintro ⟨⟨hw, hv⟩, hc⟩
    have hp : readParams [] ⟨1, m.params.flatMap TypeDescriptor.encode ++ ')' :: m.result.encode⟩ =
        .ok (m.params, ⟨1 + byteLength (m.params.flatMap TypeDescriptor.encode) + 1,
          m.result.encode⟩) :=
      readParams_eq_ok_iff.2 ⟨m.params, by simp, hw, rfl, rfl⟩
    obtain ⟨r, hr, he⟩ := exists_readType_iff.2 ⟨hv.symm, rfl⟩
    rw [hc, MethodDescriptor.encode]
    exact bind_eq_ok_iff.2 ⟨_, hp, bind_eq_ok_iff.2 ⟨_, hr, bind_eq_ok_iff.2 ⟨_, he, rfl⟩⟩⟩

/-- Both kinds of descriptors are accepted as just what they are written from. -/
theorem parse_eq_ok_iff_toString (d : String) :
    (∀ t : TypeDescriptor, TypeDescriptor.parse d = .ok t ↔ t.WellFormed ∧ d = toString t) ∧
      ∀ m : MethodDescriptor, MethodDescriptor.parse d = .ok m ↔ m.WellFormed ∧ d = toString m :=
  ⟨fun _ => TypeDescriptor.parse_eq_ok_iff, fun _ => MethodDescriptor.parse_eq_ok_iff⟩

theorem MethodDescriptor.toString_injOn {m₁ m₂ : MethodDescriptor} (h₁ : m₁.WellFormed)
    (h₂ : m₂.WellFormed) (h : toString m₁ = toString m₂) : m₁ = m₂ := by
  have hp₁ : parse (toString m₁) = .ok m₁ := parse_eq_ok_iff.2 ⟨h₁, rfl⟩
  have hp₂ : parse (toString m₁) = .ok m₂ := parse_eq_ok_iff.2 ⟨h₂, h⟩
  exact Except.ok.inj (hp₁.symm.trans hp₂)

end ClassSketch.Descriptor
