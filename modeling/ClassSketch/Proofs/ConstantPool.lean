import ClassSketch.Proofs.Body
import ClassSketch.Proofs.Layout

namespace ClassSketch.ClassFile

open Layout

namespace Layout

def OtherTag.constant : OtherTag → Constant
  | integer | float => .number
  | long | double => .wideNumber
  | string | methodType | moduleName | packageName => .index
  | fieldRef | methodRef | interfaceMethodRef | nameAndType | dynamic | invokeDynamic =>
    .reference
  | methodHandle => .methodHandle

def Entry.constant : Entry → Constant
  | utf8 _ text _ _ => .utf8 text
  | classRef nameIndex => .classRef nameIndex
  | other tag _ _ => tag.constant

theorem Entry.width_constant (e : Entry) : e.constant.width = e.width := by
  cases e with
  | utf8 => rfl
  | classRef => rfl
  | other tag => cases tag <;> rfl

theorem Entry.width_pos (e : Entry) : 0 < e.width := e.width_constant ▸ e.constant.width_pos

theorem Entry.width_le_two (e : Entry) : e.width ≤ 2 := by
  cases e with
  | utf8 => exact Nat.le_succ 1
  | classRef => exact Nat.le_succ 1
  | other tag => cases tag <;> simp [width, OtherTag.width]

theorem OtherTag.skipped?_code (tag : OtherTag) :
    Constant.skipped? tag.code = some (tag.constant, tag.size) := by
  cases tag <;> rfl

theorem OtherTag.exists_code_of_skipped? {tag : UInt8} {k : Constant} {size : Nat}
    (h : Constant.skipped? tag = some (k, size)) : ∃ t : OtherTag, t.code = tag := by
  have hall : ∀ tag, Constant.skipped? tag = none ∨
      ∃ t ∈ OtherTag.all, OtherTag.code t = tag :=
    ModifiedUtf8.forall_byte (by decide +kernel)
  rcases hall tag with hn | ⟨t, -, ht⟩
  · rw [hn] at h
    cases h
  · exact ⟨t, ht⟩

theorem OtherTag.code_ne (tag : OtherTag) : tag.code ≠ 1 ∧ tag.code ≠ 7 := by
  cases tag <;> decide

end Layout

namespace Recognizes

protected theorem readText : Recognizes readText fun bytes text => ∃ payload : List UInt8,
    payload.length < 2 ^ 16 ∧ bytes = digits 2 payload.length ++ payload ∧
      ModifiedUtf8.decode 0 payload = .ok text := by
  have hdecode : ∀ (base : Nat) (payload : List UInt8) (text : String),
      (ModifiedUtf8.decode base payload).mapError ReadError.invalidText = .ok text ↔
        ModifiedUtf8.decode 0 payload = .ok text := by
    intro base payload text
    rw [mapError_eq_ok_iff, ModifiedUtf8.decode_eq_ok_iff_of_base 0 base]
  rw [readText_eq]
  refine (readU16_bind fun length => at_offset fun base => take_bind length.toNat fun payload =>
    (Recognizes.lift _).congr fun bytes text => and_congr_right fun _ =>
      hdecode base payload text).congr fun bytes text => ?_
  constructor
  · rintro ⟨length, _, rfl, payload, _, rfl, hl, rfl, hd⟩
    refine ⟨payload, hl ▸ length.toNat_lt, ?_, hd⟩
    rw [List.append_nil, hl, u16]
  · rintro ⟨payload, hl, rfl, hd⟩
    have hto : (UInt16.ofNat payload.length).toNat = payload.length :=
      UInt16.toNat_ofNat_of_lt' hl
    exact ⟨.ofNat payload.length, payload, by rw [u16, hto], payload, [],
      (List.append_nil _).symm, hto.symm, rfl, hd⟩

theorem content (start : Nat) (tag : UInt8) :
    Recognizes (constantBehind start tag) fun bytes k =>
      ∃ e : Entry, e.tag = tag ∧ bytes = e.content ∧ k = e.constant := by
  rw [constantBehind]
  split
  · rename_i htag
    refine (Recognizes.readText.map Constant.utf8).congr fun bytes k => ?_
    constructor
    · rintro ⟨text, ⟨payload, hl, rfl, hd⟩, rfl⟩
      exact ⟨.utf8 payload text hl hd, htag.symm, rfl, rfl⟩
    · rintro ⟨e, he, rfl, rfl⟩
      rw [htag] at he
      cases e with
      | utf8 payload text hl hd => exact ⟨text, ⟨payload, hl, rfl, hd⟩, rfl⟩
      | classRef i => cases he
      | other t _ _ => exact absurd he t.code_ne.1
  · rename_i h₁
    split
    · rename_i htag
      refine (Recognizes.readU16.map Constant.classRef).congr fun bytes k => ?_
      constructor
      · rintro ⟨i, rfl, rfl⟩
        exact ⟨.classRef i, htag.symm, rfl, rfl⟩
      · rintro ⟨e, he, rfl, rfl⟩
        rw [htag] at he
        cases e with
        | utf8 => cases he
        | classRef i => exact ⟨i, rfl, rfl⟩
        | other t _ _ => exact absurd he t.code_ne.2
    · rename_i h₇
      split
      · rename_i k size hs
        refine ((Recognizes.skip size).map fun _ => k).congr fun bytes v => ?_
        constructor
        · rintro ⟨_, hl, rfl⟩
          obtain ⟨t, ht⟩ := OtherTag.exists_code_of_skipped? hs
          rw [← ht, OtherTag.skipped?_code] at hs
          cases hs
          exact ⟨.other t bytes hl, ht, rfl, rfl⟩
        · rintro ⟨e, he, rfl, rfl⟩
          cases e with
          | utf8 => exact absurd he.symm h₁
          | classRef => exact absurd he.symm h₇
          | other t content hl =>
            rw [← he, Entry.tag, OtherTag.skipped?_code] at hs
            cases hs
            exact ⟨(), hl, rfl⟩
      · rename_i hs
        refine (Recognizes.throw _).congr fun bytes v => ⟨False.elim, ?_⟩
        rintro ⟨e, he, -, -⟩
        cases e with
        | utf8 => exact h₁ he.symm
        | classRef => exact h₇ he.symm
        | other t _ _ =>
          rw [← he, Entry.tag, OtherTag.skipped?_code] at hs
          cases hs

protected theorem readConstant : Recognizes (plain readConstant) fun bytes k =>
    ∃ e : Entry, bytes = e.encode ∧ k = e.constant := by
  rw [plain_readConstant]
  refine (Recognizes.at_offset fun start => Recognizes.readU8.bind fun tag =>
    content start tag).congr fun bytes k => ?_
  constructor
  · rintro ⟨_, tag, _, rfl, rfl, e, rfl, rfl, rfl⟩
    exact ⟨e, rfl, rfl⟩
  · rintro ⟨e, rfl, rfl⟩
    exact ⟨[e.tag], e.tag, e.content, rfl, rfl, e, rfl, rfl, rfl⟩

end Recognizes

namespace Layout

/-- The constants take up `n` indices, or a last one of width two takes up one more. -/
def Fills (n : Nat) (es : List Entry) : Prop :=
  Entry.totalWidth es = n ∨ (∃ e ∈ es.getLast?, e.width = 2) ∧ Entry.totalWidth es = n + 1

theorem totalWidth_cons (e : Entry) (es : List Entry) :
    Entry.totalWidth (e :: es) = e.width + Entry.totalWidth es := by
  simp [Entry.totalWidth]

theorem totalWidth_append (es es' : List Entry) :
    Entry.totalWidth (es ++ es') = Entry.totalWidth es + Entry.totalWidth es' := by
  simp [Entry.totalWidth]

theorem totalWidth_pos {es : List Entry} (h : es ≠ []) : 0 < Entry.totalWidth es := by
  cases es with
  | nil => exact absurd rfl h
  | cons e es =>
    have he := e.width_pos
    rw [totalWidth_cons]
    omega

theorem two_le_totalWidth {es : List Entry} (h : ∃ e ∈ es.getLast?, e.width = 2) :
    2 ≤ Entry.totalWidth es := by
  obtain ⟨e, he, hw⟩ := h
  obtain ⟨before, rfl⟩ := List.getLast?_eq_some_iff.1 he
  rw [totalWidth_append, totalWidth_cons, hw]
  omega

theorem fills_zero_iff {es : List Entry} : Fills 0 es ↔ es = [] := by
  constructor
  · rintro (h | ⟨hlast, h⟩)
    · by_contra hne
      have hpos := totalWidth_pos hne
      omega
    · have htwo := two_le_totalWidth hlast
      omega
  · rintro rfl
    exact .inl rfl

theorem not_fills_nil {n : Nat} (hn : n ≠ 0) : ¬ Fills n [] := by
  rintro (h | ⟨⟨e, he, -⟩, -⟩)
  · exact hn h.symm
  · cases he

theorem fills_cons_iff {n : Nat} (hn : n ≠ 0) (e : Entry) (es : List Entry) :
    Fills n (e :: es) ↔ Fills (n - e.width) es := by
  have hpos := e.width_pos
  have hle := e.width_le_two
  cases es with
  | nil =>
    have hnil : Entry.totalWidth [] = 0 := rfl
    simp only [Fills, totalWidth_cons, hnil, List.getLast?_singleton, List.getLast?_nil,
      Option.mem_def, Option.some.injEq, exists_eq_left', reduceCtorEq, false_and, exists_false,
      or_false]
    omega
  | cons e' es =>
    have hT := totalWidth_pos (List.cons_ne_nil e' es)
    rw [Fills, Fills, totalWidth_cons, List.getLast?_cons_cons]
    by_cases hlast : ∃ last ∈ (e' :: es).getLast?, last.width = 2
    · have htwo := two_le_totalWidth hlast
      simp only [hlast, true_and]
      clear hlast
      omega
    · simp only [hlast, false_and, or_false]
      clear hlast
      omega

end Layout

namespace Recognizes

protected theorem readConstants (before : List Constant) (n : Nat) :
    Recognizes (plain (readConstants before n)) fun bytes ks => ∃ es : List Entry, Fills n es ∧
      bytes = es.flatMap Entry.encode ∧ ks = before.reverse ++ es.map Entry.constant := by
  induction before, n using readConstants.induct with
  | case1 before =>
    rw [plain_readConstants_zero]
    refine (Recognizes.pure _).congr fun bytes ks => ?_
    simp [fills_zero_iff]
  | case2 before n hn ih =>
    rw [plain_readConstants hn]
    refine (Recognizes.readConstant.bind_encoded ih).congr fun bytes ks => ?_
    constructor
    · rintro ⟨e, _, _, rfl, rfl, es, hf, rfl, rfl⟩
      rw [e.width_constant, ← fills_cons_iff hn] at hf
      exact ⟨e :: es, hf, rfl, by simp⟩
    · rintro ⟨es, hf, rfl, rfl⟩
      cases es with
      | nil => exact absurd hf (not_fills_nil hn)
      | cons e es =>
        rw [fills_cons_iff hn, ← e.width_constant] at hf
        exact ⟨e, e.constant, es.flatMap Entry.encode, rfl, rfl, es, hf, rfl, by simp⟩

protected theorem readPool : Recognizes (plain ConstantPool.read) fun bytes pool =>
    ∃ (count : UInt16) (es : List Entry), Fills (count.toNat - 1) es ∧
      bytes = u16 count ++ es.flatMap Entry.encode ∧
      pool = .ofConstants count.toNat (es.map Entry.constant) := by
  rw [plain_readPool]
  refine (readU16_bind fun count => (Recognizes.readConstants [] (count.toNat - 1)).map
    (ConstantPool.ofConstants count.toNat)).congr fun bytes pool => ?_
  constructor
  · rintro ⟨count, _, rfl, _, ⟨es, hf, rfl, rfl⟩, rfl⟩
    exact ⟨count, es, hf, rfl, rfl⟩
  · rintro ⟨count, es, hf, rfl, rfl⟩
    exact ⟨count, es.flatMap Entry.encode, rfl, es.map Entry.constant, ⟨es, hf, rfl, rfl⟩, rfl⟩

end Recognizes

theorem getElem?_flatMap_eq_some_iff {α β : Type} {f : α → List β} {l : List α} {j : Nat} {b : β} :
    (l.flatMap f)[j]? = some b ↔ ∃ before a after k, l = before ++ a :: after ∧
      j = (before.map fun a => (f a).length).sum + k ∧ (f a)[k]? = some b := by
  constructor
  · intro h
    induction l generalizing j with
    | nil => simp at h
    | cons a l ih =>
      rw [List.flatMap_cons] at h
      by_cases hj : j < (f a).length
      · rw [List.getElem?_append_left hj] at h
        exact ⟨[], a, l, j, rfl, (Nat.zero_add j).symm, h⟩
      · rw [List.getElem?_append_right (Nat.le_of_not_lt hj)] at h
        obtain ⟨before, a', after, k, rfl, hk, hb⟩ := ih h
        refine ⟨a :: before, a', after, k, rfl, ?_, hb⟩
        rw [List.map_cons, List.sum_cons]
        omega
  · rintro ⟨before, a, after, k, rfl, rfl, hb⟩
    have hk : k < (f a).length := (List.getElem?_eq_some_iff.1 hb).1
    rw [List.flatMap_append, ← List.length_flatMap, List.getElem?_append_right (by omega),
      Nat.add_sub_cancel_left, List.flatMap_cons, List.getElem?_append_left hk]
    exact hb

theorem length_slots (k : Constant) : k.slots.length = k.width := by
  have hpos := k.width_pos
  rw [Constant.slots, List.length_cons, List.length_replicate]
  omega

theorem getElem?_slots {k' k : Constant} {j : Nat} :
    k'.slots[j]? = some (some k) ↔ k' = k ∧ j = 0 := by
  cases j with
  | zero => simp [Constant.slots]
  | succ j =>
    simp only [Constant.slots, List.getElem?_cons_succ, List.getElem?_replicate]
    split <;> simp

theorem getElem?_flatMap_slots {ks : List Constant} {j : Nat} {k : Constant} :
    (ks.flatMap Constant.slots)[j]? = some (some k) ↔
      ∃ before after, ks = before ++ k :: after ∧ j = (before.map Constant.width).sum := by
  simp only [getElem?_flatMap_eq_some_iff, getElem?_slots, length_slots]
  constructor
  · rintro ⟨before, _, after, _, rfl, rfl, rfl, rfl⟩
    exact ⟨before, after, rfl, rfl⟩
  · rintro ⟨before, after, rfl, rfl⟩
    exact ⟨before, k, after, 0, rfl, rfl, rfl, rfl⟩

theorem ConstantPool.constant_eq_error_iff {pool : ConstantPool} {i : UInt16} {e : ReadError} :
    pool.constant i = .error e ↔ e = .badConstantIndex i ∧ ∀ k, pool.constant i ≠ .ok k := by
  rw [constant]
  split <;> simp [eq_comm]

theorem constant_ofConstants_eq_ok_iff {count : Nat} {ks : List Constant} {i : UInt16}
    {k : Constant} :
    (ConstantPool.ofConstants count ks).constant i = .ok k ↔ i.toNat < count ∧
      ∃ before after, ks = before ++ k :: after ∧
        i.toNat = 1 + (before.map Constant.width).sum := by
  have hget : (ConstantPool.ofConstants count ks).constant i = .ok k ↔
      ((none :: ks.flatMap Constant.slots).take (max count 1))[i.toNat]? = some (some k) := by
    simp only [ConstantPool.constant, ConstantPool.ofConstants, List.getElem?_toArray]
    split
    · rename_i k' h
      simp [h]
    · rename_i h
      simpa using h k
  rw [hget, List.getElem?_take]
  cases hi : i.toNat with
  | zero =>
    simp only [List.getElem?_cons_zero]
    constructor
    · intro h
      split at h <;> cases h
    · rintro ⟨-, before, after, -, h⟩
      omega
  | succ j =>
    have hlt : j + 1 < max count 1 ↔ j + 1 < count := by omega
    have hsum : ∀ n, j + 1 = 1 + n ↔ j = n := by omega
    simp only [hlt, hsum, List.getElem?_cons_succ, ← getElem?_flatMap_slots]
    split
    · rename_i h
      simp [h]
    · rename_i h
      simp [h]

theorem lt_of_fills {count : Nat} {before after : List Entry} {e : Entry}
    (h : Fills (count - 1) (before ++ e :: after)) : 1 + Entry.totalWidth before < count := by
  have hpos := e.width_pos
  have hw := totalWidth_append before (e :: after)
  have hc := totalWidth_cons e after
  rcases h with h | ⟨hlast, h⟩
  · omega
  · rw [List.getLast?_append_cons] at hlast
    have htwo := two_le_totalWidth hlast
    omega

section

variable {count : Nat} {es : List Entry} (h : Fills (count - 1) es)

include h

theorem constant_eq_ok_iff {i : UInt16} {k : Constant} :
    (ConstantPool.ofConstants count (es.map Entry.constant)).constant i = .ok k ↔
      ∃ e, EntryAt es i e ∧ e.constant = k := by
  have hwidth : ∀ before : List Entry,
      ((before.map Entry.constant).map Constant.width).sum = Entry.totalWidth before := by
    intro before
    rw [List.map_map, Entry.totalWidth]
    exact congrArg List.sum (List.map_congr_left fun e _ => e.width_constant)
  rw [constant_ofConstants_eq_ok_iff]
  constructor
  · rintro ⟨-, _, _, hks, hi⟩
    obtain ⟨before, rest, rfl, rfl, hrest⟩ := List.map_eq_append_iff.1 hks
    obtain ⟨e, after, rfl, rfl, -⟩ := List.map_eq_cons_iff.1 hrest
    exact ⟨e, ⟨before, after, rfl, by rw [hi, hwidth]⟩, rfl⟩
  · rintro ⟨e, ⟨before, after, rfl, hi⟩, rfl⟩
    exact ⟨hi ▸ lt_of_fills h, before.map Entry.constant, after.map Entry.constant, by simp,
      by rw [hi, hwidth]⟩

theorem text_eq_ok_iff {i : UInt16} {text : String} :
    (ConstantPool.ofConstants count (es.map Entry.constant)).text i = .ok text ↔
      IsText es i text := by
  rw [ConstantPool.text, bind_eq_ok_iff]
  constructor
  · rintro ⟨k, hk, ht⟩
    obtain ⟨e, he, rfl⟩ := (constant_eq_ok_iff h).1 hk
    cases e with
    | utf8 bytes text' short decoded =>
      cases ht
      exact ⟨bytes, short, decoded, he⟩
    | classRef => cases ht
    | other tag => cases tag <;> cases ht
  · rintro ⟨bytes, short, decoded, he⟩
    exact ⟨.utf8 text, (constant_eq_ok_iff h).2 ⟨_, he, rfl⟩, rfl⟩

theorem className_eq_ok_iff {i : UInt16} {name : String} :
    (ConstantPool.ofConstants count (es.map Entry.constant)).className i = .ok name ↔
      IsClassName es i name := by
  rw [ConstantPool.className, bind_eq_ok_iff]
  constructor
  · rintro ⟨k, hk, ht⟩
    obtain ⟨e, he, rfl⟩ := (constant_eq_ok_iff h).1 hk
    cases e with
    | utf8 => cases ht
    | classRef nameIndex => exact ⟨nameIndex, he, (text_eq_ok_iff h).1 ht⟩
    | other tag => cases tag <;> cases ht
  · rintro ⟨nameIndex, he, ht⟩
    exact ⟨.classRef nameIndex, (constant_eq_ok_iff h).2 ⟨_, he, rfl⟩, (text_eq_ok_iff h).2 ht⟩

end

end ClassSketch.ClassFile
