import ClassSketch.Proofs.ConstantPool

namespace ClassSketch.ClassFile

open Layout

namespace Layout

def Entry.IsWide (e : Entry) : Prop := e.tag = 5 ∨ e.tag = 6

theorem OtherTag.width_eq_two_iff (tag : OtherTag) :
    tag.width = 2 ↔ tag.code = 5 ∨ tag.code = 6 := by
  cases tag <;> decide

theorem Entry.isWide_iff (e : Entry) : e.IsWide ↔ e.width = 2 := by
  cases e with
  | utf8 => simp [IsWide, tag, width]
  | classRef => simp [IsWide, tag, width]
  | other tag => exact tag.width_eq_two_iff.symm

/-- `n` is the second index of a wide constant. -/
def SecondIndex (es : List Entry) (n : Nat) : Prop :=
  ∃ before e after, es = before ++ e :: after ∧ e.IsWide ∧ n = 2 + Entry.totalWidth before

theorem SecondIndex.two_le {es : List Entry} {n : Nat} (h : SecondIndex es n) : 2 ≤ n := by
  obtain ⟨before, e, after, -, -, rfl⟩ := h
  exact Nat.le_add_right 2 _

/-- No constant can be found at `n` when the count word is `count`. -/
def Unusable (count : Nat) (es : List Entry) (n : Nat) : Prop :=
  n = 0 ∨ count ≤ n ∨ SecondIndex es n

namespace Entry

def kind (e : Entry) : ConstantKind := e.constant.kind

/-- What the constant at index `i` gives where a text is wanted. -/
def text (i : UInt16) : Entry → Except ReadError String
  | utf8 _ text _ _ => .ok text
  | e => .error (.constantKind i e.kind .utf8)

/-- What the constant at index `i` gives where a class name is wanted, when `texts` tells the texts
of indices. -/
def className (texts : UInt16 → Except ReadError String) (i : UInt16) :
    Entry → Except ReadError String
  | classRef nameIndex => texts nameIndex
  | e => .error (.constantKind i e.kind .classRef)

end Entry

end Layout

/-- The pool of the constants `es` under the count word `count`. -/
structure ConstantPool.Holds (pool : ConstantPool) (count : Nat) (es : List Entry) : Prop where
  size_slots : pool.slots.size = max count 1
  slot_of_split : ∀ before e after, es = before ++ e :: after →
    pool.slots[1 + Entry.totalWidth before]? = some (some e.constant)
  slot_eq_none_iff : ∀ n, pool.slots[n]? = some none ↔ n = 0 ∨ SecondIndex es n ∧ n < count
  text_badIndex_iff : ∀ i : UInt16,
    pool.text i = .error (.badConstantIndex i) ↔ Unusable count es i.toNat
  className_badIndex_iff : ∀ i : UInt16,
    pool.className i = .error (.badConstantIndex i) ↔ Unusable count es i.toNat
  exists_entryAt_iff : ∀ i : UInt16, (∃ e, EntryAt es i e) ↔ ¬ Unusable count es i.toNat
  text_eq : ∀ i e, EntryAt es i e → pool.text i = e.text i
  className_eq : ∀ i e, EntryAt es i e → pool.className i = e.className pool.text i

theorem getElem?_slots_eq_none {k : Constant} {j : Nat} :
    k.slots[j]? = some none ↔ k.width = 2 ∧ j = 1 := by
  obtain _ | _ | j := j <;> cases k <;> simp [Constant.slots, Constant.width]

namespace Layout

def slotsOf (es : List Entry) : List (Option Constant) :=
  none :: es.flatMap fun e => e.constant.slots

variable {es : List Entry}

theorem sum_length_slots (es : List Entry) :
    (es.map fun e => e.constant.slots.length).sum = Entry.totalWidth es := by
  rw [Entry.totalWidth]
  refine congrArg List.sum (List.map_congr_left fun e _ => ?_)
  rw [length_slots, e.width_constant]

theorem length_slotsOf (es : List Entry) : (slotsOf es).length = 1 + Entry.totalWidth es := by
  rw [slotsOf, List.length_cons, List.length_flatMap, sum_length_slots, Nat.add_comm]

theorem getElem?_slotsOf_eq_some {n : Nat} {k : Constant} :
    (slotsOf es)[n]? = some (some k) ↔ ∃ before e after, es = before ++ e :: after ∧
      n = 1 + Entry.totalWidth before ∧ e.constant = k := by
  cases n with
  | zero =>
    refine iff_of_false nofun ?_
    rintro ⟨before, e, after, -, hn, -⟩
    omega
  | succ n =>
    rw [slotsOf, List.getElem?_cons_succ, getElem?_flatMap_eq_some_iff]
    constructor
    · rintro ⟨before, e, after, j, rfl, rfl, hj⟩
      obtain ⟨hk, rfl⟩ := getElem?_slots.1 hj
      refine ⟨before, e, after, rfl, ?_, hk⟩
      rw [sum_length_slots, Nat.add_zero, Nat.add_comm]
    · rintro ⟨before, e, after, rfl, hn, rfl⟩
      refine ⟨before, e, after, 0, rfl, ?_, getElem?_slots.2 ⟨rfl, rfl⟩⟩
      rw [sum_length_slots]
      omega

theorem getElem?_slotsOf_eq_none {n : Nat} :
    (slotsOf es)[n]? = some none ↔ n = 0 ∨ SecondIndex es n := by
  cases n with
  | zero => exact iff_of_true rfl (.inl rfl)
  | succ n =>
    rw [slotsOf, List.getElem?_cons_succ, getElem?_flatMap_eq_some_iff,
      or_iff_right (Nat.succ_ne_zero n)]
    constructor
    · rintro ⟨before, e, after, j, rfl, rfl, hj⟩
      obtain ⟨hwidth, rfl⟩ := getElem?_slots_eq_none.1 hj
      refine ⟨before, e, after, rfl, e.isWide_iff.2 (e.width_constant ▸ hwidth), ?_⟩
      rw [sum_length_slots]
      omega
    · rintro ⟨before, e, after, rfl, hwide, hn⟩
      refine ⟨before, e, after, 1, rfl, ?_, ?_⟩
      · rw [sum_length_slots]
        omega
      · exact getElem?_slots_eq_none.2 ⟨e.width_constant.trans (e.isWide_iff.1 hwide), rfl⟩

theorem getElem?_slots_ofConstants {count n : Nat} :
    (ConstantPool.ofConstants count (es.map Entry.constant)).slots[n]? =
      if n < max count 1 then (slotsOf es)[n]? else none := by
  rw [ConstantPool.ofConstants, List.getElem?_toArray, List.getElem?_take, List.flatMap_map]
  rfl

theorem getElem?_slots_ofConstants_eq_none {count n : Nat} :
    (ConstantPool.ofConstants count (es.map Entry.constant)).slots[n]? = some none ↔
      n = 0 ∨ SecondIndex es n ∧ n < count := by
  rw [getElem?_slots_ofConstants]
  split
  · rename_i hn
    rw [getElem?_slotsOf_eq_none]
    refine or_congr_right' fun hzero => (and_iff_left ?_).symm
    omega
  · rename_i hn
    refine iff_of_false (Option.some_ne_none none).symm ?_
    rintro (rfl | ⟨-, hlt⟩) <;> omega

variable {count : Nat} (h : Fills (count - 1) es)

include h

theorem le_length_slotsOf : max count 1 ≤ (slotsOf es).length := by
  rw [length_slotsOf]
  obtain h | ⟨-, h⟩ := h <;> omega

theorem exists_entryAt_iff {i : UInt16} :
    (∃ e, EntryAt es i e) ↔ ¬ Unusable count es i.toNat := by
  constructor
  · rintro ⟨e, before, after, rfl, hi⟩ (hzero | hcount | hsecond)
    · omega
    · have hlt := lt_of_fills h
      omega
    · have hnone := getElem?_slotsOf_eq_none.2 (.inr hsecond)
      rw [getElem?_slotsOf_eq_some.2 ⟨before, e, after, rfl, hi, rfl⟩] at hnone
      cases hnone
  · intro hi
    rw [Unusable, not_or, not_or, Nat.not_le] at hi
    have hlt : i.toNat < (slotsOf es).length :=
      Nat.lt_of_lt_of_le hi.2.1 (Nat.le_trans (Nat.le_max_left count 1) (le_length_slotsOf h))
    cases hslot : (slotsOf es)[i.toNat] with
    | none =>
      rw [← Option.some_inj, ← List.getElem?_eq_getElem, getElem?_slotsOf_eq_none] at hslot
      exact absurd hslot (not_or.2 ⟨hi.1, hi.2.2⟩)
    | some k =>
      rw [← Option.some_inj, ← List.getElem?_eq_getElem, getElem?_slotsOf_eq_some] at hslot
      obtain ⟨before, e, after, hes, hn, -⟩ := hslot
      exact ⟨e, before, after, hes, hn⟩

end Layout

section

variable {count : Nat} {es : List Entry} (h : Fills (count - 1) es) {i : UInt16}

include h

theorem constant_of_unusable (hi : Unusable count es i.toNat) :
    (ConstantPool.ofConstants count (es.map Entry.constant)).constant i =
      .error (.badConstantIndex i) := by
  refine ConstantPool.constant_eq_error_iff.2 ⟨rfl, fun k hk => ?_⟩
  obtain ⟨e, he, -⟩ := (constant_eq_ok_iff h).1 hk
  exact (exists_entryAt_iff h).1 ⟨e, he⟩ hi

theorem text_of_unusable (hi : Unusable count es i.toNat) :
    (ConstantPool.ofConstants count (es.map Entry.constant)).text i =
      .error (.badConstantIndex i) := by
  rw [ConstantPool.text, constant_of_unusable h hi]
  rfl

theorem className_of_unusable (hi : Unusable count es i.toNat) :
    (ConstantPool.ofConstants count (es.map Entry.constant)).className i =
      .error (.badConstantIndex i) := by
  rw [ConstantPool.className, constant_of_unusable h hi]
  rfl

variable {e : Entry} (he : EntryAt es i e)

include he

theorem text_of_entryAt :
    (ConstantPool.ofConstants count (es.map Entry.constant)).text i = e.text i := by
  rw [ConstantPool.text, (constant_eq_ok_iff h).2 ⟨e, he, rfl⟩, ok_bind]
  cases e with
  | utf8 => rfl
  | classRef => rfl
  | other tag => cases tag <;> rfl

theorem className_of_entryAt :
    (ConstantPool.ofConstants count (es.map Entry.constant)).className i =
      e.className (ConstantPool.ofConstants count (es.map Entry.constant)).text i := by
  rw [ConstantPool.className, (constant_eq_ok_iff h).2 ⟨e, he, rfl⟩, ok_bind]
  cases e with
  | utf8 => rfl
  | classRef => rfl
  | other tag => cases tag <;> rfl

end

namespace Layout.Entry

theorem text_ne_badIndex (e : Entry) (i j : UInt16) :
    e.text i ≠ .error (.badConstantIndex j) := by
  cases e <;> nofun

/-- A class whose name has its own index is not named by a text. -/
theorem className_ne_badIndex {e : Entry} {texts : UInt16 → Except ReadError String} {i : UInt16}
    (htexts : ∀ j, texts j = .error (.badConstantIndex i) → j = i) (hi : texts i = e.text i) :
    e.className texts i ≠ .error (.badConstantIndex i) := by
  cases e with
  | utf8 => nofun
  | other => nofun
  | classRef nameIndex =>
    intro hbad
    obtain rfl := htexts nameIndex hbad
    rw [className, hi] at hbad
    exact text_ne_badIndex _ _ _ hbad

end Layout.Entry

namespace ConstantPool

theorem eq_of_text_eq_badIndex {pool : ConstantPool} {i j : UInt16}
    (h : pool.text j = .error (.badConstantIndex i)) : j = i := by
  obtain hj | ⟨k, -, hk⟩ := bind_eq_error_iff.1 h
  · obtain ⟨hij, -⟩ := constant_eq_error_iff.1 hj
    exact (ReadError.badConstantIndex.inj hij).symm
  · cases k <;> cases hk

variable {count : Nat} {es : List Entry} (h : Fills (count - 1) es)

include h

theorem holds_ofConstants : (ofConstants count (es.map Entry.constant)).Holds count es where
  size_slots := by
    rw [ofConstants, List.size_toArray, List.length_take, List.flatMap_map]
    exact Nat.min_eq_left (le_length_slotsOf h)
  slot_of_split := by
    rintro before e after rfl
    have hlt := lt_of_fills h
    rw [getElem?_slots_ofConstants, if_pos (by omega)]
    exact getElem?_slotsOf_eq_some.2 ⟨before, e, after, rfl, rfl, rfl⟩
  slot_eq_none_iff _ := getElem?_slots_ofConstants_eq_none
  text_badIndex_iff i := by
    refine ⟨fun hbad => by_contra fun hi => ?_, text_of_unusable h⟩
    obtain ⟨e, he⟩ := (exists_entryAt_iff h).2 hi
    rw [text_of_entryAt h he] at hbad
    exact e.text_ne_badIndex i i hbad
  className_badIndex_iff i := by
    refine ⟨fun hbad => by_contra fun hi => ?_, className_of_unusable h⟩
    obtain ⟨e, he⟩ := (exists_entryAt_iff h).2 hi
    rw [className_of_entryAt h he] at hbad
    exact Entry.className_ne_badIndex (fun _ => eq_of_text_eq_badIndex) (text_of_entryAt h he) hbad
  exists_entryAt_iff _ := exists_entryAt_iff h
  text_eq _ _ := text_of_entryAt h
  className_eq _ _ := className_of_entryAt h

theorem Holds.eq_ofConstants {pool : ConstantPool} (hpool : pool.Holds count es) :
    pool = ofConstants count (es.map Entry.constant) := by
  have hslots : pool.slots = (ofConstants count (es.map Entry.constant)).slots := by
    refine Array.ext_getElem? fun n => ?_
    rw [getElem?_slots_ofConstants]
    split
    · rename_i hn
      cases hslot : (slotsOf es)[n]? with
      | none =>
        have hlen := List.getElem?_eq_none_iff.1 hslot
        have hle := le_length_slotsOf h
        omega
      | some slot =>
        cases slot with
        | none =>
          rw [getElem?_slotsOf_eq_none] at hslot
          rw [hpool.slot_eq_none_iff]
          refine hslot.imp_right fun hsecond => ⟨hsecond, ?_⟩
          have htwo := hsecond.two_le
          omega
        | some k =>
          obtain ⟨before, e, after, hes, rfl, rfl⟩ := getElem?_slotsOf_eq_some.1 hslot
          exact hpool.slot_of_split before e after hes
    · rename_i hn
      rw [Array.getElem?_eq_none_iff, hpool.size_slots]
      omega
  obtain ⟨slots⟩ := pool
  exact congrArg ConstantPool.mk hslots

end ConstantPool

/-- A pool is read from a count word and the constants that it covers, and is just what these make
of it. -/
theorem read_pool_iff_holds (c c' : Cursor) (pool : ConstantPool) :
    (ConstantPool.read c).run.value = .ok (pool, c') ↔ ∃ (count : UInt16) (es : List Entry),
      Fills (count.toNat - 1) es ∧ pool.Holds count.toNat es ∧
        c.rest = u16 count ++ es.flatMap Entry.encode ++ c'.rest ∧
        c'.offset = c.offset + (u16 count ++ es.flatMap Entry.encode).length := by
  rw [← plain, Recognizes.readPool c c' pool]
  constructor
  · rintro ⟨_, ⟨count, es, hfills, rfl, rfl⟩, hrest, hoffset⟩
    exact ⟨count, es, hfills, ConstantPool.holds_ofConstants hfills, hrest, hoffset⟩
  · rintro ⟨count, es, hfills, hpool, hrest, hoffset⟩
    exact ⟨_, ⟨count, es, hfills, rfl, hpool.eq_ofConstants hfills⟩, hrest, hoffset⟩

/-- The count word does not reach the second index of the last constant. -/
example :
    (ConstantPool.read ⟨8, [0, 3, 7, 0, 1, 5, 0, 0, 0, 0, 0, 0, 0, 0]⟩).run.value =
      .ok (⟨#[none, some (.classRef 1), some .wideNumber]⟩, ⟨22, []⟩) := by
  decide +kernel

end ClassSketch.ClassFile
