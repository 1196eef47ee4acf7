import ClassSketch.ClassFile.Cursor
import ClassSketch.Proofs.Except
import Mathlib.Algebra.Ring.Nat
import Mathlib.Data.List.Forall2
import Mathlib.Data.List.Induction

namespace ClassSketch.ClassFile

variable {α β δ : Type}

theorem bind_apply (step : ReadM α) (f : α → ReadM β) (c : Cursor) :
    (step >>= f) c = step c >>= fun p => f p.1 p.2 := rfl

/-- `step` succeeds with `v` just when a form of `v` is ahead, and leaves what stands behind it. -/
def Recognizes (step : ReadM α) (form : List UInt8 → α → Prop) : Prop :=
  ∀ (c c' : Cursor) (v : α), step c = .ok (v, c') ↔ ∃ bytes, form bytes v ∧
    c.rest = bytes ++ c'.rest ∧ c'.offset = c.offset + bytes.length

namespace Recognizes

variable {form form' : List UInt8 → α → Prop}

protected theorem congr {step : ReadM α} (h : Recognizes step form)
    (hf : ∀ bytes v, form bytes v ↔ form' bytes v) : Recognizes step form' := by
  intro c c' v
  simp only [h c c' v, hf]

protected theorem pure (a : α) : Recognizes (pure a) fun bytes v => bytes = [] ∧ v = a := by
  intro c c' v
  constructor
  · intro h
    cases h
    exact ⟨[], ⟨rfl, rfl⟩, rfl, rfl⟩
  · rintro ⟨_, ⟨rfl, rfl⟩, hr, ho⟩
    obtain ⟨o, rest⟩ := c
    obtain ⟨o', rest'⟩ := c'
    dsimp only [List.nil_append, List.length_nil, Nat.add_zero] at hr ho
    rw [hr, ho]
    rfl

protected theorem bind {step : ReadM α} {f : α → ReadM β} {back : α → List UInt8 → β → Prop}
    (h : Recognizes step form) (hf : ∀ a, Recognizes (f a) (back a)) :
    Recognizes (step >>= f) fun bytes v =>
      ∃ bytes₁ a bytes₂, bytes = bytes₁ ++ bytes₂ ∧ form bytes₁ a ∧ back a bytes₂ v := by
  intro c c' v
  rw [bind_apply, bind_eq_ok_iff]
  constructor
  · rintro ⟨⟨a, m⟩, ha, hv⟩
    obtain ⟨b₁, hb₁, hr₁, ho₁⟩ := (h c m a).1 ha
    obtain ⟨b₂, hb₂, hr₂, ho₂⟩ := (hf a m c' v).1 hv
    refine ⟨b₁ ++ b₂, ⟨b₁, a, b₂, rfl, hb₁, hb₂⟩, ?_, ?_⟩
    · rw [hr₁, hr₂, List.append_assoc]
    · rw [ho₂, ho₁, List.length_append, Nat.add_assoc]
  · rintro ⟨_, ⟨b₁, a, b₂, rfl, hb₁, hb₂⟩, hr, ho⟩
    rw [List.append_assoc] at hr
    rw [List.length_append, ← Nat.add_assoc] at ho
    exact ⟨(a, ⟨c.offset + b₁.length, b₂ ++ c'.rest⟩), (h c _ a).2 ⟨b₁, hb₁, hr, rfl⟩,
      (hf a _ c' v).2 ⟨b₂, hb₂, rfl, ho⟩⟩

protected theorem throw (e : ReadError) : Recognizes (throw e : ReadM α) fun _ _ => False := by
  intro c c' v
  constructor
  · intro h
    cases h
  · rintro ⟨_, h, _⟩
    exact h.elim

protected theorem lift (x : Except ReadError α) :
    Recognizes (liftM x : ReadM α) fun bytes v => bytes = [] ∧ x = .ok v := by
  cases x with
  | error e => exact (Recognizes.throw e).congr fun _ _ => by simp
  | ok a => exact (Recognizes.pure a).congr fun _ _ => by simp [eq_comm]

protected theorem map {step : ReadM α} (h : Recognizes step form) (f : α → β) :
    Recognizes (do return f (← step)) fun bytes v => ∃ a, form bytes a ∧ v = f a := by
  refine (h.bind fun a => Recognizes.pure (f a)).congr fun bytes v => ?_
  constructor
  · rintro ⟨_, a, _, rfl, ha, rfl, rfl⟩
    rw [List.append_nil]
    exact ⟨a, ha, rfl⟩
  · rintro ⟨a, ha, rfl⟩
    exact ⟨bytes, a, [], (List.append_nil _).symm, ha, rfl, rfl⟩

theorem lift_bind {x : Except ReadError α} {f : α → ReadM β} {back : α → List UInt8 → β → Prop}
    (hf : ∀ a, Recognizes (f a) (back a)) :
    Recognizes (liftM x >>= f) fun bytes v => ∃ a, x = .ok a ∧ back a bytes v := by
  refine ((Recognizes.lift x).bind hf).congr fun bytes v => ?_
  constructor
  · rintro ⟨_, a, rest, rfl, ⟨rfl, ha⟩, hv⟩
    exact ⟨a, ha, hv⟩
  · rintro ⟨a, ha, hv⟩
    exact ⟨[], a, bytes, rfl, ⟨rfl, ha⟩, hv⟩

theorem bind_encoded {step : ReadM α} {f : α → ReadM β} {back : α → List UInt8 → β → Prop}
    {encode : δ → List UInt8} {means : δ → α → Prop}
    (h : Recognizes step fun bytes a => ∃ d, bytes = encode d ∧ means d a)
    (hf : ∀ a, Recognizes (f a) (back a)) : Recognizes (step >>= f) fun bytes v =>
      ∃ d a rest, bytes = encode d ++ rest ∧ means d a ∧ back a rest v := by
  refine (h.bind hf).congr fun bytes v => ?_
  constructor
  · rintro ⟨_, a, rest, rfl, ⟨d, rfl, hd⟩, hv⟩
    exact ⟨d, a, rest, rfl, hd, hv⟩
  · rintro ⟨d, a, rest, rfl, hd, hv⟩
    exact ⟨encode d, a, rest, rfl, ⟨d, rfl, hd⟩, hv⟩

/-- What is accepted does not hang on the offset. -/
theorem at_offset {f : Nat → ReadM α} (h : ∀ o, Recognizes (f o) form) :
    Recognizes (offset >>= f) form :=
  fun c => h c.offset c

protected theorem take (n : Nat) : Recognizes (take n) fun bytes v => v = bytes ∧ bytes.length = n := by
  intro c c' v
  obtain ⟨o, rest⟩ := c
  obtain ⟨o', rest'⟩ := c'
  simp only [ClassFile.take]
  constructor
  · intro h
    split at h
    · rename_i hl
      cases h
      exact ⟨rest.take n, ⟨rfl, hl⟩, (List.take_append_drop n rest).symm, by rw [hl]⟩
    · cases h
  · rintro ⟨bytes, ⟨rfl, hl⟩, rfl, rfl⟩
    rw [List.take_left' hl, List.drop_left' hl, if_pos hl, hl]

end Recognizes

def digits : Nat → Nat → List UInt8
  | 0, _ => []
  | size + 1, n => digits size (n / 256) ++ [UInt8.ofNat n]

@[simp] theorem length_digits (size n : Nat) : (digits size n).length = size := by
  induction size generalizing n with
  | zero => rfl
  | succ size ih => simp [digits, ih]

theorem bigEndian_concat (bytes : List UInt8) (b : UInt8) :
    bigEndian (bytes ++ [b]) = bigEndian bytes * 256 + b.toNat := by
  simp [bigEndian]

theorem bigEndian_lt (bytes : List UInt8) : bigEndian bytes < 256 ^ bytes.length := by
  induction bytes using List.reverseRecOn with
  | nil => decide
  | append_singleton bytes b ih =>
    have hb := b.toNat_lt
    rw [bigEndian_concat, List.length_append, List.length_singleton, Nat.pow_succ]
    omega

theorem digits_bigEndian (bytes : List UInt8) : digits bytes.length (bigEndian bytes) = bytes := by
  induction bytes using List.reverseRecOn with
  | nil => rfl
  | append_singleton bytes b ih =>
    have hb := b.toNat_lt
    have hd : (bigEndian bytes * 256 + b.toNat) / 256 = bigEndian bytes := by omega
    have hm : UInt8.ofNat (bigEndian bytes * 256 + b.toNat) = b := by
      rw [← UInt8.toNat_inj, UInt8.toNat_ofNat']
      omega
    rw [bigEndian_concat, List.length_append, List.length_singleton, digits, hd, ih, hm]

theorem bigEndian_digits {size n : Nat} (h : n < 256 ^ size) : bigEndian (digits size n) = n := by
  induction size generalizing n with
  | zero =>
    have hn : n = 0 := by simpa using h
    rw [hn]
    rfl
  | succ size ih =>
    rw [Nat.pow_succ] at h
    rw [digits, bigEndian_concat, ih (Nat.div_lt_of_lt_mul (by omega)), UInt8.toNat_ofNat']
    omega

theorem eq_digits_iff {size n : Nat} {bytes : List UInt8} (h : n < 256 ^ size) :
    bytes = digits size n ↔ bytes.length = size ∧ bigEndian bytes = n := by
  constructor
  · rintro rfl
    exact ⟨length_digits size n, bigEndian_digits h⟩
  · rintro ⟨rfl, rfl⟩
    exact (digits_bigEndian bytes).symm

def u16 (n : UInt16) : List UInt8 := digits 2 n.toNat

def u32 (n : UInt32) : List UInt8 := digits 4 n.toNat

namespace Recognizes

/-- A number of fixed size is what its digits say. -/
theorem number {ofNat : Nat → α} {toNat : α → Nat} {size : Nat}
    (hlt : ∀ v, toNat v < 256 ^ size) (hto : ∀ n, n < 256 ^ size → toNat (ofNat n) = n)
    (hof : ∀ v, ofNat (toNat v) = v) :
    Recognizes (do return ofNat (bigEndian (← ClassFile.take size)))
      fun bytes v => bytes = digits size (toNat v) := by
  refine ((Recognizes.take size).map fun bytes => ofNat (bigEndian bytes)).congr
    fun bytes v => ?_
  rw [eq_digits_iff (hlt v)]
  constructor
  · rintro ⟨_, ⟨rfl, hl⟩, rfl⟩
    exact ⟨hl, (hto _ (hl ▸ bigEndian_lt _)).symm⟩
  · rintro ⟨hl, hv⟩
    exact ⟨bytes, ⟨rfl, hl⟩, by rw [hv, hof]⟩

protected theorem readU8 : Recognizes readU8 fun bytes v => bytes = [v] :=
  (number UInt8.toNat_lt (fun _ h => UInt8.toNat_ofNat_of_lt' h) fun _ => UInt8.ofNat_toNat).congr
    fun _ v => by simp [digits]

protected theorem readU16 : Recognizes readU16 fun bytes v => bytes = u16 v :=
  number UInt16.toNat_lt (fun _ h => UInt16.toNat_ofNat_of_lt' h) fun _ => UInt16.ofNat_toNat

protected theorem readU32 : Recognizes readU32 fun bytes v => bytes = u32 v :=
  number UInt32.toNat_lt (fun _ h => UInt32.toNat_ofNat_of_lt' h) fun _ => UInt32.ofNat_toNat

theorem readU16_bind {f : UInt16 → ReadM β} {back : UInt16 → List UInt8 → β → Prop}
    (hf : ∀ n, Recognizes (f n) (back n)) :
    Recognizes (ClassFile.readU16 >>= f) fun bytes v =>
      ∃ n rest, bytes = u16 n ++ rest ∧ back n rest v := by
  refine (Recognizes.readU16.bind hf).congr fun bytes v => ?_
  constructor
  · rintro ⟨_, n, rest, rfl, rfl, hv⟩
    exact ⟨n, rest, rfl, hv⟩
  · rintro ⟨n, rest, rfl, hv⟩
    exact ⟨u16 n, n, rest, rfl, rfl, hv⟩

theorem take_bind (n : Nat) {f : List UInt8 → ReadM β}
    {back : List UInt8 → List UInt8 → β → Prop}
    (hf : ∀ bytes, Recognizes (f bytes) (back bytes)) :
    Recognizes (ClassFile.take n >>= f) fun bytes v =>
      ∃ front rest, bytes = front ++ rest ∧ front.length = n ∧ back front rest v := by
  refine ((Recognizes.take n).bind hf).congr fun bytes v => ?_
  constructor
  · rintro ⟨_, front, rest, rfl, ⟨rfl, hl⟩, hv⟩
    exact ⟨front, rest, rfl, hl, hv⟩
  · rintro ⟨front, rest, rfl, hl, hv⟩
    exact ⟨front, front, rest, rfl, ⟨rfl, hl⟩, hv⟩

protected theorem skip (n : Nat) : Recognizes (skip n) fun bytes _ => bytes.length = n := by
  refine ((Recognizes.take n).map fun _ => ()).congr fun bytes v => ?_
  constructor
  · rintro ⟨_, ⟨-, hl⟩, -⟩
    exact hl
  · intro hl
    exact ⟨bytes, ⟨rfl, hl⟩, rfl⟩

protected theorem times {step : ReadM α} {encode : δ → List UInt8} {means : δ → α → Prop}
    (h : Recognizes step fun bytes v => ∃ d, bytes = encode d ∧ means d v) (n : Nat)
    (before : List α) :
    Recognizes (times step before n) fun bytes vs => ∃ ds ws, ds.length = n ∧
      bytes = ds.flatMap encode ∧ List.Forall₂ means ds ws ∧ vs = before.reverse ++ ws := by
  induction n generalizing before with
  | zero =>
    refine (Recognizes.pure before.reverse).congr fun bytes vs => ?_
    constructor
    · rintro ⟨rfl, rfl⟩
      exact ⟨[], [], rfl, rfl, .nil, (List.append_nil _).symm⟩
    · rintro ⟨ds, ws, hn, rfl, hm, rfl⟩
      obtain rfl := List.length_eq_zero_iff.1 hn
      cases hm
      exact ⟨rfl, List.append_nil _⟩
  | succ n ih =>
    refine (bind_encoded h fun v => ih (v :: before)).congr fun bytes vs => ?_
    constructor
    · rintro ⟨d, v, _, rfl, hd, ds, ws, rfl, rfl, hm, rfl⟩
      exact ⟨d :: ds, v :: ws, rfl, rfl, .cons hd hm, by simp⟩
    · rintro ⟨ds, ws, hn, rfl, hm, rfl⟩
      cases hm with
      | nil => cases hn
      | @cons d v ds ws hd hm =>
        exact ⟨d, v, ds.flatMap encode, rfl, hd, ds, ws, Nat.succ.inj hn, rfl, hm, by simp⟩

end Recognizes

end ClassSketch.ClassFile
