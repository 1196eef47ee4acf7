import ClassSketch.Proofs.Recognition
import ClassSketch.Proofs.Steps

namespace ClassSketch.ClassFile

variable {α β : Type}

def Cursor.append (c : Cursor) (more : List UInt8) : Cursor := ⟨c.offset, c.rest ++ more⟩

def ReadError.Final : ReadError → Prop
  | tooSmall _ | truncated .. => False
  | _ => True

/-- The step runs out of bytes: it needs those from the offset `o` on, and `n` of them are missing. -/
structure Lacks (step : ReadM α) (c : Cursor) (o n : Nat) : Prop where
  offset_le : c.offset ≤ o
  le_end : o ≤ c.offset + c.rest.length
  pos : 0 < n
  append : ∀ more, more.length < n →
    step (c.append more) = .error (.truncated o (n - more.length))

/-- What the step gives is settled by the bytes that it uses. -/
structure Steady (step : ReadM α) : Prop where
  ok : ∀ {c c' : Cursor} {v : α}, step c = .ok (v, c') → ∃ used, c.rest = used ++ c'.rest ∧
    c'.offset = c.offset + used.length ∧
      ∀ rest, step ⟨c.offset, used ++ rest⟩ = .ok (v, ⟨c'.offset, rest⟩)
  error : ∀ {c : Cursor} {e : ReadError}, step c = .error e →
    (e.Final ∧ ∀ more, step (c.append more) = .error e) ∨
      ∃ o n, e = .truncated o n ∧ Lacks step c o n

namespace Steady

theorem ok_append {step : ReadM α} (h : Steady step) {c c' : Cursor} {v : α}
    (hc : step c = .ok (v, c')) (more : List UInt8) :
    step (c.append more) = .ok (v, c'.append more) := by
  obtain ⟨used, hrest, -, hused⟩ := h.ok hc
  rw [Cursor.append, hrest, List.append_assoc]
  exact hused _

protected theorem pure (a : α) : Steady (pure a : ReadM α) where
  ok := by
    intro c c' v h
    cases h
    exact ⟨[], rfl, rfl, fun _ => rfl⟩
  error := by
    intro c e h
    cases h

protected theorem throw {e : ReadError} (he : e.Final) : Steady (throw e : ReadM α) where
  ok := by
    intro c c' v h
    cases h
  error := by
    intro c e' h
    cases h
    exact .inl ⟨he, fun _ => rfl⟩

protected theorem lift {x : Except ReadError α} (hx : ∀ e, x = .error e → e.Final) :
    Steady (liftM x : ReadM α) := by
  cases x with
  | error e => exact Steady.throw (hx e rfl)
  | ok a => exact Steady.pure a

protected theorem bind {step : ReadM α} {f : α → ReadM β} (h : Steady step)
    (hf : ∀ a, Steady (f a)) : Steady (step >>= f) where
  ok := by
    intro c c' v hc
    rw [bind_apply, bind_eq_ok_iff] at hc
    obtain ⟨⟨a, m⟩, ha, hv⟩ := hc
    obtain ⟨used₁, hr₁, ho₁, hused₁⟩ := h.ok ha
    obtain ⟨used₂, hr₂, ho₂, hused₂⟩ := (hf a).ok hv
    refine ⟨used₁ ++ used₂, ?_, ?_, fun rest => ?_⟩
    · rw [hr₁, hr₂, List.append_assoc]
    · rw [ho₂, ho₁, List.length_append, Nat.add_assoc]
    · rw [bind_apply, List.append_assoc, hused₁, ok_bind]
      exact hused₂ rest
  error := by
    intro c e hc
    rw [bind_apply, bind_eq_error_iff] at hc
    rcases hc with hstep | ⟨⟨a, m⟩, ha, hv⟩
    · rcases h.error hstep with ⟨he, happend⟩ | ⟨o, n, rfl, hl⟩
      · refine .inl ⟨he, fun more => ?_⟩
        rw [bind_apply, happend]
        rfl
      · refine .inr ⟨o, n, rfl, hl.offset_le, hl.le_end, hl.pos, fun more hmore => ?_⟩
        rw [bind_apply, hl.append more hmore]
        rfl
    · obtain ⟨used, hr, ho, -⟩ := h.ok ha
      have hoffset : m.offset = c.offset + used.length := ho
      have hbind : ∀ more, (step >>= f) (c.append more) = f a (m.append more) := by
        intro more
        rw [bind_apply, h.ok_append ha, ok_bind]
      have hlen : c.rest.length = used.length + m.rest.length := by
        rw [hr, List.length_append]
      rcases (hf a).error hv with ⟨he, happend⟩ | ⟨o, n, rfl, hl⟩
      · exact .inl ⟨he, fun more => (hbind more).trans (happend more)⟩
      · have hle : m.offset ≤ o := hl.offset_le
        have hend : o ≤ m.offset + m.rest.length := hl.le_end
        exact .inr ⟨o, n, rfl, by omega, by omega, hl.pos,
          fun more hmore => (hbind more).trans (hl.append more hmore)⟩

theorem at_offset {f : Nat → ReadM α} (h : ∀ o, Steady (f o)) : Steady (offset >>= f) where
  ok := fun {c} => (h c.offset).ok
  error := by
    intro c e hc
    rcases (h c.offset).error hc with hfinal | ⟨o, n, he, hl⟩
    · exact .inl hfinal
    · exact .inr ⟨o, n, he, hl.offset_le, hl.le_end, hl.pos, hl.append⟩

end Steady

theorem take_of_le {n : Nat} {c : Cursor} (h : n ≤ c.rest.length) :
    take n c = .ok (c.rest.take n, ⟨c.offset + n, c.rest.drop n⟩) := by
  rw [take, if_pos (List.length_take_of_le h)]

theorem take_of_lt {n : Nat} {c : Cursor} (h : c.rest.length < n) :
    take n c = .error (.truncated c.offset (n - c.rest.length)) := by
  have hall : c.rest.take n = c.rest := List.take_of_length_le (Nat.le_of_lt h)
  rw [take, hall, if_neg (Nat.ne_of_lt h)]

namespace Steady

protected theorem take (n : Nat) : Steady (take n) where
  ok := by
    intro c c' v hc
    by_cases h : n ≤ c.rest.length
    · rw [take_of_le h] at hc
      cases hc
      have hlen : (c.rest.take n).length = n := List.length_take_of_le h
      refine ⟨c.rest.take n, (List.take_append_drop n c.rest).symm, by rw [hlen], fun rest => ?_⟩
      rw [take_of_le (by simp [h]), List.take_left' hlen, List.drop_left' hlen]
    · rw [take_of_lt (Nat.lt_of_not_le h)] at hc
      cases hc
  error := by
    intro c e hc
    by_cases h : n ≤ c.rest.length
    · rw [take_of_le h] at hc
      cases hc
    · have hlt := Nat.lt_of_not_le h
      rw [take_of_lt hlt] at hc
      cases hc
      refine .inr ⟨c.offset, n - c.rest.length, rfl, Nat.le_refl _, Nat.le_add_right .., by omega,
        fun more hmore => ?_⟩
      have hlen : (c.append more).rest.length = c.rest.length + more.length :=
        List.length_append
      rw [take_of_lt (by omega), hlen, Nat.sub_add_eq]
      rfl

protected theorem skip (n : Nat) : Steady (skip n) :=
  (Steady.take n).bind fun _ => Steady.pure ()

theorem compositional : Compositional (fun _ => Steady) ReadError.Final where
  badConstantIndex _ := trivial
  constantKind _ _ _ _ _ := trivial
  descriptor _ _ := trivial
  pure := Steady.pure
  lift := Steady.lift
  bind := Steady.bind
  take _ := Steady.take _

protected theorem readHeader : Steady readHeader := compositional.readHeader fun _ => trivial

protected theorem readText : Steady readText := by
  refine compositional.readU16.bind fun length => at_offset fun base =>
    (Steady.take length.toNat).bind fun payload => ?_
  split
  · exact Steady.pure _
  · exact Steady.throw trivial

protected theorem readConstant : Steady (plain readConstant) := by
  rw [plain_readConstant]
  refine at_offset fun start => compositional.readU8.bind fun tag => ?_
  rw [constantBehind]
  split
  · exact Steady.readText.bind fun text => Steady.pure _
  · split
    · exact compositional.readU16.bind fun nameIndex => Steady.pure _
    · split
      · exact (Steady.skip _).bind fun _ => Steady.pure _
      · exact Steady.throw trivial

protected theorem readConstants (before : List Constant) (n : Nat) :
    Steady (plain (readConstants before n)) := by
  induction before, n using readConstants.induct with
  | case1 before =>
    rw [plain_readConstants_zero]
    exact Steady.pure before.reverse
  | case2 before n hn ih =>
    rw [plain_readConstants hn]
    exact Steady.readConstant.bind ih

end Steady

end ClassSketch.ClassFile
