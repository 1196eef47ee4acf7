import ClassSketch.Log
import Mathlib.Data.List.Forall2

namespace ClassSketch

variable {ε α β : Type}

theorem ok_bind (a : α) (f : α → Except ε β) : Except.ok a >>= f = f a := rfl

theorem bind_eq_ok_iff {x : Except ε α} {f : α → Except ε β} {b : β} :
    x >>= f = .ok b ↔ ∃ a, x = .ok a ∧ f a = .ok b := by
  cases x with
  | error e => simp [bind, Except.bind]
  | ok a => simp [bind, Except.bind]

theorem bind_eq_error_iff {x : Except ε α} {f : α → Except ε β} {e : ε} :
    x >>= f = .error e ↔ x = .error e ∨ ∃ a, x = .ok a ∧ f a = .error e := by
  cases x with
  | error e => simp [bind, Except.bind]
  | ok a => simp [bind, Except.bind]

theorem map_eq_ok_iff {x : Except ε α} {f : α → β} {b : β} :
    f <$> x = .ok b ↔ ∃ a, x = .ok a ∧ f a = b := by
  cases x with
  | error e => simp [Functor.map, Except.map]
  | ok a => simp [Functor.map, Except.map]

theorem map_eq_error_iff {x : Except ε α} {f : α → β} {e : ε} :
    f <$> x = .error e ↔ x = .error e := by
  cases x with
  | error e => simp [Functor.map, Except.map]
  | ok a => simp [Functor.map, Except.map]

theorem mapError_eq_ok_iff {ε' : Type} {x : Except ε α} {f : ε → ε'} {a : α} :
    x.mapError f = .ok a ↔ x = .ok a := by
  cases x with
  | error e => simp [Except.mapError]
  | ok a => simp [Except.mapError]

theorem mapError_eq_error_iff {ε' : Type} {x : Except ε α} {f : ε → ε'} {e : ε'} :
    x.mapError f = .error e ↔ ∃ e', x = .error e' ∧ f e' = e := by
  cases x with
  | error e => simp [Except.mapError]
  | ok a => simp [Except.mapError]

theorem mapM_eq_ok_iff {f : α → Except ε β} {l : List α} {bs : List β} :
    l.mapM f = .ok bs ↔ List.Forall₂ (fun a b => f a = .ok b) l bs := by
  induction l generalizing bs with
  | nil =>
    rw [List.mapM_nil, List.forall₂_nil_left_iff]
    show Except.ok [] = Except.ok bs ↔ _
    rw [Except.ok.injEq, eq_comm]
  | cons a l ih =>
    simp only [List.mapM_cons, bind_eq_ok_iff, List.forall₂_cons_left_iff, ih]
    constructor
    · rintro ⟨b, hb, bs', hbs, h⟩
      cases h
      exact ⟨b, bs', hb, hbs, rfl⟩
    · rintro ⟨b, bs', hb, hbs, rfl⟩
      exact ⟨b, hb, bs', hbs, rfl⟩

/-- The first failure is that of the whole. -/
theorem mapM_eq_error_iff {f : α → Except ε β} {l : List α} {e : ε} :
    l.mapM f = .error e ↔ ∃ before a after, l = before ++ a :: after ∧
      (∀ b ∈ before, ∃ v, f b = .ok v) ∧ f a = .error e := by
  induction l with
  | nil =>
    rw [List.mapM_nil]
    show Except.ok [] = Except.error e ↔ _
    simp
  | cons a l ih =>
    have hpure : ∀ (bs : List β), (pure bs : Except ε (List β)) ≠ .error e := by
      intro bs h
      cases h
    simp only [List.mapM_cons, bind_eq_error_iff, ih, hpure, and_false, exists_false, or_false]
    constructor
    · rintro (h | ⟨v, hv, before, a', after, rfl, hbefore, h⟩)
      · exact ⟨[], a, l, rfl, by simp, h⟩
      · exact ⟨a :: before, a', after, rfl, by simpa using ⟨⟨v, hv⟩, hbefore⟩, h⟩
    · rintro ⟨before, a', after, hl, hbefore, h⟩
      cases before with
      | nil =>
        cases hl
        exact .inl h
      | cons b before =>
        cases hl
        obtain ⟨v, hv⟩ := hbefore a (by simp)
        exact .inr ⟨v, hv, before, a', after, rfl, fun b hb => hbefore b (by simp [hb]), h⟩

theorem exists_forall₂ {r : α → β → Prop} {l : List α} (h : ∀ a ∈ l, ∃ b, r a b) :
    ∃ bs, List.Forall₂ r l bs := by
  induction l with
  | nil => exact ⟨[], .nil⟩
  | cons a l ih =>
    obtain ⟨b, hb⟩ := h a (by simp)
    obtain ⟨bs, hbs⟩ := ih fun a ha => h a (by simp [ha])
    exact ⟨b :: bs, .cons hb hbs⟩

theorem exists_of_mem_forall₂ {r : α → β → Prop} {l : List α} {bs : List β} {b : β}
    (h : List.Forall₂ r l bs) (hb : b ∈ bs) : ∃ a ∈ l, r a b := by
  induction h with
  | nil => simp at hb
  | @cons a b' l bs hab _ ih =>
    cases hb with
    | head => exact ⟨a, by simp, hab⟩
    | tail _ hb =>
      obtain ⟨a', ha', h⟩ := ih hb
      exact ⟨a', by simp [ha'], h⟩

theorem exists_append_of_forall₂ {r : α → β → Prop} {l l' : List α} {a : α} {bs : List β}
    (h : List.Forall₂ r (l ++ a :: l') bs) :
    ∃ front b back, bs = front ++ b :: back ∧ r a b ∧ List.Forall₂ r l' back := by
  induction l generalizing bs with
  | nil =>
    obtain ⟨b, back, hb, hback, rfl⟩ := List.forall₂_cons_left_iff.1 h
    exact ⟨[], b, back, rfl, hb, hback⟩
  | cons first l ih =>
    obtain ⟨b', rest, -, hrest, rfl⟩ := List.forall₂_cons_left_iff.1 h
    obtain ⟨front, b, back, rfl, hb, hback⟩ := ih hrest
    exact ⟨b' :: front, b, back, rfl, hb, hback⟩

theorem exists_mapM_eq_error_iff {f : α → Except ε β} {l : List α} :
    (∃ e, l.mapM f = .error e) ↔ ∃ a ∈ l, ∃ e, f a = .error e := by
  constructor
  · intro ⟨e, h⟩
    obtain ⟨before, a, after, rfl, _, ha⟩ := mapM_eq_error_iff.1 h
    exact ⟨a, by simp, e, ha⟩
  · intro ⟨a, ha, e, he⟩
    cases h : l.mapM f with
    | error e => exact ⟨e, rfl⟩
    | ok bs =>
      obtain ⟨before, after, rfl⟩ := List.append_of_mem ha
      obtain ⟨_, b, _, _, hb, _⟩ := exists_append_of_forall₂ (mapM_eq_ok_iff.1 h)
      rw [he] at hb
      cases hb

theorem exists_last {P : α → Prop} {l : List α} (h : ∃ a ∈ l, P a) :
    ∃ front a back, l = front ++ a :: back ∧ P a ∧ ∀ b ∈ back, ¬ P b := by
  induction l with
  | nil => simp at h
  | cons a l ih =>
    by_cases hl : ∃ b ∈ l, P b
    · obtain ⟨front, b, back, rfl, hb, hback⟩ := ih hl
      exact ⟨a :: front, b, back, rfl, hb, hback⟩
    · refine ⟨[], a, l, rfl, ?_, fun b hb hP => hl ⟨b, hb, hP⟩⟩
      obtain ⟨b, hb, hP⟩ := h
      rcases List.mem_cons.1 hb with rfl | hb
      · exact hP
      · exact absurd ⟨b, hb, hP⟩ hl

theorem toOption_eq_some_iff {x : Except ε α} {a : α} : x.toOption = some a ↔ x = .ok a := by
  cases x <;> simp [Except.toOption]

namespace Attempt

variable {ρ ε α β : Type}

theorem value_bind (x : Attempt ρ ε α) (f : α → Attempt ρ ε β) :
    (x >>= f).run.value = x.run.value >>= fun a => (f a).run.value := by
  rw [ExceptT.run_bind, Logged.value_bind]
  cases x.run.value <;> rfl

theorem value_map (f : α → β) (x : Attempt ρ ε α) : (f <$> x).run.value = f <$> x.run.value := by
  rw [map_eq_pure_bind, value_bind, map_eq_pure_bind]
  rfl

theorem log_bind_of_ok {x : Attempt ρ ε α} {a : α} (h : x.run.value = .ok a)
    (f : α → Attempt ρ ε β) : (x >>= f).run.log = x.run.log ++ (f a).run.log := by
  rw [ExceptT.run_bind, Logged.log_bind, h]

theorem log_bind_of_error {x : Attempt ρ ε α} {e : ε} (h : x.run.value = .error e)
    (f : α → Attempt ρ ε β) : (x >>= f).run.log = x.run.log := by
  rw [ExceptT.run_bind, Logged.log_bind, h]
  exact List.append_nil _

theorem log_map (f : α → β) (x : Attempt ρ ε α) : (f <$> x).run.log = x.run.log := by
  rw [map_eq_pure_bind]
  cases h : x.run.value with
  | ok a => rw [log_bind_of_ok h, ExceptT.run_pure, Logged.log_pure, List.append_nil]
  | error e => exact log_bind_of_error h _

theorem value_ofExcept (x : Except ε α) : (ofExcept x : Attempt ρ ε α).run.value = x := rfl

theorem log_ofExcept (x : Except ε α) : (ofExcept x : Attempt ρ ε α).run.log = [] := rfl

theorem value_emit (r : ρ) : (emit r : Attempt ρ ε Unit).run.value = .ok () := rfl

theorem log_emit (r : ρ) : (emit r : Attempt ρ ε Unit).run.log = [r] := rfl

end Attempt

end ClassSketch
