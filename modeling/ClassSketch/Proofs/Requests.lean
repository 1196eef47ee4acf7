import ClassSketch.Proofs.Steady

namespace ClassSketch.ClassFile

variable {α β : Type}

structure Request where
  cursor : Cursor
  size : Nat

/-- Taking the step from a cursor makes these requests, one after the other, and ends so. -/
inductive Runs : {α : Type} → ReadM α → Cursor → List Request →
    Except ReadError (α × Cursor) → Prop where
  | pure {α : Type} (a : α) (c : Cursor) : Runs (pure a) c [] (.ok (a, c))
  | throw {α : Type} (e : ReadError) (c : Cursor) : Runs (throw e : ReadM α) c [] (.error e)
  | offset (c : Cursor) : Runs offset c [] (.ok (c.offset, c))
  | take (n : Nat) (c : Cursor) : Runs (take n) c [⟨c, n⟩] (take n c)
  | bind_ok {α β : Type} {step : ReadM α} {f : α → ReadM β} {c c' : Cursor} {a : α}
    {asks asks' : List Request} {r : Except ReadError (β × Cursor)} :
    Runs step c asks (.ok (a, c')) → Runs (f a) c' asks' r →
      Runs (step >>= f) c (asks ++ asks') r
  | bind_error {α β : Type} {step : ReadM α} {f : α → ReadM β} {c : Cursor} {e : ReadError}
    {asks : List Request} :
    Runs step c asks (.error e) → Runs (step >>= f) c asks (.error e)

/-- The cursor stands where its offset says, in the part of the file from `start` on. -/
structure Within (data : List UInt8) (start : Nat) (c : Cursor) : Prop where
  start_le : start ≤ c.offset
  offset_le : c.offset ≤ data.length
  rest_eq : c.rest = data.drop c.offset

namespace Within

variable {data : List UInt8} {start : Nat} {c : Cursor}

theorem length_rest (h : Within data start c) : c.rest.length = data.length - c.offset := by
  rw [h.rest_eq, List.length_drop]

theorem mono {start' : Nat} (h : Within data start c) (hs : start' ≤ start) :
    Within data start' c :=
  ⟨Nat.le_trans hs h.start_le, h.offset_le, h.rest_eq⟩

protected theorem take {n : Nat} (h : Within data start c) (hn : n ≤ c.rest.length) :
    Within data (start + n) ⟨c.offset + n, c.rest.drop n⟩ where
  start_le := Nat.add_le_add_right h.start_le n
  offset_le := by
    have hlen := h.length_rest
    have hle := h.offset_le
    dsimp only
    omega
  rest_eq := by rw [h.rest_eq, List.drop_drop]

theorem of_take {n : Nat} {bytes : List UInt8} {c' : Cursor} (h : Within data start c)
    (ht : take n c = .ok (bytes, c')) : Within data (start + n) c' := by
  obtain hn | hn := Nat.lt_or_ge c.rest.length n
  · rw [take_of_lt hn] at ht
    cases ht
  · rw [take_of_le hn] at ht
    cases ht
    exact h.take hn

end Within

namespace Runs

variable {step : ReadM α} {c : Cursor} {asks : List Request}
  {r : Except ReadError (α × Cursor)}

protected theorem eq (h : Runs step c asks r) : r = step c := by
  induction h with
  | pure | throw | offset | take => rfl
  | bind_ok _ _ ih ih' =>
    rw [bind_apply, ← ih, ok_bind]
    exact ih'
  | bind_error _ ih =>
    rw [bind_apply, ← ih]
    rfl

/-- Whatever the run asks for, it is in the file, and so is where the run ends. -/
theorem within {data : List UInt8} {start : Nat} (h : Runs step c asks r)
    (hc : Within data start c) : (∀ ask ∈ asks, Within data start ask.cursor) ∧
      ∀ a c', r = .ok (a, c') → Within data start c' := by
  induction h with
  | pure a c =>
    refine ⟨by simp, fun a' c' h => ?_⟩
    cases h
    exact hc
  | throw e c => exact ⟨by simp, nofun⟩
  | offset c =>
    refine ⟨by simp, fun o c' h => ?_⟩
    cases h
    exact hc
  | take n c =>
    refine ⟨by simpa using hc, fun bytes c' h => ?_⟩
    exact (hc.of_take h).mono (Nat.le_add_right start n)
  | bind_ok _ _ ih ih' =>
    obtain ⟨hasks, hend⟩ := ih hc
    obtain ⟨hasks', hend'⟩ := ih' (hend _ _ rfl)
    refine ⟨fun ask hask => ?_, hend'⟩
    obtain hask | hask := List.mem_append.1 hask
    · exact hasks ask hask
    · exact hasks' ask hask
  | bind_error _ ih => exact ⟨(ih hc).1, nofun⟩

theorem fits_or_truncated (h : Runs step c asks r) {ask : Request} (hask : ask ∈ asks) :
    ask.size ≤ ask.cursor.rest.length ∨ r = .error
      (.truncated ask.cursor.offset (ask.size - ask.cursor.rest.length)) := by
  induction h with
  | pure | throw | offset => simp at hask
  | take n c =>
    obtain rfl := List.mem_singleton.1 hask
    obtain hn | hn := Nat.lt_or_ge c.rest.length n
    · exact .inr (take_of_lt hn)
    · exact .inl hn
  | bind_ok _ _ ih ih' =>
    obtain hask | hask := List.mem_append.1 hask
    · -- the first part has ended well, so it got all it asked for
      obtain hfits | hr := ih hask
      · exact .inl hfits
      · cases hr
    · exact ih' hask
  | bind_error _ ih =>
    obtain hfits | hr := ih hask
    · exact .inl hfits
    · cases hr
      exact .inr rfl

end Runs

structure Traced (P : ReadError → Prop) (step : ReadM α) (c : Cursor) : Prop where
  runs : ∃ asks, Runs step c asks (step c)
  error : ∀ e, step c = .error e → P e

namespace Traced

variable {P : ReadError → Prop} {c : Cursor}

theorem mono {Q : ReadError → Prop} {step : ReadM α} (h : Traced P step c)
    (hPQ : ∀ e, P e → Q e) : Traced Q step c :=
  ⟨h.runs, fun e he => hPQ e (h.error e he)⟩

protected theorem pure (a : α) : Traced P (pure a) c :=
  ⟨⟨[], .pure a c⟩, nofun⟩

protected theorem throw {e : ReadError} (he : P e) : Traced P (throw e : ReadM α) c := by
  refine ⟨⟨[], .throw e c⟩, fun e' h => ?_⟩
  cases h
  exact he

protected theorem lift {x : Except ReadError α} (hx : ∀ e, x = .error e → P e) :
    Traced P (liftM x : ReadM α) c := by
  cases x with
  | error e => exact Traced.throw (hx e rfl)
  | ok a => exact Traced.pure a

protected theorem bind {step : ReadM α} {f : α → ReadM β} (h : Traced P step c)
    (hf : ∀ a c', step c = .ok (a, c') → Traced P (f a) c') : Traced P (step >>= f) c := by
  obtain ⟨⟨asks, hruns⟩, herror⟩ := h
  cases hstep : step c with
  | error e =>
    have happly : (step >>= f) c = .error e := by
      rw [bind_apply, hstep]
      rfl
    rw [hstep] at hruns
    refine ⟨⟨asks, happly ▸ hruns.bind_error⟩, fun e' h => ?_⟩
    cases happly.symm.trans h
    exact herror e hstep
  | ok p =>
    obtain ⟨a, c'⟩ := p
    obtain ⟨⟨asks', hruns'⟩, herror'⟩ := hf a c' hstep
    have happly : (step >>= f) c = f a c' := by rw [bind_apply, hstep, ok_bind]
    rw [hstep] at hruns
    exact ⟨⟨asks ++ asks', happly ▸ hruns.bind_ok hruns'⟩,
      fun e h => herror' e (happly.symm.trans h)⟩

theorem at_offset {f : Nat → ReadM α} (h : Traced P (f c.offset) c) :
    Traced P (offset >>= f) c := by
  obtain ⟨⟨asks, hruns⟩, herror⟩ := h
  exact ⟨⟨asks, (Runs.offset c).bind_ok hruns⟩, herror⟩

protected theorem take {n : Nat} (h : c.rest.length < n →
    P (.truncated c.offset (n - c.rest.length))) : Traced P (take n) c := by
  refine ⟨⟨[⟨c, n⟩], .take n c⟩, fun e he => ?_⟩
  obtain hn | hn := Nat.lt_or_ge c.rest.length n
  · rw [take_of_lt hn] at he
    cases he
    exact h hn
  · rw [take_of_le hn] at he
    cases he

theorem within {data : List UInt8} {start : Nat} {step : ReadM α} {a : α} {c' : Cursor}
    (h : Traced P step c) (hc : Within data start c) (ha : step c = .ok (a, c')) :
    Within data start c' := by
  obtain ⟨asks, hruns⟩ := h.runs
  exact (hruns.within hc).2 a c' ha

end Traced

end ClassSketch.ClassFile
