import ClassSketch.Proofs.Steps

namespace ClassSketch.ClassFile

variable {α β : Type}

theorem log_lift (step : ReadM α) (c : Cursor) : ((liftM step : LogReadM α) c).run.log = [] := rfl

theorem log_bind_of_ok {steps : LogReadM α} {c c' : Cursor} {a : α}
    (h : plain steps c = .ok (a, c')) (f : α → LogReadM β) :
    ((steps >>= f) c).run.log = (steps c).run.log ++ (f a c').run.log :=
  Attempt.log_bind_of_ok h _

theorem log_bind_of_error {steps : LogReadM α} {c : Cursor} {e : ReadError}
    (h : plain steps c = .error e) (f : α → LogReadM β) :
    ((steps >>= f) c).run.log = (steps c).run.log :=
  Attempt.log_bind_of_error h _

theorem log_lift_bind_of_ok {step : ReadM α} {c c' : Cursor} {a : α} (h : step c = .ok (a, c'))
    (f : α → LogReadM β) : ((liftM step >>= f : LogReadM β) c).run.log = (f a c').run.log := by
  have hplain : plain (liftM step) c = .ok (a, c') := h
  rw [log_bind_of_ok hplain, log_lift, List.nil_append]

theorem log_lift_bind_of_error {step : ReadM α} {c : Cursor} {e : ReadError}
    (h : step c = .error e) (f : α → LogReadM β) :
    ((liftM step >>= f : LogReadM β) c).run.log = [] := by
  have hplain : plain (liftM step) c = .error e := h
  rw [log_bind_of_error hplain, log_lift]

theorem log_forM_log (level : Level) (event : α → Event) (l : List α) (c : Cursor) :
    ((l.forM fun a => log level (event a)) c).run.log = l.map fun a => ⟨level, event a⟩ := by
  induction l with
  | nil => rfl
  | cons a l ih =>
    have hlogged : plain (log level (event a)) c = .ok ((), c) := rfl
    rw [List.forM, log_bind_of_ok hlogged, ih]
    rfl

def ReadError.records : ReadError → List Record
  | badConstantTag tag offset => [⟨.warn, .unknownTag tag offset⟩]
  | _ => []

def Silent (step : ReadM α) : Prop := ∀ c e, step c = .error e → e.records = []

namespace Silent

protected theorem pure (a : α) : Silent (pure a) := by
  intro c e h
  cases h

protected theorem bind {step : ReadM α} {f : α → ReadM β} (h : Silent step)
    (hf : ∀ a, Silent (f a)) : Silent (step >>= f) := by
  intro c e he
  obtain he | ⟨p, -, he⟩ := bind_eq_error_iff.1 (show (step c >>= fun p => f p.1 p.2) = _ from he)
  · exact h c e he
  · exact hf p.1 p.2 e he

protected theorem take (n : Nat) : Silent (take n) := by
  intro c e h
  rw [ClassFile.take] at h
  split at h <;> cases h
  rfl

theorem compositional : Compositional (fun _ => Silent) (·.records = []) where
  badConstantIndex _ := rfl
  constantKind _ _ _ _ _ := rfl
  descriptor _ _ := rfl
  pure := Silent.pure
  lift {_ x} hx _ e h := by
    cases x with
    | ok => cases h
    | error =>
      cases h
      exact hx _ rfl
  bind := Silent.bind
  take _ := Silent.take _

protected theorem skip (n : Nat) : Silent (skip n) :=
  (Silent.take n).bind fun _ => Silent.pure ()

protected theorem offset : Silent offset := by
  intro c e h
  cases h

protected theorem readText : Silent readText := by
  rw [readText_eq]
  refine compositional.readU16.bind fun length => Silent.offset.bind fun base =>
    (Silent.take length.toNat).bind fun bytes => compositional.lift fun e he => ?_
  obtain ⟨bad, -, rfl⟩ := mapError_eq_error_iff.1 he
  rfl

end Silent

def failureRecords : Except ReadError α → List Record
  | .ok _ => []
  | .error e => e.records

/-- What the steps log is what they fail with, if it is a tag. -/
def Noted (steps : LogReadM α) : Prop :=
  ∀ c, (steps c).run.log = failureRecords (plain steps c)

namespace Noted

protected theorem pure (a : α) : Noted (pure a) := fun _ => rfl

protected theorem lift {step : ReadM α} (h : Silent step) : Noted (liftM step) := by
  intro c
  rw [log_lift, plain_lift]
  cases hstep : step c with
  | ok r => rfl
  | error e => exact (h c e hstep).symm

protected theorem bind {steps : LogReadM α} {f : α → LogReadM β} (h : Noted steps)
    (hf : ∀ a, Noted (f a)) : Noted (steps >>= f) := by
  intro c
  have hlog := h c
  rw [plain_bind]
  show _ = failureRecords (plain steps c >>= fun p => plain (f p.1) p.2)
  cases hc : plain steps c with
  | ok r =>
    rw [hc] at hlog
    rw [log_bind_of_ok hc, hlog, ok_bind]
    exact hf r.1 r.2
  | error e =>
    rw [hc] at hlog
    rw [log_bind_of_error hc, hlog]
    rfl

protected theorem readConstant : Noted readConstant := by
  refine (Noted.lift Silent.offset).bind fun start =>
    (Noted.lift Silent.compositional.readU8).bind fun tag => ?_
  split
  · exact (Noted.lift Silent.readText).bind fun text => Noted.pure _
  · split
    · exact (Noted.lift Silent.compositional.readU16).bind fun i => Noted.pure _
    · split
      · exact (Noted.lift (Silent.skip _)).bind fun _ => Noted.pure _
      · exact fun _ => rfl

protected theorem readConstants (before : List Constant) (n : Nat) :
    Noted (readConstants before n) := by
  induction before, n using readConstants.induct with
  | case1 before =>
    rw [readConstants, if_pos rfl]
    exact Noted.pure before.reverse
  | case2 before n hn ih =>
    rw [readConstants, if_neg hn]
    exact Noted.readConstant.bind ih

protected theorem readPool : Noted ConstantPool.read :=
  (Noted.lift Silent.compositional.readU16).bind fun _ =>
    (Noted.readConstants [] _).bind fun _ => Noted.pure _

end Noted

def readUpToFields : LogReadM (ConstantPool × ClassDecl) := do
  let pool ← ConstantPool.read
  let c ← (readFront pool : ReadM ClassDecl)
  return (pool, c)

theorem plain_readUpToFields : plain readUpToFields = do
    let pool ← plain ConstantPool.read
    let c ← readFront pool
    return (pool, c) := by
  simp only [readUpToFields, plain_bind, plain_lift, plain_pure]

theorem Noted.readUpToFields : Noted readUpToFields :=
  Noted.readPool.bind fun pool => (Noted.lift (Silent.compositional.readFront pool)).bind fun _ =>
    Noted.pure _

/-- Everything behind the fields of the class, which are those of `d`. -/
def readBehindFields (version : Version) (pool : ConstantPool) (d : ClassDecl) :
    LogReadM ClassDecl := do
  let methods ← (table (readMember pool d.name checkMethod) : ReadM (List MemberDecl))
  methods.forM fun m => log .trace (.method m)
  skipAttributes
  logEnd version { d with methods }
  return { d with methods }

theorem readBehind_eq_readUpToFields (version : Version) : readBehind version =
    readUpToFields >>= fun r => (r.2.fields.forM fun f => log .trace (.field f)) >>= fun _ =>
      readBehindFields version r.1 r.2 := by
  simp only [readBehind_eq, readUpToFields, readBehindFields, bind_assoc, pure_bind]

theorem readBody_apply (c : Cursor) : readBody c =
    plain readUpToFields c >>= fun r => table (readMember r.1.1 r.1.2.name checkMethod) r.2 >>=
      fun t => skipAttributes t.2 >>= fun a => .ok ({ r.1.2 with methods := t.1 }, a.2) := by
  have h : readBody = do
      let r ← plain readUpToFields
      let methods ← table (readMember r.1 r.2.name checkMethod)
      skipAttributes
      return { r.2 with methods } := by
    simp only [plain_readUpToFields, readBody, readParts_eq, readMembers, bind_assoc, pure_bind]
  rw [h]
  rfl

def fieldRecords (c : ClassDecl) : List Record := c.fields.map fun f => ⟨.trace, .field f⟩

def methodRecords (c : ClassDecl) : List Record := c.methods.map fun m => ⟨.trace, .method m⟩

def trailingRecords (c : ClassDecl) (n : Nat) : List Record :=
  if 0 < n then [⟨.warn, .trailing c.name n⟩] else []

def finishedRecord (version : Version) (c : ClassDecl) : Record :=
  ⟨.debug, .finished c.name version c.fields.length c.methods.length⟩

theorem log_logEnd (version : Version) (c : ClassDecl) (cursor : Cursor) :
    (logEnd version c cursor).run.log =
      trailingRecords c cursor.rest.length ++ [finishedRecord version c] := by
  have hrest : plain get cursor = .ok (cursor, cursor) := rfl
  rw [logEnd, log_bind_of_ok hrest, trailingRecords]
  show [] ++ ((if cursor.rest.isEmpty then _ else _ : LogReadM Unit) cursor).run.log = _
  cases cursor.rest <;> rfl

theorem log_readBehindFields_of_methods {version : Version} {pool : ConstantPool} {d : ClassDecl}
    {c c' : Cursor} {methods : List MemberDecl}
    (h : table (readMember pool d.name checkMethod) c = .ok (methods, c')) :
    (readBehindFields version pool d c).run.log =
      methodRecords { d with methods } ++ ((do
        skipAttributes
        logEnd version { d with methods }
        return { d with methods } : LogReadM ClassDecl) c').run.log := by
  rw [readBehindFields, log_lift_bind_of_ok h]
  have hlogged : plain (methods.forM fun m => log .trace (.method m)) c' = .ok ((), c') := by
    rw [plain_forM_log]
    rfl
  rw [log_bind_of_ok hlogged, log_forM_log]
  rfl

section

variable {data : List UInt8} {version : Version} {pool : ConstantPool} {d : ClassDecl}
  {c₁ c₂ c₃ : Cursor} {methods : List MemberDecl} {e : ReadError}

theorem log_read_of_version_error (h : peekVersion data = .error e) :
    (read data).run.log = [] := by
  rw [read, Attempt.log_bind_of_error ((Attempt.value_ofExcept _).trans h)]
  rfl

variable (hv : peekVersion data = .ok version)

include hv

theorem log_read_of_version :
    (read data).run.log = (readBehind version (bodyStart data)).run.log := by
  rw [read, Attempt.log_bind_of_ok ((Attempt.value_ofExcept _).trans hv), Attempt.log_ofExcept]
  exact Attempt.log_map _ _

theorem log_read_of_fields_error (h : plain readUpToFields (bodyStart data) = .error e) :
    (read data).run.log = e.records := by
  rw [log_read_of_version hv, readBehind_eq_readUpToFields, log_bind_of_error h,
    Noted.readUpToFields, h]
  rfl

variable (hf : plain readUpToFields (bodyStart data) = .ok ((pool, d), c₁))

include hf

theorem log_read_of_fields : (read data).run.log =
    fieldRecords d ++ (readBehindFields version pool d c₁).run.log := by
  rw [log_read_of_version hv, readBehind_eq_readUpToFields, log_bind_of_ok hf,
    Noted.readUpToFields, hf]
  have hlogged : plain (d.fields.forM fun f => log .trace (.field f)) c₁ = .ok ((), c₁) := by
    rw [plain_forM_log]
    rfl
  rw [log_bind_of_ok hlogged, log_forM_log]
  rfl

theorem log_read_of_methods_error
    (h : table (readMember pool d.name checkMethod) c₁ = .error e) :
    (read data).run.log = fieldRecords d := by
  rw [log_read_of_fields hv hf, readBehindFields, log_lift_bind_of_error h, List.append_nil]

variable (hm : table (readMember pool d.name checkMethod) c₁ = .ok (methods, c₂))

include hm

theorem log_read_of_attributes_error (h : skipAttributes c₂ = .error e) :
    (read data).run.log = fieldRecords d ++ methodRecords { d with methods } := by
  rw [log_read_of_fields hv hf, log_readBehindFields_of_methods hm, log_lift_bind_of_error h,
    List.append_nil]

theorem log_read_of_attributes (h : skipAttributes c₂ = .ok ((), c₃)) :
    (read data).run.log = fieldRecords d ++ (methodRecords { d with methods } ++
      (trailingRecords d c₃.rest.length ++ [finishedRecord version { d with methods }])) := by
  have hlogged : plain (logEnd version { d with methods }) c₃ = .ok ((), c₃) := by
    rw [plain_logEnd]
    rfl
  rw [log_read_of_fields hv hf, log_readBehindFields_of_methods hm, log_lift_bind_of_ok h,
    log_bind_of_ok hlogged, log_logEnd]
  exact congrArg _ (congrArg _ (List.append_nil _))

end

/-- A class that is read is logged member by member, then the bytes behind it, then as a whole. -/
theorem log_read {data : List UInt8} {version : Version} {c : ClassDecl} {c' : Cursor}
    (hv : peekVersion data = .ok version) (h : readBody (bodyStart data) = .ok (c, c')) :
    (read data).run.log = fieldRecords c ++ (methodRecords c ++
      (trailingRecords c c'.rest.length ++ [finishedRecord version c])) := by
  rw [readBody_apply] at h
  obtain ⟨⟨⟨pool, d⟩, c₁⟩, hf, h⟩ := bind_eq_ok_iff.1 h
  obtain ⟨⟨methods, c₂⟩, hm, h⟩ := bind_eq_ok_iff.1 h
  obtain ⟨⟨_, c₃⟩, ha, h⟩ := bind_eq_ok_iff.1 h
  cases h
  have hlog := log_read_of_attributes hv hf hm ha
  exact hlog

end ClassSketch.ClassFile
