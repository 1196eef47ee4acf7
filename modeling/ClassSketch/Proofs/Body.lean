import ClassSketch.ClassFile.Read
import ClassSketch.Proofs.Except

namespace ClassSketch

namespace ClassFile

section

variable {α β : Type}

/-- The steps alone, without what they log. -/
def plain (steps : LogReadM α) : ReadM α := fun c => (steps c).run.value

theorem plain_pure (a : α) : plain (pure a) = pure a := rfl

theorem plain_throw (e : ReadError) : plain (throw e : LogReadM α) = throw e := rfl

theorem plain_lift (steps : ReadM α) : plain (liftM steps) = steps := rfl

theorem lift_pure (a : α) : (liftM (pure a : ReadM α) : LogReadM α) = pure a := rfl

theorem lift_bind (steps : ReadM α) (f : α → ReadM β) :
    (liftM (steps >>= f) : LogReadM β) = liftM steps >>= fun a => liftM (f a) := by
  funext c
  cases h : steps c with
  | ok p =>
    show Attempt.ofExcept (steps c >>= fun p => f p.1 p.2) =
      (Attempt.ofExcept (steps c) : Attempt Record ReadError _) >>= fun p => Attempt.ofExcept (f p.1 p.2)
    rw [h]
    rfl
  | error e =>
    show Attempt.ofExcept (steps c >>= fun p => f p.1 p.2) =
      (Attempt.ofExcept (steps c) : Attempt Record ReadError _) >>= fun p => Attempt.ofExcept (f p.1 p.2)
    rw [h]
    rfl

theorem plain_get : plain get = get := rfl

theorem plain_log (level : Level) (event : Event) : plain (log level event) = pure () := rfl

theorem plain_bind (steps : LogReadM α) (f : α → LogReadM β) :
    plain (steps >>= f) = plain steps >>= fun a => plain (f a) := by
  funext c
  exact Attempt.value_bind _ _

theorem plain_forM_log (level : Level) (event : α → Event) (l : List α) :
    plain (l.forM fun a => log level (event a)) = pure () := by
  induction l with
  | nil => rfl
  | cons a l ih =>
    rw [List.forM, plain_bind, plain_log, pure_bind]
    exact ih

end

theorem readText_eq : readText = (do
    let length ← readU16
    let base ← offset
    let payload ← take length.toNat
    (ModifiedUtf8.decode base payload).mapError ReadError.invalidText) := by
  rw [readText]
  refine bind_congr fun length => bind_congr fun base => bind_congr fun payload => ?_
  cases ModifiedUtf8.decode base payload <;> rfl

def constantBehind (start : Nat) (tag : UInt8) : ReadM Constant := do
  if tag = 1 then return .utf8 (← readText)
  else if tag = 7 then return .classRef (← readU16)
  else match Constant.skipped? tag with
    | some (c, size) => do
      skip size
      return c
    | none => throw (.badConstantTag tag start)

theorem plain_readConstant : plain readConstant =
    offset >>= fun start => readU8 >>= fun tag => constantBehind start tag := by
  rw [readConstant]
  simp only [plain_bind, plain_lift]
  refine bind_congr fun start => bind_congr fun tag => ?_
  rw [constantBehind]
  split
  · simp only [plain_bind, plain_lift, plain_pure]
  · split
    · simp only [plain_bind, plain_lift, plain_pure]
    · cases Constant.skipped? tag with
      | some r => simp only [plain_bind, plain_lift, plain_pure]
      | none => simp only [plain_bind, plain_log, plain_throw, pure_bind]

theorem plain_readConstants_zero (before : List Constant) :
    plain (readConstants before 0) = pure before.reverse := by
  rw [readConstants, if_pos rfl, plain_pure]

theorem plain_readConstants {indices : Nat} (h : indices ≠ 0) (before : List Constant) :
    plain (readConstants before indices) =
      plain readConstant >>= fun c => plain (readConstants (c :: before) (indices - c.width)) := by
  rw [readConstants, if_neg h, plain_bind]

theorem plain_readPool : plain ConstantPool.read = do
    let count ← readU16
    return .ofConstants count.toNat (← plain (readConstants [] (count.toNat - 1))) := by
  rw [ConstantPool.read]
  simp only [plain_bind, plain_lift, plain_pure]

def checkMagic (found : UInt32) : Except ReadError Unit :=
  if found = magic then .ok () else .error (.invalidMagic found)

theorem checkMagic_eq_error_iff {found : UInt32} {e : ReadError} :
    checkMagic found = .error e ↔ e = .invalidMagic found ∧ found ≠ magic := by
  rw [checkMagic]
  split <;> simp_all [eq_comm]

theorem readHeader_eq : readHeader = do
    checkMagic (← readU32)
    let minor ← readU16
    let major ← readU16
    return ⟨major, minor⟩ := by
  rw [readHeader]
  refine bind_congr fun found => ?_
  rw [checkMagic]
  by_cases h : found = magic
  · rw [if_pos h, if_neg (not_not_intro h)]
    rfl
  · rw [if_neg h, if_pos h]
    rfl

theorem readMember_eq (pool : ConstantPool) (owner : String)
    (check : String → Except Descriptor.Fault Unit) : readMember pool owner check = do
      let access ← readU16
      let name ← pool.text (← readU16)
      let descriptor ← pool.text (← readU16)
      (check descriptor).mapError (ReadError.descriptor descriptor)
      skipAttributes
      return { owner, name, access, descriptor } := by
  rw [readMember]
  refine bind_congr fun access => bind_congr fun i => bind_congr fun name => bind_congr fun j =>
    bind_congr fun descriptor => ?_
  cases check descriptor <;> rfl

def readFront (pool : ConstantPool) : ReadM ClassDecl := do
  let access ← readU16
  let name ← pool.className (← readU16)
  let superName ← pool.className? (← readU16)
  let interfaces ← table do pool.className (← readU16)
  let fields ← table (readMember pool name checkField)
  return { name, access, superName, interfaces, fields }

def readMembers (pool : ConstantPool) : ReadM ClassDecl := do
  let c ← readFront pool
  let methods ← table (readMember pool c.name checkMethod)
  return { c with methods }

def readParts (pool : ConstantPool) : ReadM ClassDecl := do
  let access ← readU16
  let name ← pool.className (← readU16)
  let superName ← pool.className? (← readU16)
  let interfaces ← table do pool.className (← readU16)
  let fields ← table (readMember pool name checkField)
  let methods ← table (readMember pool name checkMethod)
  skipAttributes
  return { name, access, superName, interfaces, fields, methods }

/-- Everything behind the version. -/
def readBody : ReadM ClassDecl := do
  readParts (← plain ConstantPool.read)

theorem readParts_eq (pool : ConstantPool) : readParts pool = do
    let c ← readMembers pool
    skipAttributes
    return c := by
  simp only [readParts, readMembers, readFront, bind_assoc, pure_bind]

theorem readBehind_eq (version : Version) : readBehind version = do
    let pool ← ConstantPool.read
    let c ← (readFront pool : ReadM ClassDecl)
    c.fields.forM fun f => log .trace (.field f)
    let methods ← (table (readMember pool c.name checkMethod) : ReadM (List MemberDecl))
    methods.forM fun m => log .trace (.method m)
    skipAttributes
    logEnd version { c with methods }
    return { c with methods } := by
  rw [readBehind]
  refine bind_congr fun pool => ?_
  simp only [readFront, lift_bind, lift_pure, bind_assoc, pure_bind]
  rfl

theorem plain_logEnd (version : Version) (c : ClassDecl) : plain (logEnd version c) = pure () := by
  funext cursor
  rw [logEnd, plain_bind, plain_get]
  show plain (if cursor.rest.isEmpty then _ else _) cursor = _
  split <;> rfl

theorem plain_readBehind (version : Version) : plain (readBehind version) = readBody := by
  rw [readBehind_eq, readBody]
  simp only [plain_bind, plain_lift, plain_forM_log, plain_logEnd, plain_pure, pure_bind,
    readParts_eq, readMembers, bind_assoc]

def bodyStart (data : List UInt8) : Cursor := ⟨headerSize - 2, data.drop (headerSize - 2)⟩

theorem value_read (data : List UInt8) :
    (read data).run.value = peekVersion data >>= fun _ => (·.1) <$> readBody (bodyStart data) := by
  rw [read, Attempt.value_bind, Attempt.value_ofExcept]
  refine bind_congr fun version => ?_
  rw [← plain_readBehind version]
  exact Attempt.value_map _ _

theorem value_read_eq_ok_iff {data : List UInt8} {c : ClassDecl} :
    (read data).run.value = .ok c ↔
      (∃ version, peekVersion data = .ok version) ∧
        ∃ c', readBody (bodyStart data) = .ok (c, c') := by
  rw [value_read, bind_eq_ok_iff]
  constructor
  · rintro ⟨version, hv, h⟩
    obtain ⟨⟨c, c'⟩, hb, rfl⟩ := map_eq_ok_iff.1 h
    exact ⟨⟨version, hv⟩, c', hb⟩
  · rintro ⟨⟨version, hv⟩, c', hb⟩
    exact ⟨version, hv, map_eq_ok_iff.2 ⟨(c, c'), hb, rfl⟩⟩

end ClassFile

end ClassSketch
