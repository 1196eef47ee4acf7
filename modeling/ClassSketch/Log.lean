namespace ClassSketch

inductive Level where
  | warn | debug | trace
deriving DecidableEq, Repr

def Level.label : Level → String
  | warn => "WARN"
  | debug => "DEBUG"
  | trace => "TRACE"

structure LogRecord (ε : Type) where
  level : Level
  event : ε
deriving DecidableEq, Repr

def LogRecord.text {ε : Type} (message : ε → String) (r : LogRecord ε) : String :=
  r.level.label ++ " " ++ message r.event

structure Logged (ρ : Type) (α : Type) where
  log : List ρ
  value : α
deriving Repr

namespace Logged

variable {ρ α β : Type}

instance : Monad (Logged ρ) where
  pure a := ⟨[], a⟩
  bind x f := ⟨x.log ++ (f x.value).log, (f x.value).value⟩

def emit (r : ρ) : Logged ρ Unit := ⟨[r], ()⟩

@[simp] theorem log_pure (a : α) : (pure a : Logged ρ α).log = [] := rfl

@[simp] theorem value_pure (a : α) : (pure a : Logged ρ α).value = a := rfl

@[simp] theorem log_bind (x : Logged ρ α) (f : α → Logged ρ β) :
    (x >>= f).log = x.log ++ (f x.value).log := rfl

@[simp] theorem value_bind (x : Logged ρ α) (f : α → Logged ρ β) :
    (x >>= f).value = (f x.value).value := rfl

instance : LawfulMonad (Logged ρ) := LawfulMonad.mk' _
  (fun x => by cases x; simp [Functor.map])
  (fun _ _ => by simp [bind, pure])
  (fun _ _ _ => by simp [bind])

end Logged

/-- A computation that logs and that may fail; what was logged before a failure is kept. -/
abbrev Attempt (ρ ε α : Type) := ExceptT ε (Logged ρ) α

namespace Attempt

variable {ρ ε α : Type}

def emit (r : ρ) : Attempt ρ ε Unit := ExceptT.lift (Logged.emit r)

def ofExcept (x : Except ε α) : Attempt ρ ε α := ExceptT.mk (pure x)

end Attempt

end ClassSketch
