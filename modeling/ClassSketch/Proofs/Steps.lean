import ClassSketch.Proofs.Body
import Mathlib.Algebra.Ring.Nat

namespace ClassSketch.ClassFile

/-- The errors that come of the constants and of the texts of descriptors are `allowed`. -/
structure AllowsLookups (allowed : ReadError → Prop) : Prop where
  badConstantIndex (i : UInt16) : allowed (.badConstantIndex i)
  constantKind (i : UInt16) {found wanted : ConstantKind} : found ≠ wanted →
    wanted = .utf8 ∨ wanted = .classRef → allowed (.constantKind i found wanted)
  descriptor (text : String) (fault : Descriptor.Fault) : allowed (.descriptor text fault)

namespace AllowsLookups

variable {allowed : ReadError → Prop} {pool : ConstantPool} {i : UInt16} {e : ReadError}
  (h : AllowsLookups allowed)

include h

theorem constant (he : pool.constant i = .error e) : allowed e := by
  rw [ConstantPool.constant] at he
  split at he
  · cases he
  · cases he
    exact h.badConstantIndex i

theorem text (he : pool.text i = .error e) : allowed e := by
  obtain hi | ⟨k, -, hk⟩ := bind_eq_error_iff.1 he
  · exact h.constant hi
  · cases k with
    | utf8 text => cases hk
    | _ =>
      cases hk
      exact h.constantKind i nofun (.inl rfl)

theorem className (he : pool.className i = .error e) : allowed e := by
  obtain hi | ⟨k, -, hk⟩ := bind_eq_error_iff.1 he
  · exact h.constant hi
  · cases k with
    | classRef nameIndex => exact h.text hk
    | _ =>
      cases hk
      exact h.constantKind i nofun (.inr rfl)

theorem className? (he : pool.className? i = .error e) : allowed e := by
  rw [ConstantPool.className?] at he
  split at he
  · cases he
  · exact h.className (map_eq_error_iff.1 he)

theorem check {check : String → Except Descriptor.Fault Unit} {s : String}
    (he : (check s).mapError (ReadError.descriptor s) = .error e) : allowed e := by
  obtain ⟨fault, -, rfl⟩ := mapError_eq_error_iff.1 he
  exact h.descriptor s fault

end AllowsLookups

/-- `P` passes from the parts of a reading step to the whole, as long as what it takes from
elsewhere fails with `allowed` errors only. No length in a class file has more than four bytes. -/
structure Compositional (P : (α : Type) → ReadM α → Prop) (allowed : ReadError → Prop) : Prop
    extends AllowsLookups allowed where
  pure {α : Type} (a : α) : P α (pure a)
  lift {α : Type} {x : Except ReadError α} : (∀ e, x = .error e → allowed e) → P α (liftM x)
  bind {α β : Type} {step : ReadM α} {f : α → ReadM β} : P α step → (∀ a, P β (f a)) →
    P β (step >>= f)
  take {n : Nat} : n < 2 ^ 32 → P (List UInt8) (take n)

namespace Compositional

variable {P : (α : Type) → ReadM α → Prop} {allowed : ReadError → Prop} {α : Type}
  (h : Compositional P allowed)

include h

theorem skip {n : Nat} (hn : n < 2 ^ 32) : P Unit (skip n) := h.bind (h.take hn) fun _ => h.pure ()

theorem readU8 : P UInt8 readU8 := h.bind (h.take (by decide)) fun _ => h.pure _

theorem readU16 : P UInt16 readU16 := h.bind (h.take (by decide)) fun _ => h.pure _

theorem readU32 : P UInt32 readU32 := h.bind (h.take (by decide)) fun _ => h.pure _

theorem times {step : ReadM α} (hstep : P α step) (n : Nat) (before : List α) :
    P (List α) (times step before n) := by
  induction n generalizing before with
  | zero => exact h.pure before.reverse
  | succ n ih => exact h.bind hstep fun v => ih (v :: before)

theorem table {entry : ReadM α} (hentry : P α entry) : P (List α) (table entry) :=
  h.bind h.readU16 fun n => h.times hentry n.toNat []

theorem skipAttributes : P Unit skipAttributes := by
  have hentry : P Unit (do
      ClassFile.skip 2
      ClassFile.skip (← ClassFile.readU32).toNat) :=
    h.bind (h.skip (by decide)) fun _ => h.bind h.readU32 fun n => h.skip n.toNat_lt
  exact h.bind (h.table hentry) fun _ => h.pure ()

theorem readMember (pool : ConstantPool) (owner : String)
    (check : String → Except Descriptor.Fault Unit) :
    P MemberDecl (readMember pool owner check) := by
  rw [readMember_eq]
  exact h.bind h.readU16 fun _ => h.bind h.readU16 fun _ => h.bind (h.lift fun _ => h.text) fun _ =>
    h.bind h.readU16 fun _ => h.bind (h.lift fun _ => h.text) fun _ =>
      h.bind (h.lift fun _ => h.check) fun _ => h.bind h.skipAttributes fun _ => h.pure _

theorem readFront (pool : ConstantPool) : P ClassDecl (readFront pool) :=
  h.bind h.readU16 fun _ => h.bind h.readU16 fun _ =>
    h.bind (h.lift fun _ => h.className) fun name => h.bind h.readU16 fun _ =>
      h.bind (h.lift fun _ => h.className?) fun _ =>
        h.bind (h.table (h.bind h.readU16 fun _ => h.lift fun _ => h.className)) fun _ =>
          h.bind (h.table (h.readMember pool name checkField)) fun _ => h.pure _

theorem readMembers (pool : ConstantPool) : P ClassDecl (readMembers pool) :=
  h.bind (h.readFront pool) fun c =>
    h.bind (h.table (h.readMember pool c.name checkMethod)) fun _ => h.pure _

theorem readParts (pool : ConstantPool) : P ClassDecl (readParts pool) := by
  rw [readParts_eq]
  exact h.bind (h.readMembers pool) fun _ => h.bind h.skipAttributes fun _ => h.pure _

theorem readHeader (hmagic : ∀ found, allowed (.invalidMagic found)) : P Version readHeader := by
  have hcheck : ∀ found e, checkMagic found = .error e → allowed e := by
    intro found e he
    obtain ⟨rfl, -⟩ := checkMagic_eq_error_iff.1 he
    exact hmagic found
  rw [readHeader_eq]
  exact h.bind h.readU32 fun found => h.bind (h.lift (hcheck found)) fun _ =>
    h.bind h.readU16 fun _ => h.bind h.readU16 fun _ => h.pure _

end Compositional

end ClassSketch.ClassFile
