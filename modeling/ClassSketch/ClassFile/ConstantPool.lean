import ClassSketch.ClassFile.Record
import ClassSketch.ModifiedUtf8

namespace ClassSketch.ClassFile

inductive Constant where
  | utf8 (text : String)
  | classRef (nameIndex : UInt16)
  | number | wideNumber | index | reference | methodHandle
deriving DecidableEq, Repr

namespace Constant

def kind : Constant → ConstantKind
  | utf8 _ => .utf8
  | classRef _ => .classRef
  | number => .number
  | wideNumber => .wideNumber
  | index => .index
  | reference => .reference
  | methodHandle => .methodHandle

def width : Constant → Nat
  | wideNumber => 2
  | _ => 1

/-- What stands at the indices of the entry: the entry itself, and nothing at a second one. -/
def slots (c : Constant) : List (Option Constant) := some c :: List.replicate (c.width - 1) none

def skipped? : UInt8 → Option (Constant × Nat)
  | 3 | 4 => some (number, 4)
  | 5 | 6 => some (wideNumber, 8)
  | 8 | 16 | 19 | 20 => some (index, 2)
  | 9 | 10 | 11 | 12 | 17 | 18 => some (reference, 4)
  | 15 => some (methodHandle, 3)
  | _ => none

theorem width_pos (c : Constant) : 0 < c.width := by cases c <;> simp [width]

end Constant

def readText : ReadM String := do
  let length ← readU16
  let base ← offset
  match ModifiedUtf8.decode base (← take length.toNat) with
  | .ok text => return text
  | .error bad => throw (.invalidText bad)

def readConstant : LogReadM Constant := do
  let start ← offset
  let tag ← readU8
  if tag = 1 then return .utf8 (← readText)
  else if tag = 7 then return .classRef (← readU16)
  else match Constant.skipped? tag with
    | some (c, size) => do
      skip size
      return c
    | none => do
      log .warn (.unknownTag tag start)
      throw (.badConstantTag tag start)

/-- Reads entries until they take up `indices` indices. The last one may reach one index further.
`before` holds earlier entries, the last one first. -/
def readConstants (before : List Constant) (indices : Nat) : LogReadM (List Constant) :=
  if indices = 0 then return before.reverse
  else do
    let c ← readConstant
    readConstants (c :: before) (indices - c.width)
termination_by indices
decreasing_by
  have := c.width_pos
  omega

structure ConstantPool where
  slots : Array (Option Constant)
deriving DecidableEq, Repr

namespace ConstantPool

/-- The pool whose entries are `constants` and whose count word is `count`. Nothing stands at index
0, and no index reaches the count. -/
def ofConstants (count : Nat) (constants : List Constant) : ConstantPool :=
  ⟨((none :: constants.flatMap Constant.slots).take (max count 1)).toArray⟩

def read : LogReadM ConstantPool := do
  let count := (← readU16).toNat
  return ofConstants count (← readConstants [] (count - 1))

def constant (pool : ConstantPool) (i : UInt16) : Except ReadError Constant :=
  match pool.slots[i.toNat]? with
  | some (some c) => .ok c
  | _ => .error (.badConstantIndex i)

def text (pool : ConstantPool) (i : UInt16) : Except ReadError String := do
  match ← pool.constant i with
  | .utf8 text => return text
  | c => throw (.constantKind i c.kind .utf8)

def className (pool : ConstantPool) (i : UInt16) : Except ReadError String := do
  match ← pool.constant i with
  | .classRef nameIndex => pool.text nameIndex
  | c => throw (.constantKind i c.kind .classRef)

def className? (pool : ConstantPool) (i : UInt16) : Except ReadError (Option String) :=
  if i = 0 then .ok none else some <$> pool.className i

end ConstantPool

end ClassSketch.ClassFile
