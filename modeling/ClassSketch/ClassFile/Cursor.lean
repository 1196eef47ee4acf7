import ClassSketch.ClassFile.ReadError

namespace ClassSketch.ClassFile

structure Cursor where
  offset : Nat
  rest : List UInt8
deriving DecidableEq, Repr

/-- A step gives a value and moves the cursor, or says why the file is refused. -/
abbrev ReadM := StateT Cursor (Except ReadError)

def take (n : Nat) : ReadM (List UInt8) := fun c =>
  let bytes := c.rest.take n
  if bytes.length = n then .ok (bytes, ⟨c.offset + n, c.rest.drop n⟩)
  else .error (.truncated c.offset (n - bytes.length))

def skip (n : Nat) : ReadM Unit := do
  let _ ← take n

def bigEndian (bytes : List UInt8) : Nat := bytes.foldl (fun n b => n * 256 + b.toNat) 0

def readU8 : ReadM UInt8 := return UInt8.ofNat (bigEndian (← take 1))

def readU16 : ReadM UInt16 := return UInt16.ofNat (bigEndian (← take 2))

def readU32 : ReadM UInt32 := return UInt32.ofNat (bigEndian (← take 4))

def offset : ReadM Nat := return (← get).offset

/-- Takes a step `n` times. `before` holds earlier values, the last one first. -/
def times {α : Type} (step : ReadM α) (before : List α) : Nat → ReadM (List α)
  | 0 => return before.reverse
  | n + 1 => do times step ((← step) :: before) n

def table {α : Type} (entry : ReadM α) : ReadM (List α) := do
  times entry [] (← readU16).toNat

def skipAttributes : ReadM Unit := do
  let _ ← table do
    skip 2
    skip (← readU32).toNat

end ClassSketch.ClassFile
