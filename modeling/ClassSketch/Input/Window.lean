import ClassSketch.ClassFile.ReadError

namespace ClassSketch.Input

open ClassFile

structure Window where
  buffer : List UInt8
  offset : Nat
  length : Nat
  inside : offset + length ≤ buffer.length
deriving Repr

namespace Window

def whole (buffer : List UInt8) : Window := ⟨buffer, 0, buffer.length, by omega⟩

/-- The window at a range, which must lie in the buffer. An end that takes more than 64 bits is
reported as the largest number that does not. -/
def ofRange (buffer : List UInt8) (offset length : UInt64) : Except ReadError Window :=
  let stop := offset.toNat + length.toNat
  if UInt64.size ≤ stop then
    .error (.rangeOutOfBounds offset.toNat (UInt64.size - 1) buffer.length)
  else if inside : stop ≤ buffer.length then .ok ⟨buffer, offset.toNat, length.toNat, inside⟩
  else .error (.rangeOutOfBounds offset.toNat stop buffer.length)

def bytes (w : Window) : List UInt8 := (w.buffer.drop w.offset).take w.length

/-- Copies bytes from position `pos` of the window into `into`, as many as there are and as fit.
Gives their number and the new content of `into`. -/
def readAt (w : Window) (pos : UInt64) (into : List UInt8) : Nat × List UInt8 :=
  if w.length ≤ pos.toNat then (0, into)
  else
    let n := min into.length (w.length - pos.toNat)
    (n, (w.buffer.drop (w.offset + pos.toNat)).take n ++ into.drop n)

end Window

def chunks (bytes : List UInt8) : List Nat → List (List UInt8)
  | [] => []
  | size :: rest => bytes.take size :: chunks (bytes.drop size) rest

end ClassSketch.Input
