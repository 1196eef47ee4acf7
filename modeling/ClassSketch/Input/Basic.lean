import ClassSketch.ClassFile.Read
import ClassSketch.Files.Access
import ClassSketch.Input.Window

namespace ClassSketch

open ClassFile Files

inductive Input where
  | memory (w : Input.Window)
  | file (path : String)
deriving Repr

namespace Input

inductive Answer where
  | interrupted
  | upTo (extra : Nat)
deriving DecidableEq, Repr

def Answer.count? (space available : Nat) : Answer → Option Nat
  | interrupted => none
  | upTo extra => some (min (extra + 1) (min space available))

/-- A read under way: the bytes behind the position in the file, the part of the buffer that they
have come to, and the rest of the buffer, which is as it was before. -/
structure Transfer where
  left : List UInt8
  filled : List UInt8
  free : List UInt8

namespace Transfer

def start (content : List UInt8) (pos : UInt64) (into : List UInt8) : Transfer :=
  ⟨content.drop pos.toNat, [], into⟩

def copy (t : Transfer) (n : Nat) : Transfer :=
  ⟨t.left.drop n, t.filled ++ t.left.take n, t.free.drop n⟩

/-- Asks for as many bytes as are free, until none are free or none come. There is no result as long
as the system has to be asked once more. -/
def run (t : Transfer) (answers : List Answer) : Option Transfer :=
  if t.free = [] then some t
  else
    match answers with
    | [] => none
    | answer :: answers =>
      match answer.count? t.free.length t.left.length with
      | none => t.run answers
      | some 0 => some t
      | some (n + 1) => (t.copy (n + 1)).run answers

def result (t : Transfer) : Nat × List UInt8 := (t.filled.length, t.filled ++ t.free)

end Transfer

variable {m : Type → Type} [Monad m] [FileAccess m]

def path? : Input → Option String
  | memory _ => none
  | file path => some path

def readAll : Input → m (Except ReadError (List UInt8))
  | memory w => return .ok w.bytes
  | file path => return (← FileAccess.readFile path).mapError .os

def size : Input → m (Except ReadError Nat)
  | memory w => return .ok w.length
  | file path => return (← FileAccess.size path).mapError .os

def isEmpty (input : Input) : m (Except ReadError Bool) := return (← input.size).map (· = 0)

/-- All bytes, without copying them. There is nothing to map in an empty file. -/
def view : Input → m (Except ReadError (List UInt8))
  | memory w => return .ok w.bytes
  | file path => do
    match ← FileAccess.openFile path with
    | .error e => return .error (.os e)
    | .ok () =>
      match ← FileAccess.size path with
      | .error e => return .error (.os e)
      | .ok 0 => return .ok []
      | .ok _ => return (← FileAccess.mapFile path).mapError .os

/-- Reads bytes from position `pos` on into `into`. `answers` tells how the system answers for a
file, which has no positions of 2 ^ 63 or more; there is no result if they are too few. -/
def readAt (input : Input) (answers : List Answer) (pos : UInt64) (into : List UInt8) :
    m (Option (Except ReadError (Nat × List UInt8))) := do
  match input with
  | memory w => return some (.ok (w.readAt pos into))
  | file path =>
    match ← FileAccess.openFile path with
    | .error e => return some (.error (.os e))
    | .ok () =>
      if 0x8000000000000000 ≤ pos.toNat then return some (.error (.os .invalidArgument))
      else if into.isEmpty then return some (.ok (0, []))
      else match ← FileAccess.readFile path with
        | .error e => return some (.error (.os e))
        | .ok content =>
          return ((Transfer.start content pos into).run answers).map fun t => .ok t.result

def stream (input : Input) (sizes : List Nat) : m (Except ReadError (List (List UInt8))) :=
  return (← input.readAll).map fun bytes => chunks bytes sizes

def readClass (input : Input) : m (Logged Record (Except ReadError ClassDecl)) := do
  match ← input.view with
  | .ok bytes => return (ClassFile.read bytes).run
  | .error e => return pure (.error e)

end Input

end ClassSketch
