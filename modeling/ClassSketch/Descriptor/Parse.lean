import ClassSketch.Descriptor.Basic
import ClassSketch.Text.Escape

namespace ClassSketch.Descriptor

inductive Fault where
  | empty
  | unknownTag (tag : Char) (offset : Nat)
  | unterminatedClass (offset : Nat)
  | emptyClass (offset : Nat)
  | missingOpenParen
  | missingCloseParen
  | misplacedVoid
  | trailing (offset : Nat)
deriving DecidableEq, Repr

open Text in
def Fault.message (descriptor : String) : Fault → String
  | empty => "empty descriptor"
  | unknownTag tag offset =>
    s!"unknown type tag {quoteChar tag} at position {offset} in {quote descriptor}"
  | unterminatedClass offset =>
    s!"unterminated class name at position {offset} in {quote descriptor}"
  | emptyClass offset => s!"empty class name at position {offset} in {quote descriptor}"
  | missingOpenParen => s!"method descriptor {quote descriptor} must start with '('"
  | missingCloseParen => s!"method descriptor {quote descriptor} has no closing ')'"
  | misplacedVoid => s!"void is only valid as a return type in {quote descriptor}"
  | trailing offset => s!"trailing characters after position {offset} in {quote descriptor}"

def byteLength (cs : List Char) : Nat := cs.foldr (fun c n => c.utf8Size + n) 0

structure Rest where
  offset : Nat
  chars : List Char
deriving DecidableEq, Repr

/-- Reads a primitive or a class. `void` counts as a type here; where it may stand is for the
caller to say, except that no array can hold it. -/
def readElement (dims start : Nat) (r : Rest) : Except Fault (Element × Rest) :=
  match r.chars with
  | [] => .error (.unterminatedClass start)
  | 'L' :: tail =>
    let name := tail.takeWhile (· ≠ ';')
    match tail.dropWhile (· ≠ ';') with
    | [] => .error (.unterminatedClass r.offset)
    | _ :: rest =>
      if name.isEmpty then .error (.emptyClass r.offset)
      else .ok (.object (String.ofList name), ⟨r.offset + byteLength name + 2, rest⟩)
  | c :: rest =>
    match Primitive.ofTag? c with
    | none => .error (.unknownTag c r.offset)
    | some p =>
      if p = .void ∧ 0 < dims then .error .misplacedVoid
      else .ok (.primitive p, ⟨r.offset + 1, rest⟩)

def readType (r : Rest) : Except Fault (TypeDescriptor × Rest) :=
  let dims := (r.chars.takeWhile (· = '[')).length
  match readElement dims r.offset ⟨r.offset + dims, r.chars.dropWhile (· = '[')⟩ with
  | .error fault => .error fault
  | .ok (element, rest) => .ok (⟨dims, element⟩, rest)

theorem readElement_shorter {dims start : Nat} {r s : Rest} {e : Element}
    (h : readElement dims start r = .ok (e, s)) : s.chars.length < r.chars.length := by
  simp only [readElement] at h
  split at h
  · cases h
  · rename_i tail hr
    have hle := (List.dropWhile_sublist (l := tail) (· ≠ ';')).length_le
    split at h
    · cases h
    · rename_i rest hd
      rw [hd, List.length_cons] at hle
      split at h
      · cases h
      · cases h
        rw [hr, List.length_cons]
        show rest.length < _
        omega
  · rename_i rest _ hr
    split at h
    · cases h
    · split at h
      · cases h
      · cases h
        simp [hr]

theorem readType_shorter {r s : Rest} {t : TypeDescriptor}
    (h : readType r = .ok (t, s)) : s.chars.length < r.chars.length := by
  simp only [readType] at h
  split at h
  · cases h
  · rename_i rest he
    cases h
    have hlt := readElement_shorter he
    have hle := (List.dropWhile_sublist (l := r.chars) (· = '[')).length_le
    simp only at hlt
    omega

/-- Reads types up to a closing parenthesis. `before` holds the types read so far, the last one
first. -/
def readParams (before : List TypeDescriptor) (r : Rest) :
    Except Fault (List TypeDescriptor × Rest) :=
  match r.chars with
  | [] => .error .missingCloseParen
  | ')' :: rest => .ok (before.reverse, ⟨r.offset + 1, rest⟩)
  | _ =>
    match _h : readType r with
    | .error fault => .error fault
    | .ok (t, rest) =>
      if t = .void then .error .misplacedVoid else readParams (t :: before) rest
termination_by r.chars.length
decreasing_by exact readType_shorter ‹_›

def expectEnd (r : Rest) : Except Fault Unit :=
  if r.chars.isEmpty then .ok () else .error (.trailing r.offset)

def TypeDescriptor.parse (s : String) : Except Fault TypeDescriptor := do
  if s.isEmpty then throw .empty
  let (t, rest) ← readType ⟨0, s.toList⟩
  expectEnd rest
  if t = .void then throw .misplacedVoid
  return t

def MethodDescriptor.parse (s : String) : Except Fault MethodDescriptor :=
  match s.toList with
  | [] => .error .empty
  | '(' :: cs => do
    let (params, rest) ← readParams [] ⟨1, cs⟩
    let (result, rest) ← readType rest
    expectEnd rest
    return ⟨params, result⟩
  | _ => .error .missingOpenParen

end ClassSketch.Descriptor
