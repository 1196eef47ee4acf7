namespace ClassSketch.ModifiedUtf8

def continuation (offset : Nat) (byte : Option UInt8) : Except Nat Nat :=
  match byte with
  | some b => if b &&& 0xC0 = 0x80 then .ok (b &&& 0x3F).toNat else .error offset
  | none => .error offset

def threeBytes (offset : Nat) (lead : UInt8) (rest : List UInt8) : Except Nat Nat := do
  let x ← continuation (offset + 1) rest[0]?
  let y ← continuation (offset + 2) rest[1]?
  return (lead &&& 0x0F).toNat * 0x1000 + x * 0x40 + y

def isHighSurrogate (unit : Nat) : Bool := 0xD800 ≤ unit && unit ≤ 0xDBFF

def isLowSurrogate (unit : Nat) : Bool := 0xDC00 ≤ unit && unit ≤ 0xDFFF

/-- The character U+FFFD, written where a unit is no character, as a surrogate without its partner. -/
def replacement : Char := '\uFFFD'

def char? (code : Nat) : Option Char := if code.isValidChar then some (Char.ofNat code) else none

def pairCode (high low : Nat) : Nat := 0x10000 + (high - 0xD800) * 0x400 + (low - 0xDC00)

def lowSurrogate? (bytes : List UInt8) : Option Nat :=
  match bytes with
  | lead :: rest =>
    if lead &&& 0xF0 = 0xE0 then
      match threeBytes 0 lead rest with
      | .ok unit => if isLowSurrogate unit then some unit else none
      | .error _ => none
    else none
  | [] => none

/-- Decodes from the front. `before` holds the characters decoded so far, the last one first. An
error is the offset of the first byte that cannot be right. -/
def decodeFrom (before : List Char) (offset : Nat) (bytes : List UInt8) :
    Except Nat (List Char) :=
  match bytes with
  | [] => .ok before.reverse
  | b :: rest =>
    if b = 0 then .error offset
    else if b &&& 0x80 = 0 then decodeFrom (Char.ofNat b.toNat :: before) (offset + 1) rest
    else if b &&& 0xE0 = 0xC0 then
      match continuation (offset + 1) rest[0]? with
      | .error at' => .error at'
      | .ok x =>
        match char? ((b &&& 0x1F).toNat * 0x40 + x) with
        | some c => decodeFrom (c :: before) (offset + 2) (rest.drop 1)
        | none => .error offset
    else if b &&& 0xF0 = 0xE0 then
      match threeBytes offset b rest with
      | .error at' => .error at'
      | .ok unit =>
        let behind := rest.drop 2
        match if isHighSurrogate unit then lowSurrogate? behind else none with
        | some low =>
          let c := (char? (pairCode unit low)).getD replacement
          decodeFrom (c :: before) (offset + 6) (behind.drop 3)
        | none => decodeFrom ((char? unit).getD replacement :: before) (offset + 3) behind
    else .error offset
termination_by bytes.length
decreasing_by all_goals simp only [List.length_cons, List.length_drop]; omega

def isPlain (bytes : List UInt8) : Bool := bytes.all fun b => b != 0 && b < 0x80

/-- Decodes `bytes`, which start at offset `base` of a file. Most texts in class files are plain
and need no decoding. -/
def decode (base : Nat) (bytes : List UInt8) : Except Nat String :=
  if isPlain bytes then .ok (String.ofList (bytes.map fun b => Char.ofNat b.toNat))
  else (decodeFrom [] base bytes).map String.ofList

end ClassSketch.ModifiedUtf8
