import ClassSketch.ClassDecl
import ClassSketch.Text.Escape

namespace ClassSketch.Yaml

def digit? (base : Nat) (c : Char) : Option Nat :=
  let value :=
    if c.isDigit then c.toNat - '0'.toNat
    else if 'a' ≤ c ∧ c ≤ 'z' then c.toNat - 'a'.toNat + 10
    else if 'A' ≤ c ∧ c ≤ 'Z' then c.toNat - 'A'.toNat + 10
    else base
  if value < base then some value else none

def numeral? (base : Nat) (cs : List Char) : Option Nat :=
  if cs.isEmpty then none
  else cs.foldl (fun n c => n.bind fun n => (digit? base c).map (n * base + ·)) (some 0)

def splitSign (cs : List Char) : Option Char × List Char :=
  match cs with
  | '+' :: rest => (some '+', rest)
  | '-' :: rest => (some '-', rest)
  | _ => (none, cs)

def isMarkedInteger (cs : List Char) : Bool :=
  let (sign, rest) := splitSign cs
  let limit := if sign = some '-' then Nat.pow 2 127 + 1 else Nat.pow 2 128
  let fits (base : Nat) (digits : List Char) : Bool :=
    match numeral? base digits with
    | some n => n < limit
    | none => false
  match rest with
  | '0' :: 'x' :: digits => fits 16 digits
  | '0' :: 'o' :: digits => fits 8 digits
  | '0' :: 'b' :: digits => fits 2 digits
  | _ => false

/-- Whether `m * 10 ^ e` is below the numbers that round to infinity in 64-bit floating point, where
`m` is the number with the given digits. -/
def isBelowInfinity (digits : List Char) (e : Int) : Bool :=
  let significant := digits.dropWhile (· = '0')
  let magnitude := significant.length + e
  if significant.isEmpty || magnitude ≤ 308 then true
  else if 310 < magnitude then false
  else match numeral? 10 significant with
    | none => false
    | some m => m * Nat.pow 10 e.toNat <
        (Nat.pow 2 54 - 1) * Nat.pow 2 970 * Nat.pow 10 (-e).toNat

def exponent? (cs : List Char) : Option Int :=
  match cs with
  | [] => some 0
  | c :: rest =>
    if c = 'e' ∨ c = 'E' then
      let (sign, digits) := splitSign rest
      (numeral? 10 digits).map fun n => if sign = some '-' then -(n : Int) else n
    else none

def isFiniteDecimal (cs : List Char) : Bool :=
  let rest := (splitSign cs).2
  let whole := rest.takeWhile Char.isDigit
  let rest := rest.dropWhile Char.isDigit
  let (fraction, rest) :=
    match rest with
    | '.' :: tail => (tail.takeWhile Char.isDigit, tail.dropWhile Char.isDigit)
    | _ => ([], rest)
  if whole.isEmpty && fraction.isEmpty then false
  else match exponent? rest with
    | some e => isBelowInfinity (whole ++ fraction) (e - fraction.length)
    | none => false

def isNonFinite (s : String) : Bool :=
  String.ofList (splitSign s.toList).2 ∈ [".inf", ".Inf", ".INF"] || s ∈ [".nan", ".NaN", ".NAN"]

def hasLeadingZero (cs : List Char) : Bool :=
  match (splitSign cs).2 with
  | '0' :: rest => !rest.isEmpty && rest.all Char.isDigit
  | _ => false

def isWord (s : String) : Bool :=
  s ∈ ["", "~", "null", "Null", "NULL", "true", "True", "TRUE", "false", "False", "FALSE"]

/-- Holds if the text needs quotes to be read as text. -/
def isAmbiguous (s : String) : Bool :=
  isWord s || isMarkedInteger s.toList || isFiniteDecimal s.toList || isNonFinite s ||
    hasLeadingZero s.toList

def isBreak (c : Char) : Bool := c ∈ ['\n', '\r', '\u0085', '\u2028', '\u2029']

def isBlank (c : Char) : Bool := c = ' ' || c = '\t' || c = '\x00' || isBreak c

def isPrintable (c : Char) : Bool :=
  let n := c.toNat
  c = '\n' || (0x20 ≤ n && n ≤ 0x7E) || (0xA0 ≤ n && n ≤ 0xD7FF) ||
    (0xE000 ≤ n && n ≤ 0xFFFD && n != 0xFEFF) || 0x10000 ≤ n

def isIndicator (c : Char) : Bool :=
  c ∈ ['#', ',', '[', ']', '\x7b', '\x7d', '&', '*', '!', '|', '>', '\x27', '\x22', '%', '@',
    '\x60']

def startsBlank : List Char → Bool
  | [] => true
  | c :: _ => isBlank c

def hasInnerIndicator : List Char → Bool
  | [] => false
  | c :: rest =>
    c = ':' && startsBlank rest || isBlank c && rest.head? = some '#' || hasInnerIndicator rest

def hasIndicator (cs : List Char) : Bool :=
  ['-', '-', '-'].isPrefixOf cs || ['.', '.', '.'].isPrefixOf cs || hasInnerIndicator cs ||
    match cs with
    | [] => false
    | c :: rest => isIndicator c || (c = '-' || c = '?') && startsBlank rest

def hasPair (p q : Char → Bool) (cs : List Char) : Bool :=
  (cs.zip cs.tail).any fun pair => p pair.1 && q pair.2

def isSpace (c : Char) : Bool := c = ' '

/-- Whether a space is at an end of its line or a character cannot be written as it is, so that only
escapes keep the text. -/
def needsEscapes (cs : List Char) : Bool := hasPair isSpace isBreak cs || !cs.all isPrintable

inductive Style where
  | plain | singleQuoted | literal | doubleQuoted
deriving DecidableEq, Repr

def isPlain (cs : List Char) : Bool :=
  let ends := cs.head?.toList ++ cs.getLast?.toList
  !ends.any isSpace && !cs.any isBreak && !needsEscapes cs && !hasIndicator cs

def style (s : String) : Style :=
  let cs := s.toList
  if cs.contains '\n' then
    if needsEscapes cs || cs.getLast? = some ' ' then .doubleQuoted else .literal
  else if isPlain cs && !isAmbiguous s then .plain
  else if needsEscapes cs || hasPair isBreak isSpace cs then .doubleQuoted
  else .singleQuoted

/-- Writes the characters, with `margin` in front of each that starts a line. `fresh` says whether
the first of them does. -/
def writeLines (margin : List Char) (write : Char → List Char) (fresh : Bool) (cs : List Char) :
    List Char :=
  (cs.zip (fresh :: cs.map isBreak)).flatMap fun (c, starts) =>
    if starts && !isBreak c then margin ++ write c else write c

def escape (c : Char) : List Char :=
  let letter? : Option Char := [('\x00', '0'), ('\x07', 'a'), ('\x08', 'b'), ('\t', 't'),
    ('\n', 'n'), ('\x0B', 'v'), ('\x0C', 'f'), ('\r', 'r'), ('\x1B', 'e'), ('\x22', '\x22'),
    ('\\', '\\'), ('\u0085', 'N'), ('\u2028', 'L'), ('\u2029', 'P')].lookup c
  match letter? with
  | some letter => ['\\', letter]
  | none =>
    if isPrintable c then [c]
    else
      let mark := if c.toNat ≤ 0xFF then 'x' else 'u'
      let width := if c.toNat ≤ 0xFF then 2 else 4
      '\\' :: mark :: (Text.hexPadded width c.toNat).toList.map Char.toUpper

/-- How a block says that its first line starts with white space, and what becomes of the line
breaks at its end. -/
def blockHeader (cs : List Char) : List Char :=
  let first := if cs.head?.any fun c => isSpace c || isBreak c then ['2'] else []
  let last :=
    match cs.reverse with
    | c :: rest =>
      if !isBreak c then ['-']
      else match rest with
        | [] => ['+']
        | d :: _ => if isBreak d then ['+'] else []
    | [] => ['-']
  '|' :: (first ++ last)

def scalar (indent : Nat) (s : String) : List Char :=
  let cs := s.toList
  let margin := List.replicate indent ' '
  match style s with
  | .plain => cs
  | .singleQuoted =>
    let quoted := writeLines margin (fun c => if c = '\x27' then [c, c] else [c]) false cs
    let last := if cs.getLast?.any isBreak then margin else []
    '\x27' :: (quoted ++ last ++ ['\x27'])
  | .literal => blockHeader cs ++ '\n' :: writeLines margin (fun c => [c]) true cs
  | .doubleQuoted => '\x22' :: (cs.flatMap escape ++ ['\x22'])

/-- Ends a line. A block that keeps its last line break has already ended it. -/
def endLine (cs : List Char) : List Char :=
  if cs.getLast?.any isBreak then cs else cs ++ ['\n']

def entry (key : String) (value : List Char) : List Char :=
  key.toList ++ ':' :: ' ' :: endLine value

def list (key : String) (items : List (List Char)) : List Char :=
  if items.isEmpty then entry key ['[', ']']
  else key.toList ++ ':' :: '\n' :: items.flatMap fun item => '-' :: ' ' :: item

def number (n : UInt16) : List Char := (toString n).toList

def member (m : MemberDecl) : List Char :=
  entry "owner" (scalar 4 m.owner) ++ entry "  name" (scalar 4 m.name) ++
    entry "  access" (number m.access) ++ entry "  desc" (scalar 4 m.descriptor)

/-- A class as the commands write it when they are run. They work with any other form as well. -/
def document (c : ClassDecl) : String :=
  let superName := match c.superName with
    | some name => scalar 2 name
    | none => "null".toList
  String.ofList <|
    entry "name" (scalar 2 c.name) ++ entry "access" (number c.access) ++
    entry "super_name" superName ++
    list "interfaces" (c.interfaces.map fun name => endLine (scalar 2 name)) ++
    list "fields" (c.fields.map member) ++ list "methods" (c.methods.map member)

end ClassSketch.Yaml
