import ClassSketch.Text.Segment

namespace ClassSketch.Text

structure Indented where
  text : String := ""
  level : Nat := 0
  midLine : Bool := false
deriving DecidableEq, Repr

namespace Indented

/-- At the end of a block, this character asks for the last line to be finished. -/
def endMark : Char := '\u001E'

def empty : Indented := {}

def indent (t : Indented) : Indented := { t with level := t.level + 1 }

def dedent (t : Indented) : Indented := { t with level := t.level - 1 }

def margin (t : Indented) : String := String.ofList (List.replicate (4 * t.level) ' ')

def write (t : Indented) (s : String) : Indented :=
  if t.midLine || s.isEmpty then { t with text := t.text ++ s }
  else { t with text := t.text ++ t.margin ++ s }

def finishLine (t : Indented) : Indented := { t with text := t.text.push '\n', midLine := false }

def appendLine (t : Indented) (s : String) : Indented := (t.write s).finishLine

def newline (t : Indented) : Indented := t.appendLine ""

def appendLines (t : Indented) : List (List Char) → Indented
  | [] => t
  | [last] =>
    if last.isEmpty then t else { t.write (String.ofList last) with midLine := true }
  | line :: rest => (t.appendLine (String.ofList line)).appendLines rest

/-- Writes text of any number of lines. A mark at its end is not written but obeyed. -/
def appendBlock (t : Indented) (s : String) : Indented :=
  let cs := s.toList
  if cs.getLast? = some endMark then
    let t := t.appendLines (segments '\n' cs.dropLast)
    if t.midLine then t.finishLine else t
  else t.appendLines (segments '\n' cs)

end Indented

end ClassSketch.Text
