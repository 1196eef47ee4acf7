import ClassSketch.Proofs.Margins
import ClassSketch.Text.Indented
import Mathlib.Data.List.Induction

namespace ClassSketch.Text

/-- The raw text that was appended, and the level for what comes next. -/
structure Draft where
  raw : Leveled := []
  level : Nat := 0
deriving DecidableEq, Repr

namespace Draft

def indent (d : Draft) : Draft := { d with level := d.level + 1 }

def dedent (d : Draft) : Draft := { d with level := d.level - 1 }

def append (d : Draft) (cs : List Char) : Draft := { d with raw := d.raw ++ atLevel d.level cs }

def endLine (d : Draft) : Draft := if isOpen false d.raw then d.append ['\n'] else d

def appendBlock (d : Draft) (s : String) : Draft :=
  if s.toList.getLast? = some Indented.endMark then (d.append s.toList.dropLast).endLine
  else d.append s.toList

@[simp] theorem append_nil (d : Draft) : d.append [] = d := by simp [append]

@[simp] theorem append_append (d : Draft) (cs ds : List Char) :
    (d.append cs).append ds = d.append (cs ++ ds) := by simp [append]

theorem appendBlock_of_break {s : String} (h : s.toList.getLast? = some '\n') (d : Draft) :
    d.appendBlock s = d.append s.toList := by
  rw [appendBlock, h, if_neg]
  decide

theorem isOpen_append (d : Draft) (cs : List Char) :
    isOpen false (d.append cs).raw = (cs.getLast?.map (· != '\n')).getD (isOpen false d.raw) := by
  rw [append, Text.isOpen_append, isOpen_atLevel]

theorem appendBlock_push_endMark {s : String} {c : Char} (hs : s.toList.getLast? = some c)
    (hc : c ≠ '\n') (d : Draft) :
    d.appendBlock (s.push Indented.endMark) = d.append (s.toList ++ ['\n']) := by
  have hopen : isOpen false (d.append s.toList).raw = true := by
    rw [isOpen_append, hs]
    simpa using hc
  rw [appendBlock, String.toList_push, List.getLast?_concat, if_pos rfl, List.dropLast_concat,
    endLine, if_pos hopen, append_append]

theorem marginsFrom_append (d : Draft) (cs : List Char) :
    marginsFrom false (d.append cs).raw =
      marginsFrom false d.raw ++ marginsFrom (isOpen false d.raw) (atLevel d.level cs) :=
  Text.marginsFrom_append ..

end Draft

namespace Indented

@[simp] theorem level_write (t : Indented) (s : String) : (t.write s).level = t.level := by
  rw [write]
  split <;> rfl

/-- `t` holds the text of a draft with its margins, and knows whether a line is under way. -/
structure Shows (t : Indented) (d : Draft) : Prop where
  text : t.text.toList = marginsFrom false d.raw
  midLine : t.midLine = isOpen false d.raw
  level : t.level = d.level

namespace Shows

variable {t : Indented} {d : Draft}

protected theorem empty : Shows empty {} := ⟨rfl, rfl, rfl⟩

protected theorem indent (h : Shows t d) : Shows t.indent d.indent :=
  ⟨h.text, h.midLine, congrArg (· + 1) h.level⟩

protected theorem dedent (h : Shows t d) : Shows t.dedent d.dedent :=
  ⟨h.text, h.midLine, congrArg (· - 1) h.level⟩

theorem text_unindented {cs : List Char} (h : Shows t (({} : Draft).append cs)) :
    t.text.toList = cs := h.text.trans (marginsFrom_atLevel_zero false cs)

theorem text_write (h : Shows t d) {s : String} (hs : '\n' ∈ s.toList → d.level = 0) :
    (t.write s).text.toList = marginsFrom false (d.append s.toList).raw := by
  have he : s.toList.isEmpty = s.isEmpty := by
    rw [Bool.eq_iff_iff]
    simp
  have hw : (t.write s).text.toList = t.text.toList ++
      if t.midLine || s.toList.isEmpty then s.toList else spaces t.level ++ s.toList := by
    rw [write, he]
    split <;> simp [margin, spaces]
  rw [hw, h.text, h.midLine, h.level, d.marginsFrom_append]
  by_cases hb : '\n' ∈ s.toList
  · simp [hs hb, marginsFrom_atLevel_zero, spaces]
  · rw [marginsFrom_of_not_mem hb]

theorem finishLine (ht : t.text.toList = marginsFrom false d.raw) (hl : t.level = d.level) :
    Shows t.finishLine (d.append ['\n']) where
  text := by
    rw [d.marginsFrom_append, ← ht, marginsFrom_atLevel_break]
    exact String.toList_push '\n'
  midLine := by simp [Indented.finishLine, d.isOpen_append]
  level := hl

protected theorem appendLine (h : Shows t d) {s : String} (hs : '\n' ∈ s.toList → d.level = 0) :
    Shows (t.appendLine s) (d.append (s.toList ++ ['\n'])) := by
  rw [← d.append_append]
  exact finishLine (h.text_write hs) ((level_write t s).trans h.level)

protected theorem newline (h : Shows t d) : Shows t.newline (d.append ['\n']) :=
  h.appendLine (s := "") (by simp)

protected theorem endLine (h : Shows t d) :
    Shows (if t.midLine then t.finishLine else t) d.endLine := by
  rw [Draft.endLine, h.midLine]
  split
  · exact finishLine h.text h.level
  · exact h

theorem appendLines (h : Shows t d) {ls : List (List Char)} (hls : ∀ l ∈ ls, '\n' ∉ l) :
    Shows (t.appendLines ls) (d.append (['\n'].intercalate ls)) := by
  fun_induction Indented.appendLines t ls generalizing d with
  | case1 => simpa using h
  | case2 t last hl => simpa [List.isEmpty_iff.1 hl] using h
  | case3 t last hl =>
    have hlast : '\n' ∉ last := hls last (by simp)
    have hw := h.text_write (s := String.ofList last) (by simp [hlast])
    rw [String.toList_ofList] at hw
    rw [List.intercalate_singleton]
    refine ⟨hw, ?_, (level_write t _).trans h.level⟩
    have hne : last ≠ [] := by simpa using hl
    have hc : last.getLast hne ≠ '\n' := fun he => hlast (he ▸ last.getLast_mem hne)
    simp [d.isOpen_append, List.getLast?_eq_some_getLast hne, hc]
  | case4 t line rest hrest ih =>
    have hline : '\n' ∉ line := hls line (by simp)
    have ht := h.appendLine (s := String.ofList line) (by simp [hline])
    have hr := ih ht fun l hl => hls l (by simp [hl])
    rw [String.toList_ofList, d.append_append] at hr
    rwa [List.intercalate_cons_of_ne_nil hrest]

theorem appendSegments (h : Shows t d) (cs : List Char) :
    Shows (t.appendLines (segments '\n' cs)) (d.append cs) := by
  have hs := h.appendLines fun l => @not_mem_of_mem_segments '\n' cs l
  rwa [intercalate_segments] at hs

protected theorem appendBlock (h : Shows t d) (s : String) :
    Shows (t.appendBlock s) (d.appendBlock s) := by
  rw [Indented.appendBlock, Draft.appendBlock]
  by_cases hs : s.toList.getLast? = some endMark
  · rw [if_pos hs, if_pos hs]
    exact (h.appendSegments s.toList.dropLast).endLine
  · rw [if_neg hs, if_neg hs]
    exact h.appendSegments s.toList

end Shows

inductive Op where
  | indent
  | dedent
  | newline
  | line (s : String)
  | block (s : String)
deriving DecidableEq, Repr

def apply (t : Indented) : Op → Indented
  | .indent => t.indent
  | .dedent => t.dedent
  | .newline => t.newline
  | .line s => t.appendLine s
  | .block s => t.appendBlock s

def run (ops : List Op) : Indented := ops.foldl apply empty

end Indented

namespace Draft

open Indented (Op)

def apply (d : Draft) : Op → Draft
  | .indent => d.indent
  | .dedent => d.dedent
  | .newline => d.append ['\n']
  | .line s => d.append (s.toList ++ ['\n'])
  | .block s => d.appendBlock s

def ofOps (ops : List Op) : Draft := ops.foldl apply {}

end Draft

namespace Indented

/-- Only text without indentation is appended as a line while there is a line break in it. -/
def BreaksUnindented (ops : List Op) : Prop :=
  ∀ before s after, ops = before ++ .line s :: after → '\n' ∈ s.toList →
    (Draft.ofOps before).level = 0

theorem Shows.apply {t : Indented} {d : Draft} (h : Shows t d) {op : Op}
    (hop : ∀ s, op = .line s → '\n' ∈ s.toList → d.level = 0) :
    Shows (t.apply op) (d.apply op) := by
  cases op with
  | indent => exact h.indent
  | dedent => exact h.dedent
  | newline => exact h.newline
  | line s => exact h.appendLine (hop s rfl)
  | block s => exact h.appendBlock s

theorem shows_run {ops : List Op} (h : BreaksUnindented ops) :
    Shows (run ops) (Draft.ofOps ops) := by
  induction ops using List.reverseRecOn with
  | nil => exact Shows.empty
  | append_singleton ops op ih =>
    have ht := ih fun before s after he => h before s (after ++ [op]) (by simp [he])
    rw [run, Draft.ofOps, List.foldl_append, List.foldl_append]
    exact ht.apply fun s he => h ops s [] (by simp [he])

/-- After any operations the text is the raw text that they append, with a margin in front of each
line by the level at which it was begun. A line is under way just when there is text that does not
end in a line break. -/
theorem text_run_eq_withMargins {ops : List Op} (h : BreaksUnindented ops) :
    (run ops).text.toList = withMargins (Draft.ofOps ops).raw ∧
      ((run ops).midLine = true ↔
        (run ops).text ≠ "" ∧ (run ops).text.toList.getLast? ≠ some '\n') := by
  have hs := shows_run h
  refine ⟨by rw [withMargins_eq_marginsFrom, hs.text], ?_⟩
  rw [hs.midLine, ne_eq, ← String.toList_eq_nil_iff, hs.text, ← List.getLast?_eq_none_iff,
    getLast?_marginsFrom, isOpen]
  cases (Draft.ofOps ops).raw.getLast? <;> simp

/-- Fragments of a line at several levels, and lines that a break, an empty line or the mark alone
ends. -/
theorem text_run_fragments :
    let ops : List Op := [.indent, .block "int", .dedent, .line " x\ny", .indent,
      .block "a\n\nb", .indent, .block "\nc", .block "\x1e", .newline, .block "d"]
    BreaksUnindented ops ∧
      (run ops).text.toList = withMargins (Draft.ofOps ops).raw ∧
      withMargins (Draft.ofOps ops).raw =
        "    int x\ny\n    a\n\n    b\n        c\n\n        d".toList ∧
      (run ops).midLine = true := by
  intro ops
  have h : BreaksUnindented ops := by
    intro before s after he _
    have hbefore : before = [.indent, .block "int", .dedent] := by
      simp [ops, List.cons_eq_append_iff] at he
      exact he.1
    rw [hbefore]
    rfl
  obtain ⟨htext, hmid⟩ := text_run_eq_withMargins h
  exact ⟨h, htext, by decide, hmid.2 (by decide)⟩

end Indented

end ClassSketch.Text
