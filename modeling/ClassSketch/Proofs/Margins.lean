import ClassSketch.Text.Segment

namespace ClassSketch.Text

theorem consHead_eq_modifyHead (c : Char) {ls : List (List Char)} (h : ls ≠ []) :
    consHead c ls = ls.modifyHead (c :: ·) := by
  cases ls with
  | nil => contradiction
  | cons l ls => rfl

theorem segments_eq_splitOn (sep : Char) (cs : List Char) : segments sep cs = cs.splitOn sep := by
  induction cs with
  | nil => simp [List.splitOn, List.splitOnP_nil]
  | cons c cs ih =>
    rw [segments_cons, consHead_eq_modifyHead c (segments_ne_nil sep cs), ih]
    simp [List.splitOn, List.splitOnP_cons_eq_if_modifyHead]

theorem intercalate_segments (sep : Char) (cs : List Char) :
    [sep].intercalate (segments sep cs) = cs := by
  rw [segments_eq_splitOn, List.intercalate_splitOn]

theorem not_mem_of_mem_segments {sep : Char} {cs s : List Char} (h : s ∈ segments sep cs) :
    sep ∉ s := by
  induction cs generalizing s with
  | nil => simp_all
  | cons c cs ih =>
    rw [segments_cons] at h
    split at h
    · rcases List.mem_cons.1 h with rfl | h
      · simp
      · exact ih h
    · rename_i hc
      obtain ⟨l, ls, hs⟩ := List.exists_cons_of_ne_nil (segments_ne_nil sep cs)
      rw [hs] at h ih
      rcases List.mem_cons.1 h with rfl | h
      · have hl := ih (List.mem_cons_self ..)
        simp [Ne.symm hc, hl]
      · exact ih (List.mem_cons_of_mem _ h)

theorem intercalate_append_cons {α : Type} (sep l l' : List α) (ls : List (List α)) :
    sep.intercalate ((l ++ l') :: ls) = l ++ sep.intercalate (l' :: ls) := by
  cases ls with
  | nil => simp
  | cons k ls => simp [List.intercalate_cons_cons]

abbrev Leveled := List (Char × Nat)

def atLevel (level : Nat) (cs : List Char) : Leveled := cs.map fun c => (c, level)

def spaces (level : Nat) : List Char := List.replicate (4 * level) ' '

def lineWithMargin : Leveled → List Char
  | [] => []
  | (c, level) :: rest => spaces level ++ c :: rest.map Prod.fst

/-- Each line that is not empty gets four spaces for each level of its first character. -/
def withMargins (raw : Leveled) : List Char :=
  ['\n'].intercalate ((raw.splitOnP (·.1 == '\n')).map lineWithMargin)

/-- The same from front to back. `mid` says whether the first line is under way already. -/
def marginsFrom (mid : Bool) : Leveled → List Char
  | [] => []
  | (c, level) :: rest =>
    if c = '\n' then c :: marginsFrom false rest
    else if mid then c :: marginsFrom true rest
    else spaces level ++ c :: marginsFrom true rest

def isOpen (mid : Bool) (raw : Leveled) : Bool := (raw.getLast?.map (·.1 != '\n')).getD mid

@[simp] theorem isOpen_cons (mid : Bool) (p : Char × Nat) (raw : Leveled) :
    isOpen mid (p :: raw) = isOpen (p.1 != '\n') raw := by
  rw [isOpen, isOpen, List.getLast?_cons]
  cases raw.getLast? <;> rfl

@[simp] theorem isOpen_append (mid : Bool) (raw raw' : Leveled) :
    isOpen mid (raw ++ raw') = isOpen (isOpen mid raw) raw' := by
  rw [isOpen, isOpen, List.getLast?_append]
  cases raw'.getLast? <;> simp [isOpen]

theorem marginsFrom_eq_intercalate (mid : Bool) (raw : Leveled) (l : Leveled)
    (ls : List Leveled) (h : raw.splitOnP (·.1 == '\n') = l :: ls) :
    marginsFrom mid raw = ['\n'].intercalate
      ((if mid then l.map Prod.fst else lineWithMargin l) :: ls.map lineWithMargin) := by
  induction raw generalizing mid l ls with
  | nil =>
    rw [List.splitOnP_nil] at h
    cases h
    cases mid <;> rfl
  | cons p raw ih =>
    obtain ⟨c, level⟩ := p
    obtain ⟨k, ks, hk⟩ := List.exists_cons_of_ne_nil (List.splitOnP_ne_nil (·.1 == '\n') raw)
    rw [List.splitOnP_cons_eq_if_modifyHead, hk] at h
    by_cases hc : c = '\n'
    · simp only [hc, beq_self_eq_true, if_true, List.cons.injEq] at h
      obtain ⟨rfl, rfl⟩ := h
      rw [marginsFrom, if_pos hc, ih false k ks hk, hc]
      cases mid <;> simp [lineWithMargin, List.intercalate_cons_cons]
    · simp only [beq_iff_eq, hc, if_false, List.modifyHead_cons, List.cons.injEq] at h
      obtain ⟨rfl, rfl⟩ := h
      have htail := ih true k ks hk
      rw [marginsFrom, if_neg hc, htail]
      cases mid with
      | true => exact (intercalate_append_cons ['\n'] [c] _ _).symm
      | false => simp [lineWithMargin, intercalate_append_cons]

theorem withMargins_eq_marginsFrom (raw : Leveled) : withMargins raw = marginsFrom false raw := by
  obtain ⟨l, ls, h⟩ := List.exists_cons_of_ne_nil (List.splitOnP_ne_nil (·.1 == '\n') raw)
  rw [marginsFrom_eq_intercalate false raw l ls h, withMargins, h]
  rfl

theorem marginsFrom_append (mid : Bool) (raw raw' : Leveled) :
    marginsFrom mid (raw ++ raw') = marginsFrom mid raw ++ marginsFrom (isOpen mid raw) raw' := by
  induction raw generalizing mid with
  | nil => rfl
  | cons p raw ih =>
    obtain ⟨c, level⟩ := p
    by_cases hc : c = '\n'
    · simp [marginsFrom, hc, ih]
    · have hn : (c != '\n') = true := by simpa using hc
      cases mid <;> simp [marginsFrom, hc, hn, ih]

theorem getLast?_marginsFrom (mid : Bool) (raw : Leveled) :
    (marginsFrom mid raw).getLast? = raw.getLast?.map Prod.fst := by
  rcases List.eq_nil_or_concat raw with rfl | ⟨front, ⟨c, level⟩, rfl⟩
  · rfl
  · rw [List.concat_eq_append, marginsFrom_append]
    by_cases hc : c = '\n'
    · simp [marginsFrom, hc]
    · cases isOpen mid front <;> simp [marginsFrom, hc]

@[simp] theorem atLevel_nil (level : Nat) : atLevel level [] = [] := rfl

@[simp] theorem atLevel_append (level : Nat) (cs ds : List Char) :
    atLevel level (cs ++ ds) = atLevel level cs ++ atLevel level ds := List.map_append

theorem isOpen_atLevel (mid : Bool) (level : Nat) (cs : List Char) :
    isOpen mid (atLevel level cs) = (cs.getLast?.map (· != '\n')).getD mid := by
  rw [isOpen, atLevel, List.getLast?_map]
  cases cs.getLast? <;> rfl

@[simp] theorem marginsFrom_atLevel_break (mid : Bool) (level : Nat) :
    marginsFrom mid (atLevel level ['\n']) = ['\n'] := rfl

theorem marginsFrom_atLevel_zero (mid : Bool) (cs : List Char) :
    marginsFrom mid (atLevel 0 cs) = cs := by
  induction cs generalizing mid with
  | nil => rfl
  | cons c cs ih =>
    rw [atLevel, List.map_cons, marginsFrom, ← atLevel, ih, ih]
    cases mid <;> simp [spaces]

theorem marginsFrom_true_of_not_mem {cs : List Char} (h : '\n' ∉ cs) (level : Nat) :
    marginsFrom true (atLevel level cs) = cs := by
  induction cs with
  | nil => rfl
  | cons c cs ih =>
    rw [List.mem_cons, not_or] at h
    rw [atLevel, List.map_cons, marginsFrom, ← atLevel, if_neg (Ne.symm h.1), if_pos rfl, ih h.2]

theorem marginsFrom_of_not_mem {cs : List Char} (h : '\n' ∉ cs) (mid : Bool) (level : Nat) :
    marginsFrom mid (atLevel level cs) =
      if mid || cs.isEmpty then cs else spaces level ++ cs := by
  cases mid with
  | true => exact marginsFrom_true_of_not_mem h level
  | false =>
    cases cs with
    | nil => rfl
    | cons c cs =>
      rw [List.mem_cons, not_or] at h
      have hcs := marginsFrom_true_of_not_mem h.2 level
      rw [atLevel, List.map_cons, marginsFrom, ← atLevel, if_neg (Ne.symm h.1), hcs]
      rfl

theorem splitOnP_atLevel (level : Nat) (cs : List Char) :
    (atLevel level cs).splitOnP (·.1 == '\n') = (cs.splitOn '\n').map (atLevel level) := by
  induction cs with
  | nil => simp [List.splitOn, List.splitOnP_nil]
  | cons c cs ih =>
    rw [List.splitOn] at ih ⊢
    rw [atLevel, List.map_cons, ← atLevel, List.splitOnP_cons_eq_if_modifyHead,
      List.splitOnP_cons_eq_if_modifyHead, ih]
    obtain ⟨l, ls, hl⟩ := List.exists_cons_of_ne_nil (List.splitOnP_ne_nil (· == '\n') cs)
    by_cases hc : c = '\n'
    · simp [hc]
    · simp [hc, hl, atLevel]

theorem lineWithMargin_atLevel (level : Nat) (l : List Char) :
    lineWithMargin (atLevel level l) = if l.isEmpty then [] else spaces level ++ l := by
  cases l with
  | nil => rfl
  | cons c l => simp [atLevel, lineWithMargin, Function.comp_def]

def indentLines (s : String) : String :=
  .ofList (['\n'].intercalate ((s.toList.splitOn '\n').map fun l =>
    if l.isEmpty then [] else "    ".toList ++ l))

theorem withMargins_atLevel_one (s : String) :
    withMargins (atLevel 1 s.toList) = (indentLines s).toList := by
  rw [withMargins, splitOnP_atLevel, List.map_map, indentLines, String.toList_ofList]
  simp only [Function.comp_def, lineWithMargin_atLevel]
  rfl

example : indentLines "a\n\n  b\n" = "    a\n\n      b\n" := by decide

end ClassSketch.Text
