namespace ClassSketch.Text

def consHead (c : Char) : List (List Char) → List (List Char)
  | [] => [[c]]
  | s :: rest => (c :: s) :: rest

def segments (sep : Char) (cs : List Char) : List (List Char) :=
  cs.foldr (fun c rest => if c = sep then [] :: rest else consHead c rest) [[]]

/-- The text behind the last character for which `p` holds, or all of it if there is none. -/
def afterLast (p : Char → Bool) (cs : List Char) : List Char :=
  (cs.reverse.takeWhile fun c => !p c).reverse

@[simp] theorem segments_nil (sep : Char) : segments sep [] = [[]] := rfl

@[simp] theorem segments_cons (sep c : Char) (cs : List Char) :
    segments sep (c :: cs) =
      if c = sep then [] :: segments sep cs else consHead c (segments sep cs) := rfl

theorem segments_ne_nil (sep : Char) (cs : List Char) : segments sep cs ≠ [] := by
  cases cs with
  | nil => simp
  | cons c cs =>
    rw [segments_cons]
    split
    · simp
    · cases segments sep cs <;> simp [consHead]

end ClassSketch.Text
