import ClassSketch.Files.Path
import ClassSketch.Proofs.Except
import Mathlib.Tactic.SplitIfs

namespace ClassSketch.Files

/-- What stands at a place, without what is below it. -/
inductive Kind where
  | dir (rights : Rights)
  | file (number : Nat)
deriving DecidableEq

theorem lookup_cons_eq (first : String) (n : Node) (rest : List (String × Node)) (name : String) :
    ((first, n) :: rest).lookup name = if name = first then some n else rest.lookup name := by
  rw [List.lookup_cons]
  by_cases h : name = first
  · simp [h]
  · simp [beq_false_of_ne h, h]

theorem lookup_setEntry (name : String) (new : Node) (entries : List (String × Node))
    (other : String) : (setEntry name new entries).lookup other =
      if other = name then some new else entries.lookup other := by
  induction entries with
  | nil => rw [setEntry, lookup_cons_eq]
  | cons entry rest ih =>
    obtain ⟨first, old⟩ := entry
    rw [setEntry, lookup_cons_eq]
    by_cases hfirst : first = name
    · subst hfirst
      rw [if_pos rfl, lookup_cons_eq]
      by_cases h : other = first <;> simp [h]
    · rw [if_neg hfirst, lookup_cons_eq, ih]
      by_cases h : other = first
      · have hne : other ≠ name := h ▸ hfirst
        simp [h, hfirst]
      · simp [h]

theorem segments_ne_nil (path : String) : segments path ≠ [] := by
  rw [segments, ne_eq, List.map_eq_nil_iff]
  exact Text.segments_ne_nil '/' path.toList

theorem segments_eq_concat (path : String) :
    segments path = (segments path).dropLast ++ [(segments path).getLast?.getD ""] := by
  rw [List.getLast?_eq_some_getLast (segments_ne_nil path), Option.getD_some,
    List.dropLast_concat_getLast]

namespace Node

def kind : Node → Kind
  | .file number => .file number
  | .dir rights _ _ => .dir rights

def kindAt? (root : Node) (place : List String) : Option Kind := (root.get? place).map kind

theorem get?_append (root : Node) (place more : List String) :
    root.get? (place ++ more) = (root.get? place).bind (·.get? more) := by
  induction place generalizing root with
  | nil => simp [get?]
  | cons name place ih =>
    cases root with
    | file => rfl
    | dir rights size entries =>
      rw [List.cons_append, get?, get?]
      cases entries.lookup name with
      | none => rfl
      | some n => exact ih n

theorem get?_concat {root : Node} {here : List String} {rights : Rights} {size : Nat}
    {entries : List (String × Node)} (h : root.get? here = some (.dir rights size entries))
    (name : String) : root.get? (here ++ [name]) = entries.lookup name := by
  rw [get?_append, h, Option.bind_some, get?]
  cases entries.lookup name <;> rfl

theorem kindAt?_dir_cons (rights : Rights) (size : Nat) (entries : List (String × Node))
    (name : String) (place : List String) :
    kindAt? (.dir rights size entries) (name :: place) =
      (entries.lookup name).bind (·.kindAt? place) := by
  rw [kindAt?, get?]
  cases entries.lookup name <;> rfl

theorem kindAt?_append_of_none {root : Node} {place : List String}
    (h : root.kindAt? place = none) (more : List String) : root.kindAt? (place ++ more) = none := by
  rw [kindAt?, get?_append, Option.map_eq_none_iff.1 h]
  rfl

theorem kindAt?_setEntry (rights : Rights) (size : Nat) (entries : List (String × Node))
    (name : String) (new : Node) (first : String) (more : List String) :
    kindAt? (.dir rights size (setEntry name new entries)) (first :: more) =
      if first = name then new.kindAt? more
      else kindAt? (.dir rights size entries) (first :: more) := by
  rw [kindAt?_dir_cons, lookup_setEntry]
  split
  · rfl
  · rw [kindAt?_dir_cons]

/-- Putting something with nothing below it where nothing is. -/
theorem kindAt?_set {root : Node} (new : Node) {here : List String} {name : String}
    {rights : Rights} (hdir : root.kindAt? here = some (.dir rights))
    (hnone : root.kindAt? (here ++ [name]) = none)
    (hnew : ∀ first more, new.kindAt? (first :: more) = none) (q : List String) :
    (root.set (here ++ [name]) new).kindAt? q =
      if q = here ++ [name] then some new.kind else root.kindAt? q := by
  induction here generalizing root q with
  | nil =>
    cases root with
    | file => cases hdir
    | dir rights size entries =>
      rw [List.nil_append, set, set]
      cases q with
      | nil => rfl
      | cons first more =>
        rw [kindAt?_setEntry]
        by_cases hname : first = name
        · subst hname
          cases more with
          | nil => simp [kindAt?, get?]
          | cons second more =>
            -- there was nothing below either, as no directory was there
            have hbelow := kindAt?_append_of_none hnone (second :: more)
            rw [if_pos rfl, hnew, if_neg (by simp)]
            exact hbelow.symm
        · rw [if_neg hname, if_neg (fun h => hname (List.cons.inj h).1)]
  | cons above here ih =>
    cases root with
    | file => cases hdir
    | dir rights size entries =>
      rw [kindAt?_dir_cons] at hdir
      obtain ⟨n, hn, hbelow⟩ := Option.bind_eq_some_iff.1 hdir
      rw [List.cons_append, set, hn, Option.getD_some]
      rw [List.cons_append, kindAt?_dir_cons, hn, Option.bind_some] at hnone
      cases q with
      | nil => rfl
      | cons first more =>
        rw [kindAt?_setEntry, kindAt?_dir_cons]
        by_cases hname : first = above
        · subst hname
          rw [if_pos rfl, hn, Option.bind_some, ih hbelow hnone]
          simp
        · rw [if_neg hname, if_neg (fun h => hname (List.cons.inj h).1)]

theorem bound_le_of_lookup {entries : List (String × Node)} {name : String} {n : Node}
    (h : entries.lookup name = some n) : n.bound ≤ boundEntries entries := by
  induction entries with
  | nil => cases h
  | cons entry entries ih =>
    obtain ⟨first, old⟩ := entry
    rw [lookup_cons_eq] at h
    rw [boundEntries]
    split at h
    · cases h
      exact Nat.le_max_left ..
    · exact Nat.le_trans (ih h) (Nat.le_max_right ..)

theorem lt_bound {root : Node} {place : List String} {number : Nat}
    (h : root.kindAt? place = some (.file number)) : number < root.bound := by
  induction place generalizing root with
  | nil =>
    cases root with
    | dir => cases h
    | file =>
      cases h
      rw [bound]
      exact Nat.lt_add_one _
  | cons name place ih =>
    cases root with
    | file => cases h
    | dir rights size entries =>
      rw [kindAt?_dir_cons] at h
      obtain ⟨n, hn, hbelow⟩ := Option.bind_eq_some_iff.1 h
      rw [bound]
      exact Nat.lt_of_lt_of_le (ih hbelow) (bound_le_of_lookup hn)

def enter (root : Node) (here : List String) (name : String) : Except OsError (List String) :=
  match root.kindAt? here with
  | none => .error .notFound
  | some (.file _) => .error .notDirectory
  | some (.dir rights) =>
    if name = "" then .ok here
    else match rights.entering with
      | some e => .error e
      | none =>
        if name = "." then .ok here
        else if name = ".." then .ok here.dropLast
        else if maxName < name.utf8ByteSize then .error .nameTooLong
        else if (root.kindAt? (here ++ [name])).isSome then .ok (here ++ [name])
        else .error .notFound

theorem walk_cons (root : Node) (here : List String) (name : String) (rest : List String) :
    root.walk here (name :: rest) = root.enter here name >>= fun next => root.walk next rest := by
  rw [walk, enter, kindAt?]
  cases hn : root.get? here with
  | none => rfl
  | some n =>
    cases n with
    | file => rfl
    | dir rights size entries =>
      have hentry : (root.kindAt? (here ++ [name])).isSome = (entries.lookup name).isSome := by
        rw [kindAt?, get?_concat hn, Option.isSome_map]
      simp only [Option.map_some, kind, hentry]
      split
      · rfl
      · cases rights.entering with
        | some e => rfl
        | none =>
          dsimp only
          split_ifs <;> rfl

theorem walk_append (root : Node) (here names more : List String) :
    root.walk here (names ++ more) =
      root.walk here names >>= fun next => root.walk next more := by
  induction names generalizing here with
  | nil => rfl
  | cons name names ih =>
    rw [List.cons_append, walk_cons, walk_cons, bind_assoc]
    exact bind_congr fun next => ih next

/-- A name that is looked up in a directory as it stands. -/
def IsName (name : String) : Prop := name ≠ "" ∧ name ≠ "." ∧ name ≠ ".."

instance (name : String) : Decidable (IsName name) :=
  inferInstanceAs (Decidable (name ≠ "" ∧ name ≠ "." ∧ name ≠ ".."))

theorem enter_eq_ok_iff {root : Node} {here next : List String} {name : String}
    (hname : IsName name) : root.enter here name = .ok next ↔
      (∃ rights, root.kindAt? here = some (.dir rights) ∧ rights.entering = none) ∧
        name.utf8ByteSize ≤ maxName ∧ next = here ++ [name] ∧ (root.kindAt? next).isSome := by
  obtain ⟨hempty, hdot, hdots⟩ := hname
  rw [enter]
  cases root.kindAt? here with
  | none => simp
  | some kind =>
    cases kind with
    | file => simp
    | dir rights =>
      simp only [hempty, hdot, hdots, if_false, Option.some.injEq, Kind.dir.injEq,
        exists_eq_left']
      cases rights.entering with
      | some e => simp
      | none =>
        simp only [true_and]
        constructor
        · intro h
          split_ifs at h with hlong hsome
          cases h
          exact ⟨Nat.not_lt.1 hlong, rfl, hsome⟩
        · rintro ⟨hlong, rfl, hsome⟩
          rw [if_neg (Nat.not_lt.2 hlong), if_pos hsome]

theorem eq_append_of_walk {root : Node} {here place names : List String}
    (hnames : ∀ name ∈ names, IsName name) (h : root.walk here names = .ok place) :
    place = here ++ names := by
  induction names generalizing here with
  | nil =>
    cases h
    rw [List.append_nil]
  | cons name names ih =>
    rw [walk_cons] at h
    obtain ⟨next, hnext, h⟩ := bind_eq_ok_iff.1 h
    obtain ⟨-, -, rfl, -⟩ := (enter_eq_ok_iff (hnames name (by simp))).1 hnext
    rw [ih (fun n hn => hnames n (by simp [hn])) h, List.append_assoc]
    rfl

theorem locate_eq_ok_iff {root : Node} {path : String} {place : List String} :
    root.locate path = .ok place ↔
      path ≠ "" ∧ path.utf8ByteSize < maxPath ∧ root.walk [] (segments path) = .ok place := by
  rw [locate, ← Nat.not_le]
  by_cases hempty : path = ""
  · simp [hempty]
  · rw [if_neg (by simpa using hempty)]
    by_cases hlong : maxPath ≤ path.utf8ByteSize
    · simp [hlong]
    · simp [hempty, hlong]

theorem at?_eq_ok_iff {root n : Node} {path : String} :
    root.at? path = .ok n ↔ ∃ place, root.locate path = .ok place ∧ root.get? place = some n := by
  rw [at?, bind_eq_ok_iff]
  refine exists_congr fun place => and_congr_right fun _ => ?_
  cases root.get? place with
  | none => exact ⟨nofun, nofun⟩
  | some m =>
    exact ⟨fun h => congrArg some (Except.ok.inj h),
      fun h => congrArg Except.ok (Option.some.inj h)⟩

/-- Nothing that stands in `root` has gone or been changed for something else in `root'`. -/
def Grows (root root' : Node) : Prop :=
  ∀ place kind, root.kindAt? place = some kind → root'.kindAt? place = some kind

namespace Grows

variable {root root' root'' : Node}

theorem refl (root : Node) : Grows root root := fun _ _ => id

theorem trans (h : Grows root root') (h' : Grows root' root'') : Grows root root'' :=
  fun place kind hkind => h' place kind (h place kind hkind)

theorem isSome (h : Grows root root') {place : List String} (hsome : (root.kindAt? place).isSome) :
    (root'.kindAt? place).isSome := by
  obtain ⟨kind, hkind⟩ := Option.isSome_iff_exists.1 hsome
  rw [h place kind hkind]
  rfl

theorem eq_none (h : Grows root root') {place : List String} (hnone : root'.kindAt? place = none) :
    root.kindAt? place = none := by
  cases hkind : root.kindAt? place with
  | none => rfl
  | some kind => cases (h place kind hkind).symm.trans hnone

theorem enter (h : Grows root root') {here next : List String} {name : String}
    (hnext : root.enter here name = .ok next) : root'.enter here name = .ok next := by
  rw [Node.enter] at hnext
  split at hnext
  · cases hnext
  · cases hnext
  · rename_i rights hdir
    rw [Node.enter, h here _ hdir]
    dsimp only
    split at hnext
    · rename_i hempty
      rw [if_pos hempty, hnext]
    · rename_i hempty
      rw [if_neg hempty]
      cases hentering : rights.entering with
      | some e =>
        rw [hentering] at hnext
        cases hnext
      | none =>
        rw [hentering] at hnext
        dsimp only at hnext ⊢
        split_ifs at hnext with hdot hdots hlong hsome
        · rw [if_pos hdot, hnext]
        · rw [if_neg hdot, if_pos hdots, hnext]
        · rw [if_neg hdot, if_neg hdots, if_neg hlong, if_pos (h.isSome hsome), hnext]

theorem walk (h : Grows root root') {here place names : List String}
    (hplace : root.walk here names = .ok place) : root'.walk here names = .ok place := by
  induction names generalizing here with
  | nil => exact hplace
  | cons name names ih =>
    rw [walk_cons] at hplace
    obtain ⟨next, hnext, hplace⟩ := bind_eq_ok_iff.1 hplace
    rw [walk_cons, h.enter hnext]
    exact ih hplace

theorem locate (h : Grows root root') {path : String} {place : List String}
    (hplace : root.locate path = .ok place) : root'.locate path = .ok place := by
  obtain ⟨hne, hshort, hwalk⟩ := locate_eq_ok_iff.1 hplace
  exact locate_eq_ok_iff.2 ⟨hne, hshort, h.walk hwalk⟩

end Grows

theorem grows_set {root new : Node} {here : List String} {name : String} {rights : Rights}
    (hdir : root.kindAt? here = some (.dir rights)) (hnone : root.kindAt? (here ++ [name]) = none)
    (hnew : ∀ first more, new.kindAt? (first :: more) = none) :
    Grows root (root.set (here ++ [name]) new) := by
  intro place kind hkind
  have hne : place ≠ here ++ [name] := by
    rintro rfl
    rw [hnone] at hkind
    cases hkind
  rw [kindAt?_set new hdir hnone hnew, if_neg hne, hkind]

theorem newPlace_eq_ok {root : Node} {parents place : List String} {name : String}
    {old : Option Node} (h : root.newPlace parents name = .ok (place, old)) :
    ∃ here rights, root.walk [] parents = .ok here ∧ root.kindAt? here = some (.dir rights) ∧
      rights.entering = none ∧ name.utf8ByteSize ≤ maxName ∧ place = here ++ [name] ∧
        old = root.get? place := by
  obtain ⟨here, hhere, h⟩ := bind_eq_ok_iff.1 h
  split at h
  · rename_i rights size entries hn
    cases hentering : rights.entering with
    | some e =>
      rw [hentering] at h
      cases h
    | none =>
      rw [hentering] at h
      dsimp only at h
      split at h
      · cases h
      · rename_i hlong
        cases h
        refine ⟨here, rights, hhere, ?_, hentering, Nat.not_lt.1 hlong, rfl,
          (get?_concat hn name).symm⟩
        rw [kindAt?, hn]
        rfl
  · cases h
  · cases h

end Node

end ClassSketch.Files
