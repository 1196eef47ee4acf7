import ClassSketch.Proofs.Batch
import ClassSketch.Proofs.OutputPaths

namespace ClassSketch.Files

/-- A name that something in a directory can have. -/
structure IsEntryName (name : String) : Prop where
  isName : Node.IsName name
  noSlash : '/' ∉ name.toList
  short : name.utf8ByteSize ≤ maxName

instance (name : String) : Decidable (IsEntryName name) :=
  decidable_of_iff (Node.IsName name ∧ '/' ∉ name.toList ∧ name.utf8ByteSize ≤ maxName)
    ⟨fun h => ⟨h.1, h.2.1, h.2.2⟩, fun h => ⟨h.isName, h.noSlash, h.short⟩⟩

theorem mem_of_lookup {entries : List (String × Node)} {name : String} {n : Node}
    (h : entries.lookup name = some n) : (name, n) ∈ entries := by
  obtain ⟨front, back, rfl, -⟩ := List.lookup_eq_some_iff.1 h
  exact List.mem_append_right front List.mem_cons_self

theorem exists_lookup_of_mem {entries : List (String × Node)} {name : String}
    (h : name ∈ entries.map Prod.fst) : ∃ n, entries.lookup name = some n := by
  induction entries with
  | nil => simp at h
  | cons entry entries ih =>
    obtain ⟨first, n⟩ := entry
    rw [lookup_cons_eq]
    split
    · exact ⟨n, rfl⟩
    · rename_i hne
      exact ih ((List.mem_cons.1 h).resolve_left hne)

/-- No directory has two entries of one name, or one whose name cannot be given in a path. -/
def Node.WellFormed (root : Node) : Prop :=
  ∀ place rights size entries, root.get? place = some (.dir rights size entries) →
    (entries.map Prod.fst).Nodup ∧ ∀ name ∈ entries.map Prod.fst, IsEntryName name

namespace Node

theorem WellFormed.below {root n : Node} {place : List String} (h : root.WellFormed)
    (hn : root.get? place = some n) : n.WellFormed := by
  intro more rights size entries hmore
  apply h (place ++ more) rights size entries
  rw [get?_append, hn]
  exact hmore

theorem wellFormed_file (number : Nat) : (file number).WellFormed := by
  intro place rights size entries h
  cases place <;> simp [get?] at h

theorem wellFormed_dir {rights : Rights} {size : Nat} {entries : List (String × Node)}
    (hnodup : (entries.map Prod.fst).Nodup)
    (hnames : ∀ name ∈ entries.map Prod.fst, IsEntryName name)
    (hbelow : ∀ entry ∈ entries, entry.2.WellFormed) : (dir rights size entries).WellFormed := by
  intro place rights size found h
  cases place with
  | nil =>
    cases h
    exact ⟨hnodup, hnames⟩
  | cons name rest =>
    rw [get?] at h
    split at h
    · rename_i n hn
      exact hbelow (name, n) (mem_of_lookup hn) rest rights size found h
    · cases h

end Node

theorem segments_of_no_slash {name : String} (h : '/' ∉ name.toList) : segments name = [name] := by
  have hplace : segments ("/".intercalate [name]) = [name] :=
    segments_places (by simpa using h) (by simp)
  rwa [String.intercalate_singleton] at hplace

theorem utf8ByteSize_lt_join {name : String} (h : name ≠ "") (dir : String) :
    dir.utf8ByteSize < (join dir name).utf8ByteSize := by
  have hname : 0 < name.utf8ByteSize := Nat.pos_of_ne_zero fun hzero =>
    h (String.utf8ByteSize_eq_zero_iff.1 hzero)
  rw [join]
  split <;> simp only [String.utf8ByteSize_append] <;> omega

theorem Node.locate_join {root : Node} {dir name : String} {base : List String}
    (hbase : root.walk [] (segments dir) = .ok base) (hslash : '/' ∉ name.toList)
    (hshort : (join dir name).utf8ByteSize < maxPath) :
    root.locate (join dir name) = root.enter base name := by
  have hempty : ¬ (join dir name).isEmpty = true := by simpa using join_ne_empty dir name
  rw [locate, if_neg hempty, if_neg (Nat.not_le.2 hshort), walk_join, hbase, ok_bind,
    segments_of_no_slash hslash, walk_cons]
  cases root.enter base name <;> rfl

namespace FileSystem

variable {fs fs' : FileSystem}

theorem readDir_eq_ok {dir : String} {names : List String} (h : fs.readDir dir = .ok names) :
    ∃ rights size entries, fs.root.at? dir = .ok (.dir rights size entries) ∧
      names = entries.map Prod.fst := by
  obtain ⟨n, hn, h⟩ := bind_eq_ok_iff.1 h
  cases n with
  | file => cases h
  | dir rights size entries =>
    refine ⟨rights, size, entries, hn, ?_⟩
    dsimp only at h
    cases hlisting : rights.listing with
    | some e =>
      rw [hlisting] at h
      cases h
    | none =>
      rw [hlisting] at h
      cases h
      rfl

end FileSystem

end ClassSketch.Files
