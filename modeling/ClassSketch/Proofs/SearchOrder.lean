import ClassSketch.Proofs.Confinement
import ClassSketch.Proofs.FoundFiles
import Mathlib.Data.List.Sort
import Mathlib.Tactic.Choose
import Mathlib.Tactic.FinCases

namespace ClassSketch.Files

/-- The order of places by the bytes of one name after the other. -/
def Before (p q : List String) : Prop := p.map utf8Bytes < q.map utf8Bytes

instance : DecidableRel Before :=
  fun p q => inferInstanceAs (Decidable (p.map utf8Bytes < q.map utf8Bytes))

theorem utf8Bytes_injective : Function.Injective utf8Bytes := by
  intro s t h
  exact String.toByteArray_inj.1 (ByteArray.ext (Array.toList_inj.1 h))

instance : Std.Irrefl Before := ⟨fun p => List.lt_irrefl (p.map utf8Bytes)⟩

instance : Std.Antisymm Before := ⟨fun _ _ h h' => absurd h' (List.lt_asymm h)⟩

theorem before_cons_iff {name : String} {p q : List String} :
    Before (name :: p) (name :: q) ↔ Before p q := by
  simp [Before]

theorem before_cons_of_lt {name name' : String} (h : utf8Bytes name < utf8Bytes name')
    (p q : List String) : Before (name :: p) (name' :: q) :=
  List.cons_lt_cons_iff.2 (.inl h)

theorem Before.append_left {p q : List String} (h : Before p q) (base : List String) :
    Before (base ++ p) (base ++ q) := by
  rw [Before, List.map_append, List.map_append]
  exact List.append_left_lt h

theorem pairwise_mergeSort_byBytes {names : List String} (hnodup : names.Nodup) :
    (names.mergeSort byBytes).Pairwise fun a b => utf8Bytes a < utf8Bytes b := by
  have hle : (names.mergeSort byBytes).Pairwise fun a b => byBytes a b := by
    refine List.pairwise_mergeSort ?_ ?_ names
    · intro a b c hab hbc
      simp only [byBytes, decide_eq_true_eq] at hab hbc ⊢
      exact List.le_trans hab hbc
    · intro a b
      simpa [byBytes] using List.le_total (utf8Bytes a) (utf8Bytes b)
  have hne : (names.mergeSort byBytes).Nodup :=
    (List.mergeSort_perm names byBytes).nodup_iff.2 hnodup
  refine hle.imp₂ (fun a b hab hneq => ?_) hne
  simp only [byBytes, decide_eq_true_eq] at hab
  exact Std.lt_of_le_of_ne hab fun he => hneq (utf8Bytes_injective he)

theorem lookup_of_mem {entries : List (String × Node)} (hnodup : (entries.map Prod.fst).Nodup)
    {name : String} {n : Node} (h : (name, n) ∈ entries) : entries.lookup name = some n := by
  induction entries with
  | nil => simp at h
  | cons entry entries ih =>
    obtain ⟨first, old⟩ := entry
    rw [List.map_cons, List.nodup_cons] at hnodup
    rw [lookup_cons_eq]
    rcases List.mem_cons.1 h with h | h
    · cases h
      rw [if_pos rfl]
    · have hmem : name ∈ entries.map Prod.fst := List.mem_map_of_mem h
      have hne : name ≠ first := fun he => hnodup.1 (he ▸ hmem)
      rw [if_neg hne, ih hnodup.2 h]

theorem hasClassExtension_iff {name : String} :
    hasClassExtension name ↔ ∃ stem, stem ≠ "" ∧ name = stem ++ ".class" := by
  simp only [hasClassExtension, Bool.and_eq_true, List.isSuffixOf_iff_suffix, decide_eq_true_eq]
  constructor
  · rintro ⟨⟨chars, hchars⟩, hne⟩
    have hname : name = String.ofList chars ++ ".class" := by
      rw [← String.toList_inj, String.toList_append, String.toList_ofList, hchars]
    refine ⟨String.ofList chars, fun hempty => hne ?_, hname⟩
    rw [hname, hempty]
    rfl
  · rintro ⟨stem, hne, rfl⟩
    refine ⟨⟨stem.toList, String.toList_append.symm⟩, fun heq => hne ?_⟩
    rw [← String.toList_inj, String.toList_append] at heq
    exact String.toList_inj.1 (List.append_left_eq_self.1 heq)

namespace Node

/-- A file whose name is `.class` behind something else. -/
def IsClassFile (n : Node) (place : List String) : Prop :=
  ∃ above stem number, stem ≠ "" ∧ place = above ++ [stem ++ ".class"] ∧
    n.get? place = some (.file number)

theorem isClassFile_iff {n : Node} {place : List String} :
    n.IsClassFile place ↔ (∃ number, n.get? place = some (.file number)) ∧
      ∃ name, place.getLast? = some name ∧ hasClassExtension name := by
  constructor
  · rintro ⟨above, stem, number, hstem, rfl, hfile⟩
    exact ⟨⟨number, hfile⟩, _, List.getLast?_concat, hasClassExtension_iff.2 ⟨stem, hstem, rfl⟩⟩
  · rintro ⟨⟨number, hfile⟩, name, hlast, hclass⟩
    obtain ⟨above, hplace⟩ := List.getLast?_eq_some_iff.1 hlast
    obtain ⟨stem, hstem, rfl⟩ := hasClassExtension_iff.1 hclass
    exact ⟨above, stem, number, hstem, hplace, hfile⟩

section

variable {rights : Rights} {size : Nat} {entries : List (String × Node)} {name : String}

theorem get?_cons_of_lookup {child : Node} (h : entries.lookup name = some child)
    (rest : List String) : (dir rights size entries).get? (name :: rest) = child.get? rest := by
  rw [get?, h]

theorem exists_lookup_of_get? {rest : List String} {found : Node}
    (h : (dir rights size entries).get? (name :: rest) = some found) :
    ∃ child, entries.lookup name = some child ∧ child.get? rest = some found := by
  rw [get?] at h
  split at h
  · rename_i child hchild
    exact ⟨child, hchild, h⟩
  · cases h

theorem exists_lookup_of_isClassFile {place : List String}
    (h : (dir rights size entries).IsClassFile place) :
    ∃ name rest child, place = name :: rest ∧ entries.lookup name = some child := by
  obtain ⟨⟨number, hfile⟩, -⟩ := isClassFile_iff.1 h
  cases place with
  | nil => cases hfile
  | cons name rest =>
    obtain ⟨child, hchild, -⟩ := exists_lookup_of_get? hfile
    exact ⟨name, rest, child, rfl, hchild⟩

theorem isClassFile_cons_of_dir {rights' : Rights} {size' : Nat} {entries' : List (String × Node)}
    (h : entries.lookup name = some (.dir rights' size' entries')) {rest : List String} :
    (dir rights size entries).IsClassFile (name :: rest) ↔
      (dir rights' size' entries').IsClassFile rest := by
  rw [isClassFile_iff, isClassFile_iff, get?_cons_of_lookup h]
  refine and_congr_right fun ⟨number, hfile⟩ => ?_
  cases rest with
  | nil => cases hfile
  | cons => rw [List.getLast?_cons_cons]

theorem isClassFile_cons_of_file {number : Nat} (h : entries.lookup name = some (.file number))
    {rest : List String} : (dir rights size entries).IsClassFile (name :: rest) ↔
      rest = [] ∧ hasClassExtension name := by
  rw [isClassFile_iff, get?_cons_of_lookup h]
  cases rest with
  | nil => simp [get?]
  | cons => simp [get?]

theorem WellFormed.lookup (h : (dir rights size entries).WellFormed) {child : Node}
    (hchild : entries.lookup name = some child) : child.WellFormed := by
  have hget : (dir rights size entries).get? [name] = some child := get?_cons_of_lookup hchild []
  exact h.below hget

end

/-- The order in which the entries of a directory are listed does not matter. -/
theorem get?_of_perm {rights : Rights} {size : Nat} {entries entries' : List (String × Node)}
    (hperm : entries'.Perm entries) (hnodup : (entries.map Prod.fst).Nodup) (name : String)
    (rest : List String) : (dir rights size entries').get? (name :: rest) =
      (dir rights size entries).get? (name :: rest) := by
  have hnodup' : (entries'.map Prod.fst).Nodup := (hperm.map Prod.fst).nodup_iff.2 hnodup
  have hlookup : entries'.lookup name = entries.lookup name := by
    refine Option.ext fun m => ⟨fun h => ?_, fun h => ?_⟩
    · exact lookup_of_mem hnodup (hperm.mem_iff.1 (mem_of_lookup h))
    · exact lookup_of_mem hnodup' (hperm.mem_iff.2 (mem_of_lookup h))
  rw [get?, get?, hlookup]

theorem WellFormed.of_perm {rights : Rights} {size : Nat} {entries entries' : List (String × Node)}
    (h : (dir rights size entries).WellFormed) (hperm : entries'.Perm entries) :
    (dir rights size entries').WellFormed := by
  have hnames := hperm.map Prod.fst
  obtain ⟨hnodup, hname⟩ := h [] rights size entries rfl
  refine wellFormed_dir (hnames.nodup_iff.2 hnodup) ?_ ?_
  · exact fun name hmem => hname name (hnames.mem_iff.1 hmem)
  · exact fun entry hmem => h.lookup (lookup_of_mem hnodup (hperm.mem_iff.1 hmem))

theorem isClassFile_of_perm {rights : Rights} {size : Nat} {entries entries' : List (String × Node)}
    (hperm : entries'.Perm entries) (hnodup : (entries.map Prod.fst).Nodup) (place : List String) :
    (dir rights size entries').IsClassFile place ↔ (dir rights size entries).IsClassFile place := by
  rw [isClassFile_iff, isClassFile_iff]
  cases place with
  | nil => simp [get?]
  | cons name rest => rw [get?_of_perm hperm hnodup]

/-- The places of the class files that a search goes through, one after the other. -/
structure Finds (n : Node) (places : List (List String)) : Prop where
  mem_iff : ∀ place, place ∈ places ↔ n.IsClassFile place
  pairwise : places.Pairwise Before

structure FindsThrough (n : Node) (name : String) (places : List (List String)) : Prop where
  mem_iff : ∀ place, place ∈ places ↔ n.IsClassFile place ∧ ∃ rest, place = name :: rest
  pairwise : places.Pairwise Before

theorem Finds.unique {n n' : Node} {places places' : List (List String)} (h : n.Finds places)
    (h' : n'.Finds places') (hsame : ∀ place, n'.IsClassFile place ↔ n.IsClassFile place) :
    places' = places := by
  refine h'.pairwise.eq_of_mem_iff h.pairwise fun place => ?_
  rw [h.mem_iff, h'.mem_iff, hsame]

theorem WellFormed.isEntryName {n found : Node} (hn : n.WellFormed) {place : List String}
    (h : n.get? place = some found) : ∀ name ∈ place, IsEntryName name := by
  induction place generalizing n with
  | nil => simp
  | cons name rest ih =>
    cases n with
    | file => cases h
    | dir rights size entries =>
      obtain ⟨child, hchild, h⟩ := exists_lookup_of_get? h
      have hname := (hn [] rights size entries rfl).2 name
        (List.mem_map_of_mem (mem_of_lookup hchild))
      have hrest := ih (hn.lookup hchild) h
      simpa using ⟨hname, hrest⟩

theorem Finds.isEntryName {n : Node} (hn : n.WellFormed) {places : List (List String)}
    (h : n.Finds places) {place : List String} (hplace : place ∈ places) :
    ∀ name ∈ place, IsEntryName name := by
  obtain ⟨⟨number, hfile⟩, -⟩ := isClassFile_iff.1 ((h.mem_iff place).1 hplace)
  exact hn.isEntryName hfile

end Node

theorem joinAll_join {path name : String} (hname : name ≠ "") (hslash : '/' ∉ name.toList)
    (place : List String) : joinAll (join path name) place = joinAll path (name :: place) := by
  have hlast : ∀ front : String, (front ++ name).toList.getLast? ≠ some '/' := by
    intro front
    rw [String.toList_append, List.getLast?_append_of_ne_nil]
    · exact fun h => hslash (List.mem_of_getLast? h)
    · simpa using hname
  have hinner : ∀ text : String, join (join path name) text = join path (name ++ "/" ++ text) := by
    intro text
    rw [join, join, join]
    split
    · rw [if_neg (hlast _)]
      simp only [String.append_assoc]
    · rw [if_neg (hlast _)]
      simp only [String.append_assoc]
  cases place with
  | nil => simp [joinAll]
  | cons next rest =>
    rw [joinAll, joinAll, if_neg (by simp), if_neg (by simp), hinner, String.intercalate_cons_cons]

namespace FileSystem

variable {fs : FileSystem}

/-- Each directory of a tree at the path can be listed by its own path. -/
def Readable (fs : FileSystem) (path : String) (n : Node) : Prop :=
  ∀ place rights size entries, n.get? place = some (.dir rights size entries) →
    ∃ names, fs.readDir (joinAll path place) = .ok names

def searchEntry (fs : FileSystem) (dir name : String) : Found :=
  if fs.isDir (join dir name) ∧ dir.utf8ByteSize < (join dir name).utf8ByteSize ∧
      (join dir name).utf8ByteSize < maxPath then fs.search (join dir name)
  else if hasClassExtension name then { files := [join dir name] }
  else {}

theorem search_of_readDir {dir : String} {names : List String} (h : fs.readDir dir = .ok names) :
    fs.search dir = .all ((names.mergeSort byBytes).map (fs.searchEntry dir)) := by
  rw [search, h]
  rfl

section

variable {path : String} {rights : Rights} {size : Nat} {entries : List (String × Node)}

theorem readDir_of_at? (hat : fs.root.at? path = .ok (.dir rights size entries))
    (h : ∃ names, fs.readDir path = .ok names) : fs.readDir path = .ok (entries.map Prod.fst) := by
  obtain ⟨names, hnames⟩ := h
  obtain ⟨_, _, entries', hat', rfl⟩ := readDir_eq_ok hnames
  cases hat.symm.trans hat'
  exact hnames

theorem lookup_of_at?_join (hat : fs.root.at? path = .ok (.dir rights size entries)) {name : String}
    (hname : IsEntryName name) {n : Node} (h : fs.root.at? (join path name) = .ok n) :
    entries.lookup name = some n ∧ (join path name).utf8ByteSize < maxPath := by
  obtain ⟨base, hbase, hget⟩ := Node.at?_eq_ok_iff.1 hat
  obtain ⟨place, hplace, hn⟩ := Node.at?_eq_ok_iff.1 h
  obtain ⟨-, -, hwalk⟩ := Node.locate_eq_ok_iff.1 hbase
  obtain ⟨-, hshort, -⟩ := Node.locate_eq_ok_iff.1 hplace
  rw [Node.locate_join hwalk hname.noSlash hshort, Node.enter_eq_ok_iff hname.isName] at hplace
  obtain ⟨-, -, rfl, -⟩ := hplace
  rw [Node.get?_concat hget] at hn
  exact ⟨hn, hshort⟩

/-- The step: the class files through one entry, when the search of a directory that it is finds
what it should. -/
theorem searchEntry_finds (hat : fs.root.at? path = .ok (.dir rights size entries))
    (hnames : (Node.dir rights size entries).WellFormed)
    (hreadable : fs.Readable path (.dir rights size entries)) {name : String} {child : Node}
    (hchild : entries.lookup name = some child)
    (hsearch : ∀ rights' size' entries', child = .dir rights' size' entries' →
      fs.root.at? (join path name) = .ok child → path.utf8ByteSize < (join path name).utf8ByteSize →
      (join path name).utf8ByteSize < maxPath → fs.Readable (join path name) child →
        ∃ places, child.Finds places ∧
          fs.search (join path name) = { files := places.map (joinAll (join path name)) }) :
    ∃ places, (Node.dir rights size entries).FindsThrough name places ∧
      fs.searchEntry path name = { files := places.map (joinAll path) } := by
  have hname := (hnames [] rights size entries rfl).2 name
    (List.mem_map_of_mem (mem_of_lookup hchild))
  rw [searchEntry]
  cases child with
  | file number =>
    have hfile : ¬ fs.isDir (join path name) = true := by
      intro hisDir
      rw [isDir] at hisDir
      split at hisDir
      · rename_i hat'
        cases hchild.symm.trans (lookup_of_at?_join hat hname hat').1
      · cases hisDir
    rw [if_neg fun h => hfile h.1]
    by_cases hclass : hasClassExtension name
    · refine ⟨[[name]], ⟨fun place => ?_, List.pairwise_singleton ..⟩, ?_⟩
      · constructor
        · intro h
          rw [List.mem_singleton.1 h]
          exact ⟨(Node.isClassFile_cons_of_file hchild).2 ⟨rfl, hclass⟩, [], rfl⟩
        · rintro ⟨h, rest, rfl⟩
          rw [((Node.isClassFile_cons_of_file hchild).1 h).1]
          exact List.mem_singleton_self _
      · rw [if_pos hclass]
        simp [joinAll]
    · refine ⟨[], ⟨fun place => ?_, .nil⟩, by rw [if_neg hclass]; rfl⟩
      simp only [List.not_mem_nil, false_iff]
      rintro ⟨h, rest, rfl⟩
      exact hclass ((Node.isClassFile_cons_of_file hchild).1 h).2
  | dir rights' size' entries' =>
    have hlisted : ∃ names, fs.readDir (join path name) = .ok names := by
      simpa [joinAll] using hreadable [name] rights' size' entries'
        ((Node.get?_cons_of_lookup hchild []).trans rfl)
    obtain ⟨names, hlisted⟩ := hlisted
    obtain ⟨_, _, _, hat', -⟩ := readDir_eq_ok hlisted
    obtain ⟨hlookup, hshort⟩ := lookup_of_at?_join hat hname hat'
    cases hchild.symm.trans hlookup
    have hlonger := utf8ByteSize_lt_join hname.isName.1 path
    have hbelow : fs.Readable (join path name) (.dir rights' size' entries') := by
      intro place rights'' size'' entries'' hplace
      rw [joinAll_join hname.isName.1 hname.noSlash]
      exact hreadable (name :: place) rights'' size'' entries''
        ((Node.get?_cons_of_lookup hchild place).trans hplace)
    obtain ⟨places, hfinds, hfound⟩ := hsearch _ _ _ rfl hat' hlonger hshort hbelow
    have hisDir : fs.isDir (join path name) = true := by rw [isDir, hat']
    rw [if_pos ⟨hisDir, hlonger, hshort⟩, hfound]
    refine ⟨places.map (name :: ·), ⟨fun place => ?_, ?_⟩, ?_⟩
    · rw [List.mem_map]
      constructor
      · rintro ⟨rest, hrest, rfl⟩
        exact ⟨(Node.isClassFile_cons_of_dir hchild).2 ((hfinds.mem_iff rest).1 hrest), rest, rfl⟩
      · rintro ⟨h, rest, rfl⟩
        exact ⟨rest, (hfinds.mem_iff rest).2 ((Node.isClassFile_cons_of_dir hchild).1 h), rfl⟩
    · exact List.pairwise_map.2 (hfinds.pairwise.imp before_cons_iff.2)
    · rw [List.map_map]
      congr 1
      exact List.map_congr_left fun place _ => joinAll_join hname.isName.1 hname.noSlash place

end

theorem all_map_files {names : List String} (places : String → List (List String)) (path : String) :
    Found.all (names.map fun name => { files := (places name).map (joinAll path) }) =
      { files := (names.flatMap places).map (joinAll path) } := by
  induction names with
  | nil => rfl
  | cons name names ih =>
    rw [List.map_cons, ← List.singleton_append, Found.all_append, ih, List.flatMap_cons,
      List.map_append]
    simp [Found.all, String.join]

theorem search_finds {path : String} {rights : Rights} {size : Nat} {entries : List (String × Node)}
    (hat : fs.root.at? path = .ok (.dir rights size entries))
    (hnames : (Node.dir rights size entries).WellFormed)
    (hreadable : fs.Readable path (.dir rights size entries)) :
    ∃ places, (Node.dir rights size entries).Finds places ∧
      fs.search path = { files := places.map (joinAll path) } := by
  have hstep : ∀ name ∈ entries.map Prod.fst, ∃ places,
      (Node.dir rights size entries).FindsThrough name places ∧
        fs.searchEntry path name = { files := places.map (joinAll path) } := by
    intro name hname
    obtain ⟨child, hchild⟩ := exists_lookup_of_mem hname
    refine searchEntry_finds hat hnames hreadable hchild ?_
    rintro rights' size' entries' rfl hat' hlonger hshort hbelow
    exact search_finds hat' (hnames.lookup hchild) hbelow
  choose! places hthrough hfound using hstep
  have hsorted : ∀ name, name ∈ (entries.map Prod.fst).mergeSort byBytes ↔
      name ∈ entries.map Prod.fst := fun name => List.mem_mergeSort
  refine ⟨((entries.map Prod.fst).mergeSort byBytes).flatMap places, ⟨fun place => ?_, ?_⟩, ?_⟩
  · rw [List.mem_flatMap]
    constructor
    · rintro ⟨name, hname, hplace⟩
      exact (((hthrough name ((hsorted name).1 hname)).mem_iff place).1 hplace).1
    · intro h
      obtain ⟨name, rest, child, rfl, hchild⟩ := Node.exists_lookup_of_isClassFile h
      have hname := List.mem_map_of_mem (f := Prod.fst) (mem_of_lookup hchild)
      exact ⟨name, (hsorted name).2 hname, ((hthrough name hname).mem_iff _).2 ⟨h, rest, rfl⟩⟩
  · -- below each entry by the order there, and from one entry to the next by their names
    rw [List.pairwise_flatMap]
    refine ⟨fun name hname => (hthrough name ((hsorted name).1 hname)).pairwise, ?_⟩
    refine (pairwise_mergeSort_byBytes (hnames [] rights size entries rfl).1).imp_of_mem ?_
    intro first second hfirst hsecond hlt p hp q hq
    obtain ⟨-, rest, rfl⟩ := ((hthrough first ((hsorted first).1 hfirst)).mem_iff p).1 hp
    obtain ⟨-, rest', rfl⟩ := ((hthrough second ((hsorted second).1 hsecond)).mem_iff q).1 hq
    exact before_cons_of_lt hlt rest rest'
  · have hlisted : ∃ names, fs.readDir path = .ok names := hreadable [] rights size entries rfl
    rw [search_of_readDir (readDir_of_at? hat hlisted), ← all_map_files]
    congr 1
    exact List.map_congr_left fun name hname => hfound name ((hsorted name).1 hname)
termination_by maxPath - path.utf8ByteSize
decreasing_by exact Nat.sub_lt_sub_left (Nat.lt_trans hlonger hshort) hlonger

end FileSystem

theorem components_joinAll (path : String) {place : List String}
    (h : ∀ name ∈ place, IsEntryName name) :
    components (joinAll path place) = components path ++ place := by
  by_cases hne : place = []
  · rw [hne, List.append_nil]
    rfl
  · have hsegments : segments ("/".intercalate place) = place :=
      segments_places (fun name hname => (h name hname).noSlash) hne
    have hnames : ∀ name ∈ segments ("/".intercalate place), Node.IsName name := by
      rw [hsegments]
      exact fun name hname => (h name hname).isName
    rw [joinAll, if_neg (by simpa using hne), components_join, components_of_names hnames,
      hsegments]

theorem Node.Finds.pairwise_joinAll {n : Node} (hn : n.WellFormed) {places : List (List String)}
    (h : n.Finds places) (path : String) :
    (places.map (joinAll path)).Pairwise fun p q => Before (components p) (components q) := by
  refine List.pairwise_map.2 (h.pairwise.imp_of_mem fun {p q} hp hq hbefore => ?_)
  rw [components_joinAll path (h.isEntryName hn hp), components_joinAll path (h.isEntryName hn hq)]
  exact hbefore.append_left (components path)

end ClassSketch.Files

namespace ClassSketch.Command

open Files

variable {σ : Type} [FileAccess (StateM σ)] {files : σ → FileSystem}

/-- A directory stands for the class files in it and below it, each of them once and in the order of
their paths, whatever else the system has in them and in whatever order it lists them. Among several
inputs they come in its place. -/
theorem inputFiles_finds (hσ : OnTree files) {s : σ} {input : String} {rights : Rights}
    {size : Nat} {entries : List (String × Node)}
    (hinput : (files s).root.at? input = .ok (.dir rights size entries))
    (hnames : (Node.dir rights size entries).WellFormed)
    (hreadable : (files s).Readable input (.dir rights size entries)) :
    let found (s : σ) := (inputFiles input : StateM σ _).run s
    let listed (inputs : List String) :=
      (Found.all ((inputs.mapM inputFiles : StateM σ _).run s).1).files
    (∃ places, (Node.dir rights size entries).Finds places ∧
        (found s).1 = { files := places.map (joinAll input), err := "" }) ∧
      (found s).1.files.Nodup ∧
      (found s).1.files.Pairwise (fun p q => Before (components p) (components q)) ∧
      files (found s).2 = files s ∧
      (∀ earlier later, listed (earlier ++ input :: later) =
        listed earlier ++ (found s).1.files ++ listed later) ∧
      ∀ s' rights' size' entries',
        (files s').root.at? input = .ok (.dir rights' size' entries') →
        (Node.dir rights' size' entries').WellFormed →
        (files s').Readable input (.dir rights' size' entries') →
        (∀ place, (Node.dir rights' size' entries').IsClassFile place ↔
          (Node.dir rights size entries).IsClassFile place) →
          (found s').1 = (found s).1 := by
  intro found listed
  have hfound : ∀ s, (found s).1 = (files s).found input ∧ files (found s).2 = files s := by
    intro s
    have hreads := hσ.found (files s) input
    exact ⟨hreads.fst_run, hreads.files_run⟩
  have hlisted : ∀ inputs, listed inputs = (Found.all (inputs.map (files s).found)).files :=
    fun inputs => congrArg (fun found => (Found.all found).files)
      (hσ.foundAll (files s) inputs).fst_run
  have hsearched : ∀ s rights size entries,
      (files s).root.at? input = .ok (.dir rights size entries) →
        (found s).1 = (files s).search input := by
    intro s rights size entries hat
    have hisDir : (files s).isDir input = true := by rw [FileSystem.isDir, hat]
    rw [(hfound s).1, FileSystem.found, if_pos hisDir]
  obtain ⟨places, hplaces, hfiles⟩ := FileSystem.search_finds hinput hnames hreadable
  rw [← hsearched s _ _ _ hinput] at hfiles
  have hordered :
      (found s).1.files.Pairwise fun p q => Before (components p) (components q) := by
    rw [hfiles]
    exact hplaces.pairwise_joinAll hnames input
  refine ⟨⟨places, hplaces, hfiles⟩, ?_, hordered, (hfound s).2, ?_, ?_⟩
  · refine hordered.imp fun hbefore heq => ?_
    rw [heq] at hbefore
    exact irrefl _ hbefore
  · intro earlier later
    rw [hlisted, hlisted, hlisted, (hfound s).1, List.map_append, List.map_cons, Found.all_append]
    simp [Found.all]
  · intro s' rights' size' entries' hinput' hnames' hreadable' hsame
    obtain ⟨places', hplaces', hfiles'⟩ := FileSystem.search_finds hinput' hnames' hreadable'
    rw [hsearched s' _ _ _ hinput', hfiles', hfiles, hplaces.unique hplaces' hsame]

/-- A directory that is itself called like a class file, listed in two orders, and a file that is
called like the extension alone. -/
theorem inputFiles_finds_shuffled :
    let inner : Node := .folder [("B.class", .file 0)]
    let lib : List (String × Node) :=
      [("b.class", .file 1), ("a.class", inner), (".class", .file 2)]
    let shuffled : List (String × Node) :=
      [("a.class", inner), (".class", .file 2), ("b.class", .file 1)]
    let fs : FileSystem := { root := .folder [("lib", .folder lib)], file := fun _ => {} }
    let fs' : FileSystem := { root := .folder [("lib", .folder shuffled)], file := fun _ => {} }
    let found (fs : FileSystem) := ((inputFiles "lib" : FileM _).run fs).1
    fs.root.at? "lib" = .ok (.folder lib) ∧ (Node.folder lib).WellFormed ∧
      fs.Readable "lib" (.folder lib) ∧
      found fs = { files := ["lib/a.class/B.class", "lib/b.class"] } ∧
      fs'.root.at? "lib" = .ok (.folder shuffled) ∧ (Node.folder shuffled).WellFormed ∧
      fs'.Readable "lib" (.folder shuffled) ∧
      (∀ place, (Node.folder shuffled).IsClassFile place ↔ (Node.folder lib).IsClassFile place) ∧
      found fs' = found fs := by
  intro inner lib shuffled fs fs' found
  have hlib : (Node.folder lib).WellFormed := by
    have hinner : inner.WellFormed :=
      Node.wellFormed_dir (by decide) (by decide) (by simp [Node.wellFormed_file])
    exact Node.wellFormed_dir (by decide) (by decide) (by simp [lib, hinner, Node.wellFormed_file])
  have hnodup : (lib.map Prod.fst).Nodup := by decide
  have hperm : shuffled.Perm lib := ((List.Perm.swap ..).cons _).trans (List.Perm.swap ..)
  have hinner : ∀ rest n, inner.get? rest = some n →
      rest = [] ∨ rest = ["B.class"] ∧ n = .file 0 := by
    intro rest n h
    cases rest with
    | nil => exact .inl rfl
    | cons name rest =>
      obtain ⟨child, hchild, h⟩ := Node.exists_lookup_of_get? h
      cases List.mem_singleton.1 (mem_of_lookup hchild)
      cases rest <;> cases h
      exact .inr ⟨rfl, rfl⟩
  have hentry : ∀ name child, lib.lookup name = some child →
      name = "b.class" ∧ child = .file 1 ∨ name = "a.class" ∧ child = inner ∨
        name = ".class" ∧ child = .file 2 := by
    intro name child h
    simpa [lib] using mem_of_lookup h
  have hdirs : ∀ name rest rights size entries,
      (Node.folder lib).get? (name :: rest) = some (.dir rights size entries) →
        name :: rest = ["a.class"] := by
    intro name rest rights size entries h
    obtain ⟨child, hchild, h⟩ := Node.exists_lookup_of_get? h
    rcases hentry name child hchild with ⟨rfl, rfl⟩ | ⟨rfl, rfl⟩ | ⟨rfl, rfl⟩
    · cases rest <;> cases h
    · rcases hinner rest _ h with rfl | ⟨-, h⟩
      · rfl
      · cases h
    · cases rest <;> cases h
  have hreadable : fs.Readable "lib" (.folder lib) := by
    intro place rights size entries h
    cases place with
    | nil => exact ⟨_, rfl⟩
    | cons name rest =>
      rw [hdirs name rest _ _ _ h]
      exact ⟨["B.class"], by decide +kernel⟩
  have hreadable' : fs'.Readable "lib" (.folder shuffled) := by
    intro place rights size entries h
    cases place with
    | nil => exact ⟨_, rfl⟩
    | cons name rest =>
      rw [Node.folder, Node.get?_of_perm hperm hnodup] at h
      rw [hdirs name rest _ _ _ h]
      exact ⟨["B.class"], by decide +kernel⟩
  have hplaces : (Node.folder lib).Finds [["a.class", "B.class"], ["b.class"]] := by
    refine ⟨fun place => ⟨fun h => ?_, fun h => ?_⟩, by decide +kernel⟩
    · fin_cases h
      · exact ⟨["a.class"], "B", 0, by decide, rfl, rfl⟩
      · exact ⟨[], "b", 1, by decide, rfl, rfl⟩
    · obtain ⟨name, rest, child, rfl, hchild⟩ := Node.exists_lookup_of_isClassFile h
      rcases hentry name child hchild with ⟨rfl, rfl⟩ | ⟨rfl, rfl⟩ | ⟨rfl, rfl⟩
      · rw [((Node.isClassFile_cons_of_file hchild).1 h).1]
        simp
      · obtain ⟨⟨number, hfile⟩, -⟩ :=
          Node.isClassFile_iff.1 ((Node.isClassFile_cons_of_dir hchild).1 h)
        rcases hinner rest _ hfile with rfl | ⟨rfl, -⟩
        · cases hfile
        · simp
      · exact absurd ((Node.isClassFile_cons_of_file hchild).1 h).2 (by decide)
  have hsame : ∀ place, (Node.folder shuffled).IsClassFile place ↔
      (Node.folder lib).IsClassFile place := Node.isClassFile_of_perm hperm hnodup
  obtain ⟨⟨places, hfinds, hfound⟩, -, -, -, -, hagain⟩ :=
    inputFiles_finds OnTree.id rfl hlib hreadable
  have hexact := hplaces.unique hfinds fun _ => Iff.rfl
  rw [hexact] at hfound
  exact ⟨rfl, hlib, hreadable, hfound.trans (by decide +kernel), rfl, hlib.of_perm hperm,
    hreadable', hsame, hagain fs' {} 4096 shuffled rfl (hlib.of_perm hperm) hreadable' hsame⟩

end ClassSketch.Command
