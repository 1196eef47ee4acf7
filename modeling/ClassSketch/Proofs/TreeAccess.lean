import ClassSketch.Files.Search
import ClassSketch.Proofs.Writes

namespace ClassSketch.Files

section

variable {σ : Type} {α β : Type}

theorem run_bind_of_run {x : StateM σ α} {s s' : σ} {a : α} (h : x.run s = (a, s'))
    (f : α → StateM σ β) : (x >>= f).run s = (f a).run s' := by
  rw [StateT.run_bind, h]
  rfl

/-- Where the system has the files `fs`, as `files` shows them, `a` comes out and they are left as
they are. -/
def Reads (files : σ → FileSystem) (fs : FileSystem) (x : StateM σ α) (a : α) : Prop :=
  ∀ s, files s = fs → ∃ s', x.run s = (a, s') ∧ files s' = fs

namespace Reads

variable {files : σ → FileSystem} {fs : FileSystem}

protected theorem pure (a : α) : Reads files fs (Pure.pure a) a := fun s hs => ⟨s, rfl, hs⟩

protected theorem bind {x : StateM σ α} {a : α} {y : α → StateM σ β} {b : β}
    (hx : Reads files fs x a) (hy : Reads files fs (y a) b) : Reads files fs (x >>= y) b := by
  intro s hs
  obtain ⟨s₁, hrun, h₁⟩ := hx s hs
  rw [run_bind_of_run hrun]
  exact hy s₁ h₁

protected theorem mapM {y : α → StateM σ β} {f : α → β} (hy : ∀ a, Reads files fs (y a) (f a))
    (l : List α) : Reads files fs (l.mapM y) (l.map f) := by
  induction l with
  | nil => exact .pure []
  | cons a l ih =>
    rw [List.mapM_cons]
    exact (hy a).bind (ih.bind (.pure _))

theorem fst_run {x : StateM σ α} {a : α} {s : σ} (h : Reads files (files s) x a) :
    (x.run s).1 = a := by
  obtain ⟨s', hrun, -⟩ := h s rfl
  rw [hrun]

theorem files_run {x : StateM σ α} {a : α} {s : σ} (h : Reads files (files s) x a) :
    files (x.run s).2 = files s := by
  obtain ⟨s', hrun, hs'⟩ := h s rfl
  rw [hrun, hs']

end Reads

end

/-- A system with these files. What is read is true. A directory may be made or not, and a file that
is written has the content given for it. If that fails, the files that were there are as before, but
there may be a new one. -/
structure OnTree {σ : Type} [FileAccess (StateM σ)] (files : σ → FileSystem) : Prop where
  isDir (fs : FileSystem) (path : String) :
    Reads files fs (FileAccess.isDir path) (fs.isDir path)
  readDir (fs : FileSystem) (path : String) :
    Reads files fs (FileAccess.readDir path) (fs.readDir path)
  openFile (fs : FileSystem) (path : String) :
    Reads files fs (FileAccess.openFile path) (fs.openFile path)
  size (fs : FileSystem) (path : String) : Reads files fs (FileAccess.size path) (fs.size path)
  readFile (fs : FileSystem) (path : String) :
    Reads files fs (FileAccess.readFile path) (fs.readFile path)
  mapFile (fs : FileSystem) (path : String) :
    Reads files fs (FileAccess.mapFile path) (fs.mapFile path)
  createDir (path : String) (s : σ) :
    (files s).Becomes [] (files ((FileAccess.createDir path : StateM σ _).run s).2)
  writeFile (path text : String) (s : σ) : ∃ result s',
    (FileAccess.writeFile path text : StateM σ _).run s = (result, s') ∧
      (result = .ok () ∧ (∃ place number,
          (files s).Becomes [⟨place, number, utf8Bytes text, false⟩] (files s') ∧
            (files s').root.locate path = .ok place) ∨
        (∃ e, result = .error e) ∧ ((files s).Becomes [] (files s') ∨ ∃ place number content,
          (files s).Becomes [⟨place, number, content, true⟩] (files s') ∧
            (files s').root.locate path = .ok place))

/-- A write that fails leaves no new file either. -/
def FailsCleanly {σ : Type} [FileAccess (StateM σ)] (files : σ → FileSystem) : Prop :=
  ∀ (path text : String) (s s' : σ) (e : OsError),
    (FileAccess.writeFile path text : StateM σ _).run s = (.error e, s') →
      (files s).Becomes [] (files s')

theorem reads_get {α : Type} (f : FileSystem → α) (fs : FileSystem) :
    Reads id fs (return f (← get)) (f fs) := by
  rintro s rfl
  exact ⟨s, rfl, rfl⟩

theorem OnTree.id : OnTree (id : FileSystem → FileSystem) where
  isDir fs path := reads_get (·.isDir path) fs
  readDir fs path := reads_get (·.readDir path) fs
  openFile fs path := reads_get (·.openFile path) fs
  size fs path := reads_get (·.size path) fs
  readFile fs path := reads_get (·.readFile path) fs
  mapFile fs path := reads_get (·.mapFile path) fs
  createDir path fs := by
    show fs.Becomes [] (fs.orUnchanged (fs.createDir path)).2
    cases h : fs.createDir path with
    | error e => exact .refl fs
    | ok new => exact FileSystem.becomes_of_createDir h
  writeFile path text fs := by
    show ∃ result s', fs.orUnchanged (fs.writeFile path (utf8Bytes text)) = (result, s') ∧ _
    cases h : fs.writeFile path (utf8Bytes text) with
    | error e => exact ⟨_, _, rfl, .inr ⟨⟨e, rfl⟩, .inl (.refl fs)⟩⟩
    | ok new => exact ⟨_, _, rfl, .inl ⟨rfl, FileSystem.becomes_of_writeFile h⟩⟩

theorem FailsCleanly.id : FailsCleanly (id : FileSystem → FileSystem) := by
  intro path text fs fs' e (h : fs.orUnchanged (fs.writeFile path (utf8Bytes text)) = _)
  cases hwrite : fs.writeFile path (utf8Bytes text) with
  | error e' =>
    rw [hwrite] at h
    cases h
    exact .refl _
  | ok new =>
    rw [hwrite] at h
    cases h

/-- What a search in a directory comes to. -/
def FileSystem.search (fs : FileSystem) (dir : String) : Found :=
  match fs.readDir dir with
  | .error e => { err := s!"Error reading directory {dir}: {e.message}\n" }
  | .ok names => .all <| (names.mergeSort byBytes).map fun name =>
    if fs.isDir (join dir name) ∧ dir.utf8ByteSize < (join dir name).utf8ByteSize ∧
        (join dir name).utf8ByteSize < maxPath then fs.search (join dir name)
    else if hasClassExtension name then { files := [join dir name] }
    else {}
termination_by maxPath - dir.utf8ByteSize
decreasing_by
  rename_i h
  exact Nat.sub_lt_sub_left (Nat.lt_trans h.2.1 h.2.2) h.2.1

theorem Found.all_append (found more : List Found) :
    Found.all (found ++ more) =
      ⟨(Found.all found).files ++ (Found.all more).files,
        (Found.all found).err ++ (Found.all more).err⟩ := by
  simp [Found.all, String.join_append]

def FileSystem.found (fs : FileSystem) (input : String) : Found :=
  if fs.isDir input then fs.search input else { files := [input] }

theorem Found.err_all {found : List Found} (h : ∀ f ∈ found, f.err = "") :
    (Found.all found).err = "" := by
  induction found with
  | nil => rfl
  | cons f found ih =>
    rw [← List.singleton_append, Found.all_append, ih fun g hg => h g (by simp [hg])]
    simp [Found.all, String.join, h f (by simp)]

/-- All directories that are found can be listed. -/
def FileSystem.Listable (fs : FileSystem) : Prop :=
  ∀ dir, fs.isDir dir = true → ∃ names, fs.readDir dir = .ok names

theorem FileSystem.Listable.err_search {fs : FileSystem} (h : fs.Listable) {dir : String}
    (hdir : fs.isDir dir = true) : (fs.search dir).err = "" := by
  obtain ⟨names, hnames⟩ := h dir hdir
  rw [FileSystem.search, hnames]
  refine Found.err_all fun f hf => ?_
  obtain ⟨name, -, rfl⟩ := List.mem_map.1 hf
  split
  · rename_i hsearch
    exact h.err_search hsearch.1
  · split <;> rfl
termination_by maxPath - dir.utf8ByteSize
decreasing_by
  rename_i h
  exact Nat.sub_lt_sub_left (Nat.lt_trans h.2.1 h.2.2) h.2.1

theorem FileSystem.Listable.err_found {fs : FileSystem} (h : fs.Listable) (inputs : List String) :
    (Found.all (inputs.map fs.found)).err = "" := by
  refine Found.err_all fun f hf => ?_
  obtain ⟨input, -, rfl⟩ := List.mem_map.1 hf
  rw [FileSystem.found]
  split
  · rename_i hdir
    exact h.err_search hdir
  · rfl

namespace OnTree

variable {σ : Type} [FileAccess (StateM σ)] {files : σ → FileSystem}

theorem search (hσ : OnTree files) (fs : FileSystem) (dir : String) :
    Reads files fs (Files.search dir) (fs.search dir) := by
  rw [Files.search, FileSystem.search]
  refine (hσ.readDir fs dir).bind ?_
  cases fs.readDir dir with
  | error e => exact .pure _
  | ok names =>
    refine Reads.bind (.mapM (fun name => ?_) _) (.pure _)
    refine (hσ.isDir fs (join dir name)).bind ?_
    split
    · exact hσ.search fs (join dir name)
    · split <;> exact .pure _
termination_by maxPath - dir.utf8ByteSize
decreasing_by
  rename_i h
  exact Nat.sub_lt_sub_left (Nat.lt_trans h.2.1 h.2.2) h.2.1

end OnTree

end ClassSketch.Files
