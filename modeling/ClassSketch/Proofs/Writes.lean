import ClassSketch.Proofs.Places

namespace ClassSketch.Files

/-- A file written at a place. One whose writing fails is a new file, with whatever has come to
it. -/
structure Write where
  place : List String
  number : Nat
  content : List UInt8
  failed : Bool

/-- What a file holds after several writes, if it held `old` before them. -/
def overwritten (writes : List Write) (number : Nat) (old : Option (List UInt8)) :
    Option (List UInt8) :=
  writes.foldl (fun now w => if w.number = number then some w.content else now) old

theorem overwritten_append (writes more : List Write) (number : Nat) (old : Option (List UInt8)) :
    overwritten (writes ++ more) number old =
      overwritten more number (overwritten writes number old) :=
  List.foldl_append

theorem overwritten_of_not_mem {writes : List Write} {number : Nat}
    (h : ∀ w ∈ writes, w.number ≠ number) (old : Option (List UInt8)) :
    overwritten writes number old = old := by
  induction writes with
  | nil => rfl
  | cons w writes ih =>
    rw [overwritten, List.foldl_cons, if_neg (h w (by simp))]
    exact ih fun w' hw' => h w' (by simp [hw'])

namespace FileSystem

/-- What a file holds, if there is one at the place. -/
def content? (fs : FileSystem) (place : List String) : Option (List UInt8) :=
  match fs.root.kindAt? place with
  | some (.file number) => some (fs.file number).content
  | _ => none

/-- One file has both places. -/
def Linked (fs : FileSystem) (p q : List String) : Prop :=
  ∃ number, fs.root.kindAt? p = some (.file number) ∧ fs.root.kindAt? q = some (.file number)

theorem content?_of_file {fs : FileSystem} {place : List String} {number : Nat}
    (h : fs.root.kindAt? place = some (.file number)) :
    fs.content? place = some (fs.file number).content := by
  rw [content?, h]

theorem content?_of_none {fs : FileSystem} {place : List String}
    (h : fs.root.kindAt? place = none) : fs.content? place = none := by
  rw [content?, h]

/-- `fs` becomes `fs'` by these writes, one after the other. Directories may be added, and what is
there stays and keeps its rights. A write to a file that is there has not failed, and a new file has
one place. -/
structure Becomes (fs : FileSystem) (writes : List Write) (fs' : FileSystem) : Prop where
  grows : fs.root.Grows fs'.root
  opening (place : List String) (number : Nat) : fs.root.kindAt? place = some (.file number) →
    (fs'.file number).opening = (fs.file number).opening
  content (place : List String) (number : Nat) : fs'.root.kindAt? place = some (.file number) →
    fs'.content? place = overwritten writes number (fs.content? place)
  written : ∀ w ∈ writes, fs'.root.kindAt? w.place = some (.file w.number)
  linked (p q : List String) : fs'.Linked p q → p = q ∨ fs.Linked p q
  new : ∀ w ∈ writes, w.failed → fs.root.kindAt? w.place = none
  first : writes.Pairwise fun w w' => w'.failed → w.number ≠ w'.number

namespace Becomes

variable {fs fs' fs'' : FileSystem} {writes more : List Write}

theorem refl (fs : FileSystem) : Becomes fs [] fs where
  grows := .refl _
  opening _ _ _ := rfl
  content _ _ _ := rfl
  written := by simp
  linked _ _ := .inr
  new := by simp
  first := .nil

/-- A new file has a number that no file had before. -/
theorem number_ne (h : Becomes fs writes fs') {p q : List String} {m n : Nat}
    (hp : fs.root.kindAt? p = some (.file m)) (hq : fs.root.kindAt? q = none)
    (hnew : fs'.root.kindAt? q = some (.file n)) : m ≠ n := by
  rintro rfl
  rcases h.linked p q ⟨m, h.grows p _ hp, hnew⟩ with rfl | ⟨_, -, hq'⟩
  · cases hp.symm.trans hq
  · cases hq'.symm.trans hq

theorem trans (h : Becomes fs writes fs') (h' : Becomes fs' more fs'') :
    Becomes fs (writes ++ more) fs'' where
  grows := h.grows.trans h'.grows
  opening place number hfile := by
    rw [h'.opening place number (h.grows place _ hfile), h.opening place number hfile]
  content place number hfile := by
    rw [h'.content place number hfile, overwritten_append]
    cases hkind : fs'.root.kindAt? place with
    | some kind =>
      cases (h'.grows place kind hkind).symm.trans hfile
      rw [h.content place number hkind]
    | none =>
      -- no write so far was to the file that is new at the place
      have hother : ∀ w ∈ writes, w.number ≠ number :=
        fun w hw => h'.number_ne (h.written w hw) hkind hfile
      rw [content?_of_none hkind, content?_of_none (h.grows.eq_none hkind),
        overwritten_of_not_mem hother]
  written w hw := by
    rcases List.mem_append.1 hw with hw | hw
    · exact h'.grows _ _ (h.written w hw)
    · exact h'.written w hw
  linked p q hlinked := by
    rcases h'.linked p q hlinked with heq | hlinked
    · exact .inl heq
    · exact h.linked p q hlinked
  new w hw hfailed := by
    rcases List.mem_append.1 hw with hw | hw
    · exact h.new w hw hfailed
    · exact h.grows.eq_none (h'.new w hw hfailed)
  first := by
    refine List.pairwise_append.2 ⟨h.first, h'.first, fun w hw w' hw' hfailed => ?_⟩
    exact h'.number_ne (h.written w hw) (h'.new w' hw' hfailed) (h'.written w' hw')

end Becomes

theorem becomes_set_folder {fs : FileSystem} {here : List String} {name : String} {rights : Rights}
    (hdir : fs.root.kindAt? here = some (.dir rights))
    (hnone : fs.root.kindAt? (here ++ [name]) = none) :
    Becomes fs [] { fs with root := fs.root.set (here ++ [name]) (.folder []) } := by
  have hset := Node.kindAt?_set (.folder []) hdir hnone fun _ _ => rfl
  have hfile : ∀ place number,
      (fs.root.set (here ++ [name]) (.folder [])).kindAt? place = some (.file number) →
        fs.root.kindAt? place = some (.file number) := by
    intro place number hplace
    rw [hset] at hplace
    split at hplace
    · cases hplace
    · exact hplace
  constructor
  case grows => exact Node.grows_set hdir hnone fun _ _ => rfl
  case opening => exact fun _ _ _ => rfl
  case content =>
    intro place number hplace
    rw [content?_of_file hplace, content?_of_file (hfile place number hplace)]
    rfl
  case written => simp
  case linked =>
    rintro p q ⟨number, hp, hq⟩
    exact .inr ⟨number, hfile p number hp, hfile q number hq⟩
  case new => simp
  case first => exact .nil

theorem becomes_of_createDir {fs fs' : FileSystem} {path : String}
    (h : fs.createDir path = .ok fs') : Becomes fs [] fs' := by
  rw [createDir] at h
  split at h
  · cases h
  · split at h
    · cases h
    · dsimp only at h
      split at h
      · cases h
      · split at h
        · obtain ⟨_, -, h⟩ := bind_eq_ok_iff.1 h
          cases h
        · obtain ⟨⟨place, old⟩, hplace, h⟩ := bind_eq_ok_iff.1 h
          obtain ⟨here, rights, -, hdir, -, -, rfl, hold⟩ := Node.newPlace_eq_ok hplace
          cases old with
          | some => cases h
          | none =>
            cases h
            exact becomes_set_folder hdir (by rw [Node.kindAt?, ← hold]; rfl)

theorem becomes_setContent {fs : FileSystem} {place : List String} {number : Nat}
    (hplace : fs.root.kindAt? place = some (.file number)) (content : List UInt8) :
    Becomes fs [⟨place, number, content, false⟩] (fs.setContent number content) := by
  constructor
  case grows => exact .refl _
  case opening =>
    intro _ number' _
    rw [setContent]
    dsimp only
    split <;> rfl
  case content =>
    intro place' number' hplace'
    have hbefore : fs.root.kindAt? place' = some (.file number') := hplace'
    rw [content?_of_file hplace', content?_of_file hbefore, setContent]
    by_cases hnumber : number' = number
    · simp [hnumber, overwritten]
    · simp [hnumber, overwritten, Ne.symm hnumber]
  case written => simpa [setContent] using hplace
  case linked => exact fun p q => .inr
  case new => simp
  case first => exact List.pairwise_singleton ..

theorem becomes_addFile {fs : FileSystem} {here : List String} {name : String} {rights : Rights}
    (hdir : fs.root.kindAt? here = some (.dir rights))
    (hnone : fs.root.kindAt? (here ++ [name]) = none) (content : List UInt8) (failed : Bool) :
    Becomes fs [⟨here ++ [name], fs.root.bound, content, failed⟩]
      (fs.addFile (here ++ [name]) content) := by
  have hset := Node.kindAt?_set (.file fs.root.bound) hdir hnone fun _ _ => rfl
  have hold : ∀ place number, fs.root.kindAt? place = some (.file number) →
      number ≠ fs.root.bound := fun place number hplace => Nat.ne_of_lt (Node.lt_bound hplace)
  constructor
  case grows => exact Node.grows_set hdir hnone fun _ _ => rfl
  case opening =>
    intro place number hplace
    rw [addFile]
    dsimp only
    rw [if_neg (hold place number hplace)]
  case content =>
    intro place number hplace
    rw [content?_of_file hplace, addFile]
    rw [addFile, hset] at hplace
    dsimp only
    split at hplace
    · cases hplace
      simp [overwritten]
    · have hne := hold place number hplace
      rw [if_neg hne, content?_of_file hplace, overwritten_of_not_mem (by simpa using hne.symm)]
  case written =>
    intro w hw
    rw [List.mem_singleton.1 hw, addFile, hset, if_pos rfl]
    rfl
  case linked =>
    rintro p q ⟨number, hp, hq⟩
    rw [addFile, hset] at hp hq
    split at hp <;> split at hq
    · rename_i hp' hq'
      exact .inl (hp'.trans hq'.symm)
    · cases hp
      exact absurd rfl (hold q _ hq)
    · cases hq
      exact absurd rfl (hold p _ hp)
    · exact .inr ⟨number, hp, hq⟩
  case new => simpa using fun _ => hnone
  case first => exact List.pairwise_singleton ..

/-- The path is that of `name` in a directory where names are looked up. -/
structure Names (fs : FileSystem) (path : String) (here : List String) (name : String) : Prop where
  nonempty : path ≠ ""
  short : path.utf8ByteSize < maxPath
  isName : Node.IsName name
  shortName : name.utf8ByteSize ≤ maxName
  walk : ∃ parents, segments path = parents ++ [name] ∧ fs.root.walk [] parents = .ok here
  isDir : ∃ rights, fs.root.kindAt? here = some (.dir rights) ∧ rights.entering = none

theorem Names.locate {fs fs' : FileSystem} {path name : String} {here : List String}
    (h : fs.Names path here name) (hgrows : fs.root.Grows fs'.root)
    (hsome : (fs'.root.kindAt? (here ++ [name])).isSome) :
    fs'.root.locate path = .ok (here ++ [name]) := by
  obtain ⟨parents, hpath, hhere⟩ := h.walk
  obtain ⟨rights, hdir, hentering⟩ := h.isDir
  have henter : fs'.root.enter here name = .ok (here ++ [name]) :=
    (Node.enter_eq_ok_iff h.isName).2
      ⟨⟨rights, hgrows here _ hdir, hentering⟩, h.shortName, rfl, hsome⟩
  refine Node.locate_eq_ok_iff.2 ⟨h.nonempty, h.short, ?_⟩
  rw [hpath, Node.walk_append, hgrows.walk hhere, ok_bind, Node.walk_cons, henter]
  rfl

theorem writeFile_eq_ok {fs fs' : FileSystem} {path : String} {content : List UInt8}
    (h : fs.writeFile path content = .ok fs') : ∃ here name, fs.Names path here name ∧
      (fs.root.kindAt? (here ++ [name]) = none ∧ fs' = fs.addFile (here ++ [name]) content ∨
        ∃ number, fs.root.kindAt? (here ++ [name]) = some (.file number) ∧
          fs' = fs.setContent number content) := by
  rw [writeFile] at h
  split at h
  · cases h
  · rename_i hne
    split at h
    · cases h
    · rename_i hlong
      dsimp only at h
      split at h
      · cases h
      · rename_i hname
        obtain ⟨⟨place, old⟩, hplace, h⟩ := bind_eq_ok_iff.1 h
        obtain ⟨here, rights, hhere, hdir, hentering, hshort, rfl, hold⟩ :=
          Node.newPlace_eq_ok hplace
        have hnames : fs.Names path here ((segments path).getLast?.getD "") :=
          { nonempty := by simpa using hne
            short := Nat.not_le.1 hlong
            isName := by simpa [Node.IsName, not_or] using hname
            shortName := hshort
            walk := ⟨_, segments_eq_concat path, hhere⟩
            isDir := ⟨rights, hdir, hentering⟩ }
        refine ⟨here, _, hnames, ?_⟩
        rw [Node.kindAt?, ← hold]
        cases old with
        | none =>
          cases h
          exact .inl ⟨rfl, rfl⟩
        | some n =>
          cases n with
          | dir => cases h
          | file number =>
            cases h
            exact .inr ⟨number, rfl, rfl⟩

theorem becomes_of_writeFile {fs fs' : FileSystem} {path : String} {content : List UInt8}
    (h : fs.writeFile path content = .ok fs') : ∃ place number,
      Becomes fs [⟨place, number, content, false⟩] fs' ∧ fs'.root.locate path = .ok place := by
  obtain ⟨here, name, hnames, hwrite⟩ := writeFile_eq_ok h
  obtain ⟨rights, hdir, -⟩ := hnames.isDir
  have hbecomes : ∃ number, Becomes fs [⟨here ++ [name], number, content, false⟩] fs' := by
    rcases hwrite with ⟨hnone, rfl⟩ | ⟨number, hfile, rfl⟩
    · exact ⟨_, becomes_addFile hdir hnone content false⟩
    · exact ⟨number, becomes_setContent hfile content⟩
  obtain ⟨number, hbecomes⟩ := hbecomes
  refine ⟨_, number, hbecomes, hnames.locate hbecomes.grows ?_⟩
  rw [hbecomes.written _ (List.mem_singleton_self _)]
  rfl

end FileSystem

end ClassSketch.Files
