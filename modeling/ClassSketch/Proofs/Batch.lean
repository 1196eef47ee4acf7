import ClassSketch.Proofs.Printable
import ClassSketch.Proofs.TreeAccess

namespace ClassSketch

open ClassFile Files

namespace Files.FileSystem

/-- What there is to view of what a path leads to. Nothing is mapped of a directory. -/
def viewAt (fs : FileSystem) (path : String) : Except ReadError (List UInt8) :=
  match fs.opened path with
  | .error e => .error (.os e)
  | .ok (.file number) => .ok (fs.file number).content
  | .ok (.dir _ size _) => if size = 0 then .ok [] else .error (.os .noSuchDevice)

/-- The class in the file that a path leads to, or why there is none. -/
def classAt (fs : FileSystem) (path : String) : Except ReadError ClassDecl := do
  (ClassFile.read (← fs.viewAt path)).run.value

def accepted (fs : FileSystem) (files : List String) : List (String × ClassDecl) :=
  files.filterMap fun path =>
    match fs.classAt path with
    | .ok c => some (path, c)
    | .error _ => none

def rejected (fs : FileSystem) (files : List String) : List (String × ReadError) :=
  files.filterMap fun path =>
    match fs.classAt path with
    | .ok _ => none
    | .error e => some (path, e)

theorem accepted_cons (fs : FileSystem) (path : String) (files : List String) :
    fs.accepted (path :: files) =
      match fs.classAt path with
      | .ok c => (path, c) :: fs.accepted files
      | .error _ => fs.accepted files := by
  rw [accepted, List.filterMap_cons]
  cases fs.classAt path <;> rfl

theorem rejected_cons (fs : FileSystem) (path : String) (files : List String) :
    fs.rejected (path :: files) =
      match fs.classAt path with
      | .ok _ => fs.rejected files
      | .error e => (path, e) :: fs.rejected files := by
  rw [rejected, List.filterMap_cons]
  cases fs.classAt path <;> rfl

theorem accepted_append (fs : FileSystem) (files more : List String) :
    fs.accepted (files ++ more) = fs.accepted files ++ fs.accepted more :=
  List.filterMap_append

theorem rejected_append (fs : FileSystem) (files more : List String) :
    fs.rejected (files ++ more) = fs.rejected files ++ fs.rejected more :=
  List.filterMap_append

theorem at?_of_opened {fs : FileSystem} {path : String} {n : Node} (h : fs.opened path = .ok n) :
    fs.root.at? path = .ok n := by
  obtain ⟨n', hn', h⟩ := bind_eq_ok_iff.1 h
  cases hrefusal : fs.refusal n' with
  | some e =>
    rw [hrefusal] at h
    cases h
  | none =>
    rw [hrefusal] at h
    cases h
    exact hn'

end Files.FileSystem

variable {σ : Type} [FileAccess (StateM σ)] {files : σ → FileSystem}

namespace Files.OnTree

theorem view (hσ : OnTree files) (fs : FileSystem) (path : String) :
    Reads files fs (Input.file path).view (fs.viewAt path) := by
  have hopen := hσ.openFile fs path
  have hsize := hσ.size fs path
  have hmap := hσ.mapFile fs path
  rw [FileSystem.openFile] at hopen
  rw [FileSystem.mapFile] at hmap
  rw [FileSystem.viewAt]
  refine hopen.bind ?_
  cases hopened : fs.opened path with
  | error e => exact .pure _
  | ok n =>
    rw [FileSystem.size, FileSystem.at?_of_opened hopened] at hsize
    rw [hopened] at hmap
    refine hsize.bind ?_
    cases n with
    | file number =>
      dsimp only [ok_bind] at hmap ⊢
      cases hcontent : (fs.file number).content with
      | nil => exact .pure _
      | cons b bytes =>
        rw [hcontent] at hmap
        exact hmap.bind (.pure _)
    | dir rights size entries =>
      cases size with
      | zero => exact .pure _
      | succ size => exact hmap.bind (.pure _)

theorem readClass (hσ : OnTree files) (fs : FileSystem) (path : String) : ∃ x,
    Reads files fs (Input.file path).readClass x ∧ x.value = fs.classAt path := by
  have hview := hσ.view fs path
  rw [FileSystem.classAt]
  cases hat : fs.viewAt path with
  | ok content => exact ⟨_, (hat ▸ hview).bind (.pure _), rfl⟩
  | error e => exact ⟨_, (hat ▸ hview).bind (.pure _), rfl⟩

theorem found (hσ : OnTree files) (fs : FileSystem) (input : String) :
    Reads files fs (Command.inputFiles input) (fs.found input) := by
  refine (hσ.isDir fs input).bind ?_
  rw [FileSystem.found]
  split
  · exact hσ.search fs input
  · exact .pure _

theorem foundAll (hσ : OnTree files) (fs : FileSystem) (inputs : List String) :
    Reads files fs (inputs.mapM Command.inputFiles) (inputs.map fs.found) :=
  .mapM (hσ.found fs) inputs

end Files.OnTree

namespace Command

/-- The texts that `text` gives are those of the classes that were read. -/
def GivesTexts (text : ClassDecl → String) : Prop :=
  ∀ (fs : FileSystem) (path : String) (c : ClassDecl), fs.classAt path = .ok c →
    (Print.classText c).run.value = .ok (text c)

theorem exists_givesTexts : ∃ text, GivesTexts text := by
  refine ⟨fun c => (Print.classText c).run.value.toOption.getD "", fun fs path c h => ?_⟩
  obtain ⟨content, -, hread⟩ := bind_eq_ok_iff.1 h
  obtain ⟨text, htext⟩ := (hasValidDescriptors_of_read hread).prints.whole
  simp [htext, Except.toOption]

def batchPart (path text : String) : String :=
  "// ============================================\n" ++ "// " ++ path ++ "\n" ++ text ++ "\n"

def errorLine (path : String) (e : ReadError) : String :=
  "// Error reading " ++ path ++ ": " ++ e.message ++ "\n"

/-- The report on a file whose class, if it has one, is printed as `text` says. -/
def reportAt (text : ClassDecl → String) (single : Bool) (fs : FileSystem) (path : String) :
    Report :=
  match fs.classAt path with
  | .error e => .failure (errorLine path e)
  | .ok c => { out := framed single path (text c) }

/-- What the command comes to, once it is known which files it is about. -/
def outcomeOf (text : ClassDecl → String) (fs : FileSystem) (paths : List String) : Outcome :=
  if paths.isEmpty then .failure "Error: no .class files found\n"
  else summarize (paths.length = 1) (paths.map (reportAt text (paths.length = 1) fs))

section

variable {text : ClassDecl → String} (hσ : OnTree files) (ht : GivesTexts text)
include hσ ht

theorem reads_printFile (fs : FileSystem) (single : Bool) (path : String) :
    Reads files fs (printFile single none path) (reportAt text single fs path) := by
  obtain ⟨x, hread, hx⟩ := hσ.readClass fs path
  refine hread.bind ?_
  rw [hx, reportAt]
  cases hc : fs.classAt path with
  | error e => exact .pure _
  | ok c =>
    simp only [ht _ _ _ hc]
    exact .pure _

theorem reads_print (fs : FileSystem) (inputs : List String) :
    let found := Found.all (inputs.map fs.found)
    let outcome := outcomeOf text fs found.files
    Reads files fs (print inputs none) { outcome with err := found.err ++ outcome.err } := by
  intro found outcome
  have hfiles : Reads files fs (printFiles none found.files) outcome := by
    rw [printFiles]
    cases hpaths : found.files with
    | nil =>
      have houtcome : outcome = outcomeOf text fs [] := congrArg (outcomeOf text fs) hpaths
      rw [houtcome]
      exact .pure _
    | cons path paths =>
      have houtcome : outcome = outcomeOf text fs (path :: paths) :=
        congrArg (outcomeOf text fs) hpaths
      rw [houtcome]
      exact Reads.bind (.mapM (reads_printFile hσ ht fs _) _) (.pure _)
  exact (hσ.foundAll fs inputs).bind (hfiles.bind (.pure _))

end

theorem join_out_reportAt (text : ClassDecl → String) (fs : FileSystem) (paths : List String) :
    String.join (paths.map fun path => (reportAt text false fs path).out) =
      String.join ((fs.accepted paths).map fun p => batchPart p.1 (text p.2)) := by
  induction paths with
  | nil => rfl
  | cons path paths ih =>
    rw [List.map_cons, String.join_cons, ih, FileSystem.accepted_cons, reportAt]
    cases fs.classAt path with
    | error e => exact String.empty_append
    | ok c =>
      dsimp only
      rw [List.map_cons, String.join_cons]
      rfl

theorem join_err_reportAt (text : ClassDecl → String) (single : Bool) (fs : FileSystem)
    (paths : List String) :
    String.join (paths.map fun path => (reportAt text single fs path).err) =
      String.join ((fs.rejected paths).map fun p => errorLine p.1 p.2) := by
  induction paths with
  | nil => rfl
  | cons path paths ih =>
    rw [List.map_cons, String.join_cons, ih, FileSystem.rejected_cons, reportAt]
    cases fs.classAt path with
    | error e =>
      dsimp only
      rw [List.map_cons, String.join_cons]
      rfl
    | ok c => exact String.empty_append

theorem outcomeOf_several (text : ClassDecl → String) (fs : FileSystem) {paths : List String}
    (h : 2 ≤ paths.length) : outcomeOf text fs paths = {
      status := 0
      out := String.join ((fs.accepted paths).map fun p => batchPart p.1 (text p.2))
      err := String.join ((fs.rejected paths).map fun p => errorLine p.1 p.2) } := by
  have hempty : ¬ paths.isEmpty = true := by
    rw [List.isEmpty_iff]
    rintro rfl
    exact absurd h (by decide)
  have hsingle : decide (paths.length = 1) = false := decide_eq_false (by omega)
  rw [outcomeOf, if_neg hempty, hsingle, summarize, List.map_map, List.map_map]
  congr 1
  · exact join_out_reportAt text fs paths
  · exact join_err_reportAt text false fs paths

theorem outcomeOf_single (text : ClassDecl → String) (fs : FileSystem) (path : String) :
    outcomeOf text fs [path] =
      let report := reportAt text true fs path
      { status := if report.failed then 1 else 0, out := report.out, err := report.err } := by
  simp [outcomeOf, summarize, String.join]

/-- What the command prints, by the number of files. -/
theorem print_several (hσ : OnTree files) {text : ClassDecl → String} (ht : GivesTexts text) (s : σ)
    {inputs : List String} {found : Found} (hfound : Found.all (inputs.map (files s).found) = found)
    (h : 2 ≤ found.files.length) : ((print inputs none : StateM σ Outcome).run s).1 = {
      status := 0
      out := String.join (((files s).accepted found.files).map fun p => batchPart p.1 (text p.2))
      err := found.err ++
        String.join (((files s).rejected found.files).map fun p => errorLine p.1 p.2) } := by
  rw [(reads_print hσ ht (files s) inputs).fst_run, hfound, outcomeOf_several text _ h]

theorem print_one (hσ : OnTree files) {text : ClassDecl → String} (ht : GivesTexts text) (s : σ)
    {inputs : List String} {found : Found} (hfound : Found.all (inputs.map (files s).found) = found)
    {path : String} (hfiles : found.files = [path]) :
    ((print inputs none : StateM σ Outcome).run s).1 =
      let report := reportAt text true (files s) path
      { status := if report.failed then 1 else 0
        out := report.out
        err := found.err ++ report.err } := by
  rw [(reads_print hσ ht (files s) inputs).fst_run, hfound, hfiles, outcomeOf_single]

theorem print_none (hσ : OnTree files) {text : ClassDecl → String} (ht : GivesTexts text) (s : σ)
    {inputs : List String} {found : Found} (hfound : Found.all (inputs.map (files s).found) = found)
    (hfiles : found.files = []) :
    let outcome := ((print inputs none : StateM σ Outcome).run s).1
    outcome.out = "" ∧ outcome.status = 1 := by
  rw [(reads_print hσ ht (files s) inputs).fst_run, hfound, hfiles]
  exact ⟨rfl, rfl⟩

/-- Of several files, those that hold a class are printed in their order and the others are
reported in their order, and that is no failure. A single file decides alone, and without files the
command fails. Before that only directories are reported that cannot be listed. Where there are none
of these, what two lists of several files come to is put together from what each comes to. -/
theorem print_isolates_failures (hσ : OnTree files) : ∃ text, GivesTexts text ∧
    ∀ (s : σ) (inputs : List String),
      let fs := files s
      let found := Found.all (inputs.map fs.found)
      let outcome := ((print inputs none : StateM σ Outcome).run s).1
      (fs.Listable → found.err = "") ∧
      (2 ≤ found.files.length → outcome = {
        status := 0
        out := String.join ((fs.accepted found.files).map fun p => batchPart p.1 (text p.2))
        err := found.err ++
          String.join ((fs.rejected found.files).map fun p => errorLine p.1 p.2) }) ∧
      (∀ path, found.files = [path] →
        (∀ c, fs.classAt path = .ok c →
          outcome = { status := 0, out := text c, err := found.err }) ∧
        ∀ e, fs.classAt path = .error e →
          outcome = { status := 1, out := "", err := found.err ++ errorLine path e }) ∧
      (found.files = [] → outcome.out = "" ∧ outcome.status = 1) ∧
      ∀ more,
        let foundMore := Found.all (more.map fs.found)
        let second := ((print more none : StateM σ Outcome).run s).1
        let both := ((print (inputs ++ more) none : StateM σ Outcome).run s).1
        2 ≤ found.files.length → 2 ≤ foundMore.files.length →
          both.out = outcome.out ++ second.out ∧
            (foundMore.err = "" → both.err = outcome.err ++ second.err) := by
  obtain ⟨text, ht⟩ := exists_givesTexts
  refine ⟨text, ht, fun s inputs => ?_⟩
  intro fs found outcome
  refine ⟨fun hlistable => hlistable.err_found inputs, print_several hσ ht s rfl,
    fun path hfiles => ?_, print_none hσ ht s rfl, ?_⟩
  · have hone : outcome = _ := print_one hσ ht s rfl hfiles
    constructor
    · intro c hc
      rw [hone, reportAt, hc]
      simp [framed, found, fs]
    · intro e he
      rw [hone, reportAt, he]
      simp [Report.failure, found, fs]
  · intro more foundMore second both hfiles hmore
    have hall : Found.all ((inputs ++ more).map fs.found) =
        ⟨found.files ++ foundMore.files, found.err ++ foundMore.err⟩ := by
      rw [List.map_append, Found.all_append]
    have hlength : 2 ≤ (found.files ++ foundMore.files).length := by
      rw [List.length_append]
      exact Nat.le_add_right_of_le hfiles
    have hboth : both = _ := print_several hσ ht s hall hlength
    have hfirst : outcome = _ := print_several hσ ht s rfl hfiles
    have hsecond : second = _ := print_several hσ ht s rfl hmore
    rw [hboth, hfirst, hsecond]
    dsimp only
    rw [FileSystem.accepted_append, FileSystem.rejected_append, List.map_append, List.map_append,
      String.join_append, String.join_append]
    refine ⟨rfl, fun herr => ?_⟩
    rw [herr]
    simp only [String.append_empty, String.empty_append, String.append_assoc]
    rfl

/-- A file that is cut off, a class found in a directory, a directory that cannot be listed, and a
file that is missing. -/
theorem print_isolates_failures_mixed :
    let data : List UInt8 := [0xCA, 0xFE, 0xBA, 0xBE, 0, 0, 0, 52, 0, 3, 1, 0, 1, 66, 7, 0, 1,
      0, 0, 0, 2, 0, 0, 0, 0, 0, 0, 0, 0, 0, 0]
    let fs : FileSystem := {
      root := .folder [("cut.class", .file 0),
        ("lib", .folder [("B.class", .file 1), ("note.txt", .file 1)]),
        ("locked", .dir { listing := some (.other 13 "Permission denied") } 4096 [])]
      file := fun n => if n = 0 then { content := data.take 20 } else { content := data } }
    let c : ClassDecl := { name := "B", access := 0, superName := none }
    OnTree (id : FileSystem → FileSystem) ∧ ∃ text, GivesTexts text ∧
      ((print ["cut.class", "lib", "locked", "none.class"] none : FileM Outcome).run fs).1 = {
        status := 0
        out := batchPart "lib/B.class" (text c)
        err := "Error reading directory locked: Permission denied (os error 13)\n" ++
          (errorLine "cut.class" (.truncated 19 1) ++
            errorLine "none.class" (.os .notFound)) } := by
  intro data fs c
  obtain ⟨text, ht, hprint⟩ := print_isolates_failures OnTree.id
  have hnames : ["B.class", "note.txt"].mergeSort byBytes = ["B.class", "note.txt"] :=
    List.mergeSort_of_pairwise (by decide +kernel)
  have hlib : fs.found "lib" = { files := ["lib/B.class"] } := by
    have hlisted : fs.readDir "lib" = .ok ["B.class", "note.txt"] := rfl
    rw [FileSystem.found, if_pos (by decide +kernel), FileSystem.search, hlisted]
    dsimp only
    rw [hnames]
    decide +kernel
  have hlocked : fs.found "locked" =
      { err := "Error reading directory locked: Permission denied (os error 13)\n" } := by
    rw [FileSystem.found, if_pos (by decide +kernel), FileSystem.search]
    decide +kernel
  have hfound : Found.all (["cut.class", "lib", "locked", "none.class"].map fs.found) =
      { files := ["cut.class", "lib/B.class", "none.class"]
        err := "Error reading directory locked: Permission denied (os error 13)\n" } := by
    have hcut : fs.found "cut.class" = { files := ["cut.class"] } := rfl
    have hnone : fs.found "none.class" = { files := ["none.class"] } := rfl
    simp [hcut, hlib, hlocked, hnone, Found.all, String.join]
  have haccepted : fs.accepted ["cut.class", "lib/B.class", "none.class"] =
      [("lib/B.class", c)] := by decide +kernel
  have hrejected : fs.rejected ["cut.class", "lib/B.class", "none.class"] =
      [("cut.class", .truncated 19 1), ("none.class", .os .notFound)] := by decide +kernel
  obtain ⟨-, hseveral, -⟩ := hprint fs ["cut.class", "lib", "locked", "none.class"]
  dsimp only [id] at hseveral
  rw [hfound, haccepted, hrejected] at hseveral
  exact ⟨OnTree.id, text, ht, hseveral (by decide)⟩

end Command

end ClassSketch
