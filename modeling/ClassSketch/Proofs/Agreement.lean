import ClassSketch.Command.Info
import ClassSketch.Proofs.Batch
import ClassSketch.Proofs.Truncation

namespace ClassSketch

open ClassFile Files

namespace Text

theorem toList_hexPadded_succ {width : Nat} (hwidth : 0 < width) (n : Nat) :
    (hexPadded (width + 1) n).toList =
      (hexPadded width (n / 16)).toList ++ [(n % 16).digitChar] := by
  obtain ⟨width, rfl⟩ := Nat.exists_eq_add_one.2 hwidth
  rw [hexPadded, hexPadded, String.toList_ofList, String.toList_ofList]
  obtain hlt | hle := Nat.lt_or_ge n 16
  · rw [Nat.toDigits_of_lt_base hlt, Nat.div_eq_of_lt hlt, Nat.mod_eq_of_lt hlt, Nat.toDigits_zero]
    show List.replicate (width + 1) '0' ++ _ = List.replicate width '0' ++ ['0'] ++ _
    rw [List.replicate_succ']
  · rw [Nat.toDigits_of_base_le (by decide) hle, List.length_append, List.length_singleton,
      Nat.add_sub_add_right, List.append_assoc]

theorem toList_hexPadded_four {n : Nat} (h : n < 65536) : (hexPadded 4 n).toList =
    [(n / 4096).digitChar, (n / 256 % 16).digitChar, (n / 16 % 16).digitChar,
      (n % 16).digitChar] := by
  have hfirst : (hexPadded 1 (n / 4096)).toList = [(n / 4096).digitChar] := by
    rw [hexPadded, Nat.toDigits_of_lt_base (by omega)]
    exact String.toList_ofList
  rw [toList_hexPadded_succ (by decide), toList_hexPadded_succ (by decide),
    toList_hexPadded_succ (by decide), Nat.div_div_eq_div_mul, Nat.div_div_eq_div_mul, hfirst,
    Nat.div_div_eq_div_mul]
  rfl

end Text

namespace ClassFile

/-- The version where the header has it. -/
def versionIn (bytes : List UInt8) : Version where
  major := .ofNat (bigEndian (bytes.extract 6 8))
  minor := .ofNat (bigEndian (bytes.extract 4 6))

theorem value_read_of_peekVersion_error {bytes : List UInt8} {e : ReadError}
    (h : peekVersion bytes = .error e) : (read bytes).run.value = .error e := by
  rw [value_read, h]
  rfl

theorem bigEndian_u16 (n : UInt16) : bigEndian (u16 n) = n.toNat :=
  bigEndian_digits n.toNat_lt

theorem peekVersion_of_value_read {bytes : List UInt8} {c : ClassDecl}
    (h : (read bytes).run.value = .ok c) : peekVersion bytes = .ok (versionIn bytes) := by
  rw [value_read] at h
  obtain ⟨version, hversion, -⟩ := bind_eq_ok_iff.1 h
  obtain ⟨-, rest, hbytes⟩ := peekVersion_eq_ok_iff.1 hversion
  have hmajor : bytes.extract 6 8 = u16 version.major := by
    rw [hbytes]
    rfl
  have hminor : bytes.extract 4 6 = u16 version.minor := by
    rw [hbytes]
    rfl
  rw [hversion, versionIn, hmajor, hminor, bigEndian_u16, bigEndian_u16, UInt16.ofNat_toNat,
    UInt16.ofNat_toNat]

theorem toNat_ofNat_bigEndian {bytes : List UInt8} (h : bytes.length ≤ 2) :
    (UInt16.ofNat (bigEndian bytes)).toNat = bigEndian bytes :=
  UInt16.toNat_ofNat_of_lt' ((bigEndian_lt bytes).trans_le (Nat.pow_le_pow_right (by decide) h))

theorem toString_versionIn (bytes : List UInt8) : toString (versionIn bytes) =
    s!"{bigEndian (bytes.extract 6 8)}.{bigEndian (bytes.extract 4 6)}" := by
  have hle : ∀ i, (bytes.extract i (i + 2)).length ≤ 2 := by
    intro i
    rw [List.extract_eq_take_drop, List.length_take, Nat.add_sub_cancel_left]
    exact Nat.min_le_left ..
  show s!"{(versionIn bytes).major.toNat}.{(versionIn bytes).minor.toNat}" = _
  rw [versionIn, toNat_ofNat_bigEndian (hle 6), toNat_ofNat_bigEndian (hle 4)]

end ClassFile

namespace Command

theorem readVersioned_of_error {bytes : List UInt8} {e : ReadError}
    (h : (ClassFile.read bytes).run.value = .error e) : readVersioned bytes = .error e := by
  rw [readVersioned]
  cases hversion : peekVersion bytes with
  | error e' =>
    rw [value_read_of_peekVersion_error hversion] at h
    cases h
    rfl
  | ok version =>
    rw [ok_bind, h]
    rfl

theorem readVersioned_of_ok {bytes : List UInt8} {c : ClassDecl}
    (h : (ClassFile.read bytes).run.value = .ok c) :
    readVersioned bytes = .ok (versionIn bytes, c) := by
  rw [readVersioned, peekVersion_of_value_read h, ok_bind, h]
  rfl

def accessDigits (access : UInt16) : String :=
  let n := access.toNat
  "0x" ++ String.ofList [(n / 4096).digitChar, (n / 256 % 16).digitChar, (n / 16 % 16).digitChar,
    (n % 16).digitChar]

theorem accessText_eq (access : UInt16) : accessText access = accessDigits access := by
  apply String.toList_injective
  simp only [accessText, accessDigits, String.toList_append, String.toList_ofList,
    Text.toList_hexPadded_four access.toNat_lt]

/-- The lines that tell of the class `c` in `bytes`. -/
def summaryLines (bytes : List UInt8) (c : ClassDecl) : List String :=
  ["=== Class Info ===",
    s!"Version:     {bigEndian (bytes.extract 6 8)}.{bigEndian (bytes.extract 4 6)}",
    "Name:        " ++ c.name,
    "Kind:        " ++ (Access.ClassForm.ofAccess c.access).keyword,
    "Access:      " ++ accessDigits c.access,
    "Super:       " ++ c.superName.getD "(none)"] ++
  (if c.interfaces = [] then [] else ["Interfaces:  " ++ ", ".intercalate c.interfaces]) ++
  s!"Fields:      {c.fields.length}" ::
    (c.fields.map fun f =>
      "    " ++ accessDigits f.access ++ "  " ++ f.name ++ " " ++ f.descriptor) ++
  s!"Methods:     {c.methods.length}" ::
    (c.methods.map fun m =>
      "    " ++ accessDigits m.access ++ "  " ++ m.name ++ m.descriptor)

def inLines (lines : List String) : String := String.join (lines.map (· ++ "\n"))

theorem inLines_cons (line : String) (lines : List String) :
    inLines (line :: lines) = line ++ "\n" ++ inLines lines := by
  rw [inLines, List.map_cons, String.join_cons]
  rfl

theorem inLines_append (lines more : List String) :
    inLines (lines ++ more) = inLines lines ++ inLines more := by
  rw [inLines, List.map_append, String.join_append]
  rfl

theorem inLines_map {α : Type} (line : α → String) (l : List α) :
    inLines (l.map line) = String.join (l.map fun a => line a ++ "\n") := by
  rw [inLines, List.map_map]
  rfl

theorem summary_eq (bytes : List UInt8) (c : ClassDecl) :
    summary (versionIn bytes) c = inLines (summaryLines bytes c) := by
  have hinterfaces : inLines (if c.interfaces = [] then []
        else ["Interfaces:  " ++ ", ".intercalate c.interfaces]) =
      if c.interfaces.isEmpty then ""
        else "Interfaces:  " ++ ", ".intercalate c.interfaces ++ "\n" := by
    by_cases h : c.interfaces = [] <;> simp [h, inLines]
  have htitle : "=== Class Info ===\n" = "=== Class Info ===" ++ "\n" := rfl
  have hnil : inLines [] = "" := rfl
  unfold summary summaryLines
  extract_lets form superName interfaces field method
  have hfield : field = fun f =>
      "    " ++ accessDigits f.access ++ "  " ++ f.name ++ " " ++ f.descriptor ++ "\n" := by
    funext f
    rw [← accessText_eq]
    rfl
  have hmethod : method = fun m =>
      "    " ++ accessDigits m.access ++ "  " ++ m.name ++ m.descriptor ++ "\n" := by
    funext m
    rw [← accessText_eq]
    rfl
  simp only [inLines_append, inLines_cons, inLines_map, hnil]
  rw [hinterfaces, hfield, hmethod, toString_versionIn, accessText_eq, htitle]
  simp only [String.append_empty, String.append_assoc]
  rfl

/-- What the three commands come to on one file. -/
structure Outcomes where
  summary : Outcome
  yaml : Outcome
  print : Outcome

/-- All commands refuse the file at `path`, for one reason. -/
structure AllRefuse (outcomes : Outcomes) (path : String) (e : ReadError) : Prop where
  summary : outcomes.summary = { status := 1, out := "", err := "Error: " ++ e.message ++ "\n" }
  yaml : outcomes.yaml = { status := 1, out := "", err := "Error: " ++ e.message ++ "\n" }
  print : outcomes.print =
    { status := 1, out := "", err := "// Error reading " ++ path ++ ": " ++ e.message ++ "\n" }

/-- All commands describe the class `c`, which `bytes` hold. -/
structure AllDescribe (serialize : ClassDecl → Except String String) (outcomes : Outcomes)
    (bytes : List UInt8) (c : ClassDecl) : Prop where
  summary : outcomes.summary = { status := 0, out := inLines (summaryLines bytes c), err := "" }
  yaml : ∃ text, serialize c = .ok text ∧ outcomes.yaml = { status := 0, out := text, err := "" }
  print : ∃ text, (Print.classText c).run.value = .ok text ∧
    outcomes.print = { status := 0, out := text, err := "" }

variable {σ : Type} [FileAccess (StateM σ)] {files : σ → FileSystem}

theorem viewAt_of_not_isDir {fs : FileSystem} {path : String} (h : fs.isDir path = false) :
    fs.viewAt path = (fs.readFile path).mapError .os := by
  rw [FileSystem.viewAt, FileSystem.readFile]
  cases hopened : fs.opened path with
  | error e => rfl
  | ok n =>
    cases n with
    | file number => rfl
    | dir rights size entries =>
      rw [FileSystem.isDir, FileSystem.at?_of_opened hopened] at h
      cases h

theorem reads_info (hσ : OnTree files) (serialize : ClassDecl → Except String String)
    (fs : FileSystem) (path : String) (yaml : Bool) :
    Reads files fs (info serialize path yaml)
      (describe serialize yaml ((fs.viewAt path).bind readVersioned)) :=
  (hσ.view fs path).bind (.pure _)

theorem reads_print_single (hσ : OnTree files) {text : ClassDecl → String} (ht : GivesTexts text)
    {fs : FileSystem} {path : String} (h : fs.isDir path = false) :
    let report := reportAt text true fs path
    Reads files fs (print [path] none)
      { status := if report.failed then 1 else 0, out := report.out, err := report.err } := by
  have hprint := reads_print hσ ht fs [path]
  have hfound : Found.all ([path].map fs.found) = { files := [path] } := by
    rw [List.map_singleton, FileSystem.found, h]
    rfl
  simp only [hfound, outcomeOf_single, String.empty_append] at hprint
  exact hprint

def outcomesOn (serialize : ClassDecl → Except String String) (path : String) (s : σ) :
    Outcomes where
  summary := ((info serialize path false : StateM σ Outcome).run s).1
  yaml := ((info serialize path true : StateM σ Outcome).run s).1
  print := ((print [path] none : StateM σ Outcome).run s).1

section

variable (hσ : OnTree files) {s : σ} {path : String} (hpath : (files s).isDir path = false)
  (serialize : ClassDecl → Except String String)
include hσ hpath

theorem allRefuse {e : ReadError} (he : (files s).classAt path = .error e) :
    AllRefuse (outcomesOn serialize path s) path e := by
  obtain ⟨text, ht⟩ := exists_givesTexts
  have hread : ((files s).viewAt path).bind readVersioned = .error e := by
    rcases bind_eq_error_iff.1 he with hview | ⟨bytes, hview, hbytes⟩
    · rw [hview]
      rfl
    · rw [hview]
      exact readVersioned_of_error hbytes
  have hinfo := fun yaml => (reads_info hσ serialize (files s) path yaml).fst_run
  have hprint := (reads_print_single hσ ht hpath).fst_run
  rw [hread] at hinfo
  rw [reportAt, he] at hprint
  exact ⟨hinfo false, hinfo true, hprint⟩

theorem allDescribe (hserialize : ∀ c, ∃ text, serialize c = .ok text) {bytes : List UInt8}
    {c : ClassDecl} (hview : (files s).viewAt path = .ok bytes)
    (hc : (ClassFile.read bytes).run.value = .ok c) :
    AllDescribe serialize (outcomesOn serialize path s) bytes c := by
  obtain ⟨text, ht⟩ := exists_givesTexts
  obtain ⟨written, hwritten⟩ := hserialize c
  have hclass : (files s).classAt path = .ok c := by
    rw [FileSystem.classAt, hview]
    exact hc
  have hread : ((files s).viewAt path).bind readVersioned = .ok (versionIn bytes, c) := by
    rw [hview]
    exact readVersioned_of_ok hc
  have hinfo := fun yaml => (reads_info hσ serialize (files s) path yaml).fst_run
  have hprint := (reads_print_single hσ ht hpath).fst_run
  rw [hread] at hinfo
  rw [reportAt, hclass] at hprint
  constructor
  case summary =>
    rw [← summary_eq]
    exact hinfo false
  case yaml =>
    refine ⟨written, hwritten, (hinfo true).trans ?_⟩
    simp only [describe, hwritten, if_true]
  case print => exact ⟨text c, ht _ path c hclass, hprint⟩

theorem files_of_commands :
    (∀ yaml, files ((info serialize path yaml : StateM σ Outcome).run s).2 = files s) ∧
      files ((print [path] none : StateM σ Outcome).run s).2 = files s := by
  obtain ⟨text, ht⟩ := exists_givesTexts
  exact ⟨fun yaml => (reads_info hσ serialize (files s) path yaml).files_run,
    (reads_print_single hσ ht hpath).files_run⟩

end

/-- Where there is no directory, either all commands refuse the file for one reason, or they all
describe the class in its bytes. None of them changes a file. Whatever keeps the version from being
read keeps the class from being read as well. -/
theorem commands_agree (hσ : OnTree files) (serialize : ClassDecl → Except String String)
    (hserialize : ∀ c, ∃ text, serialize c = .ok text) (s : σ) (path : String)
    (h : (files s).isDir path = false) :
    let outcomes := outcomesOn serialize path s
    (match (files s).readFile path with
      | .error e => AllRefuse outcomes path (.os e)
      | .ok bytes =>
        match (ClassFile.read bytes).run.value with
        | .error e => AllRefuse outcomes path e
        | .ok c => AllDescribe serialize outcomes bytes c) ∧
      (∀ yaml, files ((info serialize path yaml : StateM σ Outcome).run s).2 = files s) ∧
      files ((print [path] none : StateM σ Outcome).run s).2 = files s ∧
      ∀ bytes e, peekVersion bytes = .error e → (ClassFile.read bytes).run.value = .error e := by
  intro outcomes
  have hview := viewAt_of_not_isDir h
  obtain ⟨hinfo, hprint⟩ := files_of_commands hσ h serialize
  refine ⟨?_, hinfo, hprint, fun bytes e => value_read_of_peekVersion_error⟩
  cases hfile : (files s).readFile path with
  | error e =>
    rw [hfile] at hview
    refine allRefuse hσ h serialize ?_
    rw [FileSystem.classAt, hview]
    rfl
  | ok bytes =>
    rw [hfile] at hview
    dsimp only
    cases hread : (ClassFile.read bytes).run.value with
    | error e =>
      refine allRefuse hσ h serialize ?_
      rw [FileSystem.classAt, hview]
      exact hread
    | ok c => exact allDescribe hσ h serialize hserialize hview hread

/-- A class, a file that is cut off, and a file that is missing. -/
theorem commands_agree_cut :
    let data : List UInt8 := [0xCA, 0xFE, 0xBA, 0xBE, 0, 1, 0, 52, 0, 3, 1, 0, 1, 66, 7, 0, 1,
      0, 0, 0, 2, 0, 0, 0, 0, 0, 0, 0, 0, 0, 0]
    let fs : FileSystem := {
      root := .folder [("B.class", .file 0), ("cut.class", .file 1)]
      file := fun n => if n = 0 then { content := data } else { content := data.take 20 } }
    let serialize (c : ClassDecl) : Except String String := .ok <|
      s!"name: {c.name}\naccess: {c.access}\nsuper_name: " ++ c.superName.getD "null" ++
        "\ninterfaces: []\nfields: []\nmethods: []\n"
    OnTree (id : FileSystem → FileSystem) ∧
      AllDescribe serialize (outcomesOn serialize "B.class" fs) data
        { name := "B", access := 0, superName := none } ∧
      AllRefuse (outcomesOn serialize "cut.class" fs) "cut.class" (.truncated 19 1) ∧
      AllRefuse (outcomesOn serialize "none.class" fs) "none.class" (.os .notFound) := by
  intro data fs serialize
  have hserialize : ∀ c, ∃ text, serialize c = .ok text := fun c => ⟨_, rfl⟩
  obtain ⟨hclass, -⟩ := commands_agree OnTree.id serialize hserialize fs "B.class" rfl
  obtain ⟨hcut, -⟩ := commands_agree OnTree.id serialize hserialize fs "cut.class" rfl
  obtain ⟨hnone, -⟩ := commands_agree OnTree.id serialize hserialize fs "none.class" rfl
  have hdata : (id fs).readFile "B.class" = .ok data := by decide +kernel
  have hshort : (id fs).readFile "cut.class" = .ok (data.take 20) := by decide +kernel
  have hmissing : (id fs).readFile "none.class" = .error .notFound := by decide +kernel
  have hread : (ClassFile.read data).run.value =
      .ok { name := "B", access := 0, superName := none } := by decide +kernel
  have htruncated : (ClassFile.read (data.take 20)).run.value = .error (.truncated 19 1) := by
    decide +kernel
  simp only [hdata, hread] at hclass
  simp only [hshort, htruncated] at hcut
  simp only [hmissing] at hnone
  exact ⟨OnTree.id, hclass, hcut, hnone⟩

end Command

end ClassSketch
