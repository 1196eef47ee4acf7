import ClassSketch.Proofs.Batch
import ClassSketch.Proofs.Windows
import Mathlib.Data.Stream.Init

namespace ClassSketch

open ClassFile Files

namespace Input

/-- The answers are all that the system may do: it is interrupted, or it copies bytes that are there
and for which there is room, and none only if there are none or there is no room. -/
theorem Answer.exists_count?_iff {space available : Nat} {count : Option Nat} :
    (∃ answer : Answer, answer.count? space available = count) ↔
      ∀ n, count = some n → n ≤ space ∧ n ≤ available ∧ (n = 0 → space = 0 ∨ available = 0) := by
  constructor
  · rintro ⟨answer, rfl⟩ n hn
    cases answer with
    | interrupted => cases hn
    | upTo extra =>
      cases hn
      omega
  · intro h
    cases count with
    | none => exact ⟨interrupted, rfl⟩
    | some n =>
      obtain ⟨hspace, havailable, hzero⟩ := h n rfl
      refine ⟨upTo (n - 1), congrArg some ?_⟩
      omega

/-- The system is not interrupted for ever. -/
def GoesOn (schedule : Stream' Answer) : Prop :=
  ∀ k, ∃ j, k ≤ j ∧ schedule.get j ≠ .interrupted

theorem GoesOn.tail {schedule : Stream' Answer} (h : GoesOn schedule) : GoesOn schedule.tail := by
  intro k
  obtain ⟨j, hj, hanswer⟩ := h (k + 1)
  cases j with
  | zero => cases hj
  | succ j => exact ⟨j, Nat.le_of_succ_le_succ hj, hanswer⟩

namespace Transfer

theorem run_of_full {t : Transfer} (h : t.free = []) (answers : List Answer) :
    t.run answers = some t := by
  rw [run.eq_def, if_pos h]

theorem run_cons {t : Transfer} (h : t.free ≠ []) (answer : Answer) (answers : List Answer) :
    t.run (answer :: answers) =
      match answer.count? t.free.length t.left.length with
      | none => t.run answers
      | some 0 => some t
      | some (n + 1) => (t.copy (n + 1)).run answers := by
  rw [run]
  exact if_neg h

def total (t : Transfer) : Nat := min t.free.length t.left.length

theorem copy_zero (t : Transfer) : t.copy 0 = t := by
  simp [copy]

theorem copy_copy (t : Transfer) (n m : Nat) : (t.copy n).copy m = t.copy (n + m) := by
  simp [copy, List.take_add]

theorem total_copy (t : Transfer) (n : Nat) : (t.copy n).total = t.total - n := by
  simp only [total, copy, List.length_drop]
  omega

/-- Whatever the pieces, all that can come has come in the end, and nothing else. -/
theorem eq_copy_of_run {t t' : Transfer} {answers : List Answer} (h : t.run answers = some t') :
    t' = t.copy t.total := by
  fun_induction run t answers with
  | case1 t answers hfull =>
    cases h
    rw [total, hfull, List.length_nil, Nat.zero_min, copy_zero]
  | case2 => cases h
  | case3 t hfree answer answers hcount ih => exact ih h
  | case4 t hfree answer answers hcount =>
    obtain ⟨-, -, hzero⟩ := Answer.exists_count?_iff.1 ⟨answer, hcount⟩ 0 rfl
    have hnone : t.total = 0 := by
      rw [total]
      omega
    cases h
    rw [hnone, copy_zero]
  | case5 t hfree answer answers n hcount ih =>
    obtain ⟨hspace, hleft, -⟩ := Answer.exists_count?_iff.1 ⟨answer, hcount⟩ (n + 1) rfl
    have hsome : n + 1 ≤ t.total := Nat.le_min.2 ⟨hspace, hleft⟩
    rw [ih h, copy_copy, total_copy, Nat.add_sub_cancel' hsome]

/-- The reading comes to an end. Each answer brings the next one closer that is not an interruption,
or leaves less of the buffer free, or is the last one. -/
theorem exists_run_of_get {schedule : Stream' Answer} (h : GoesOn schedule) (t : Transfer) (j : Nat)
    (hj : schedule.get j ≠ .interrupted) : ∃ k t', t.run (schedule.take k) = some t' := by
  by_cases hfull : t.free = []
  · exact ⟨0, t, run_of_full hfull _⟩
  have hstep (k : Nat) : t.run (schedule.take (k + 1)) =
      match schedule.head.count? t.free.length t.left.length with
      | none => t.run (schedule.tail.take k)
      | some 0 => some t
      | some (n + 1) => (t.copy (n + 1)).run (schedule.tail.take k) := by
    rw [Stream'.take_succ, run_cons hfull]
  cases hcount : schedule.head.count? t.free.length t.left.length with
  | none =>
    cases j with
    | zero =>
      have hhead : schedule.head ≠ .interrupted := hj
      cases hanswer : schedule.head with
      | interrupted => exact absurd hanswer hhead
      | upTo extra =>
        rw [hanswer] at hcount
        cases hcount
    | succ j =>
      obtain ⟨k, t', ht'⟩ := exists_run_of_get h.tail t j hj
      refine ⟨k + 1, t', ?_⟩
      rw [hstep, hcount]
      exact ht'
  | some n =>
    cases n with
    | zero => exact ⟨1, t, by rw [hstep, hcount]⟩
    | succ n =>
      obtain ⟨hfree, -⟩ := Answer.exists_count?_iff.1 ⟨_, hcount⟩ (n + 1) rfl
      have hless : (t.copy (n + 1)).free.length < t.free.length := by
        rw [copy, List.length_drop]
        omega
      obtain ⟨j', -, hj'⟩ := h.tail 0
      obtain ⟨k, t', ht'⟩ := exists_run_of_get h.tail (t.copy (n + 1)) j' hj'
      refine ⟨k + 1, t', ?_⟩
      rw [hstep, hcount]
      exact ht'
termination_by (t.free.length, j)

theorem exists_run {schedule : Stream' Answer} (h : GoesOn schedule) (t : Transfer) :
    ∃ k t', t.run (schedule.take k) = some t' := by
  obtain ⟨j, -, hj⟩ := h 0
  exact exists_run_of_get h t j hj

end Transfer

variable {σ : Type} [FileAccess (StateM σ)] {files : σ → FileSystem}

/-- On the files `fs`, both give `a`. The first leaves the files as they are, and the second does
not look at them. -/
def BothGive {α : Type} (files : σ → FileSystem) (fs : FileSystem) (x y : StateM σ α) (a : α) :
    Prop :=
  Reads files fs x a ∧ y = pure a

/-- Neither the bytes nor their number tell a file from a buffer in memory that holds `content`. A
read from a position gives the same with whatever answers it comes to an end. -/
structure ReadsLike (files : σ → FileSystem) (fs : FileSystem) (file memory : Input)
    (content : List UInt8) : Prop where
  size : BothGive files fs file.size memory.size (.ok content.length)
  isEmpty : BothGive files fs file.isEmpty memory.isEmpty (.ok content.isEmpty)
  readAll : BothGive files fs file.readAll memory.readAll (.ok content)
  view : BothGive files fs file.view memory.view (.ok content)
  readClass : BothGive files fs file.readClass memory.readClass (ClassFile.read content).run
  readAt : ∀ answers (pos : UInt64) (into : List UInt8), pos.toNat < 2 ^ 63 →
    let n := min into.length (content.length - pos.toNat)
    let result := (n, content.extract pos.toNat (pos.toNat + n) ++ into.drop n)
    memory.readAt answers pos into = (pure (some (.ok result)) : StateM σ _) ∧
      (Reads files fs (file.readAt answers pos into) none ∨
        Reads files fs (file.readAt answers pos into) (some (.ok result)))

theorem Transfer.result_of_run {content : List UInt8} {pos : UInt64} {into : List UInt8}
    {answers : List Answer} {t : Transfer} (h : (start content pos into).run answers = some t) :
    let n := min into.length (content.length - pos.toNat)
    t.result = (n, content.extract pos.toNat (pos.toNat + n) ++ into.drop n) := by
  intro n
  have htotal : (start content pos into).total = n := by
    rw [total, start, List.length_drop]
  rw [eq_copy_of_run h, htotal, List.extract_eq_take_drop, Nat.add_sub_cancel_left, result, copy,
    start]
  dsimp only
  rw [List.nil_append, List.length_take, List.length_drop]
  congr 1
  omega

theorem exists_number {fs : FileSystem} {path : String} {content : List UInt8}
    (h : fs.readFile path = .ok content) : ∃ number,
      fs.opened path = .ok (.file number) ∧ (fs.file number).content = content := by
  obtain ⟨n, hn, h⟩ := bind_eq_ok_iff.1 h
  cases n with
  | dir => cases h
  | file number => exact ⟨number, hn, Except.ok.inj h⟩

theorem reads_readAt (hσ : OnTree files) {fs : FileSystem} {path : String} {content : List UInt8}
    (h : fs.readFile path = .ok content) (answers : List Answer) {pos : UInt64}
    (hpos : pos.toNat < 2 ^ 63) (into : List UInt8) :
    Reads files fs ((Input.file path).readAt answers pos into)
      (((Transfer.start content pos into).run answers).map fun t => .ok t.result) := by
  have hopen := hσ.openFile fs path
  have hread := hσ.readFile fs path
  obtain ⟨number, hopened, -⟩ := exists_number h
  rw [FileSystem.openFile, hopened] at hopen
  rw [h] at hread
  refine hopen.bind ?_
  have hsmall : ¬ 0x8000000000000000 ≤ pos.toNat := by omega
  rw [if_neg hsmall]
  cases into with
  | nil =>
    rw [Transfer.run_of_full rfl]
    exact .pure _
  | cons b into => exact hread.bind (.pure _)

theorem readsLike_of_readFile (hσ : OnTree files) {fs : FileSystem} {path : String}
    {content : List UInt8} (h : fs.readFile path = .ok content) :
    ReadsLike files fs (.file path) (.memory (.whole content)) content := by
  obtain ⟨number, hopened, hcontent⟩ := exists_number h
  have hmemory : Serves (StateM σ) (.memory (.whole content)) content := by
    have hserves := Window.serves_bytes (StateM σ) (.whole content)
    rwa [Window.bytes_whole] at hserves
  have hread : Reads files fs (Input.file path).readAll (.ok content) := by
    have hread := hσ.readFile fs path
    rw [h] at hread
    exact hread.bind (.pure _)
  have hview : Reads files fs (Input.file path).view (.ok content) := by
    have hview := hσ.view fs path
    rw [FileSystem.viewAt, hopened] at hview
    rwa [← hcontent]
  have hsize : Reads files fs (Input.file path).size (.ok content.length) := by
    have hsize := hσ.size fs path
    rw [FileSystem.size, FileSystem.at?_of_opened hopened, ok_bind] at hsize
    rw [← hcontent]
    exact hsize.bind (.pure _)
  constructor
  case size => exact ⟨hsize, hmemory.size⟩
  case isEmpty =>
    have hisEmpty : content.isEmpty = decide (content.length = 0) := by cases content <;> rfl
    refine ⟨?_, hmemory.isEmpty⟩
    rw [hisEmpty]
    exact hsize.bind (.pure _)
  case readAll => exact ⟨hread, hmemory.readAll⟩
  case view => exact ⟨hview, hmemory.view⟩
  case readClass => exact ⟨hview.bind (.pure _), hmemory.readClass⟩
  case readAt =>
    intro answers pos into hpos n result
    have hreadAt := reads_readAt hσ h answers hpos into
    refine ⟨hmemory.readAt answers pos into, ?_⟩
    cases hrun : (Transfer.start content pos into).run answers with
    | none =>
      rw [hrun] at hreadAt
      exact .inl hreadAt
    | some t =>
      rw [hrun, Option.map_some, Transfer.result_of_run hrun] at hreadAt
      exact .inr hreadAt

/-- A file reads as a buffer in memory with its content does, however it is read. When it is read
from a position, the system is not asked for ever, and in the end the buffer holds what the system
has copied, with what was behind it before. -/
theorem file_reads_like_memory (hσ : OnTree files) {s : σ} {path : String} {content : List UInt8}
    (h : (files s).readFile path = .ok content) :
    let file := Input.file path
    let memory := Input.memory (.whole content)
    ReadsLike files (files s) file memory content ∧
      ∀ (schedule : Stream' Answer) (pos : UInt64) (into : List UInt8),
        GoesOn schedule → pos.toNat < 2 ^ 63 →
          let n := min into.length (content.length - pos.toNat)
          ∃ k, BothGive files (files s) (file.readAt (schedule.take k) pos into)
            (memory.readAt (schedule.take k) pos into)
            (some (.ok (n, content.extract pos.toNat (pos.toNat + n) ++ into.drop n))) := by
  intro file memory
  have hreads := readsLike_of_readFile hσ h
  refine ⟨hreads, fun schedule pos into hschedule hpos => ?_⟩
  obtain ⟨k, t, ht⟩ := Transfer.exists_run hschedule (Transfer.start content pos into)
  obtain ⟨hmemory, -⟩ := hreads.readAt (schedule.take k) pos into hpos
  have hfile := reads_readAt hσ h (schedule.take k) hpos into
  rw [ht, Option.map_some, Transfer.result_of_run ht] at hfile
  exact ⟨k, hfile, hmemory⟩

/-- A file that is read from its second byte on, one byte at a time with an interruption before
each, into a buffer in which two bytes are left over, and an empty file. -/
theorem file_reads_like_memory_piecewise :
    let fs : FileSystem := {
      root := .folder [("f", .file 0), ("empty", .file 1)]
      file := fun n => if n = 0 then { content := [1, 2, 3, 4, 5] } else {} }
    let schedule : Stream' Answer := fun k => if k % 2 = 0 then .interrupted else .upTo 0
    let memory : Input := .memory (.whole [1, 2, 3, 4, 5])
    let buffer : List UInt8 := [9, 9, 9, 9, 9, 9]
    fs.readFile "f" = .ok [1, 2, 3, 4, 5] ∧ fs.readFile "empty" = .ok [] ∧
      GoesOn schedule ∧ (1 : UInt64).toNat < 2 ^ 63 ∧
      ReadsLike id fs (.file "empty") (.memory (.whole [])) [] ∧
      ReadsLike id fs (.file "f") memory [1, 2, 3, 4, 5] ∧
      ((Input.file "f").readAt (schedule.take 2) 1 buffer : FileM _).run fs = (none, fs) ∧
      ∃ k, BothGive id fs ((Input.file "f").readAt (schedule.take k) 1 buffer)
        (memory.readAt (schedule.take k) 1 buffer) (some (.ok (4, [2, 3, 4, 5, 9, 9]))) := by
  intro fs schedule memory buffer
  have hfile : fs.readFile "f" = .ok [1, 2, 3, 4, 5] := by decide +kernel
  have hempty : fs.readFile "empty" = .ok [] := by decide +kernel
  have hschedule : GoesOn schedule := by
    intro k
    refine ⟨2 * k + 1, by omega, ?_⟩
    show (if (2 * k + 1) % 2 = 0 then Answer.interrupted else .upTo 0) ≠ _
    rw [if_neg (by omega)]
    exact Answer.noConfusion
  obtain ⟨hreads, hends⟩ := file_reads_like_memory (s := fs) OnTree.id hfile
  obtain ⟨hnothing, -⟩ := file_reads_like_memory (s := fs) OnTree.id hempty
  exact ⟨hfile, hempty, hschedule, by decide, hnothing, hreads, rfl,
    hends schedule 1 buffer hschedule (by decide)⟩

end Input

end ClassSketch
