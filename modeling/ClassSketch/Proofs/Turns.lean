import ClassSketch.Proofs.Batch
import ClassSketch.Proofs.OutputPaths

namespace ClassSketch

open ClassFile Files

variable {σ α β : Type} {files : σ → FileSystem}

def KeepsFiles (files : σ → FileSystem) (x : StateM σ α) : Prop :=
  ∀ s, (files s).Becomes [] (files (x.run s).2)

namespace KeepsFiles

theorem pure (a : α) : KeepsFiles files (Pure.pure a : StateM σ α) := fun _ => .refl _

theorem bind {x : StateM σ α} {f : α → StateM σ β} (hx : KeepsFiles files x)
    (hf : ∀ a, KeepsFiles files (f a)) : KeepsFiles files (x >>= f) :=
  fun s => (hx s).trans (hf _ _)

end KeepsFiles

variable [FileAccess (StateM σ)]

namespace Files.OnTree

end Files.OnTree

namespace Command

/-- The turn of one file, with the files that it finds. -/
structure Turn where
  path : String
  before : FileSystem
  report : Report

/-- The turn has read this class, and in `fs` the path of the class leads to this place. -/
structure Turn.AimsAt (dir : String) (fs : FileSystem) (t : Turn) (c : ClassDecl)
    (place : List String) : Prop where
  read : t.before.classAt t.path = .ok c
  leads : fs.root.locate (join dir (outputPath c.name)) = .ok place

/-- The turn has written the text of the class. -/
structure Turn.WroteTo (dir : String) (fs : FileSystem) (t : Turn) (c : ClassDecl)
    (place : List String) : Prop extends t.AimsAt dir fs c place where
  done : t.report.failed = false

/-- The system has refused to write the text of the class. -/
structure Turn.LeftAt (dir : String) (fs : FileSystem) (t : Turn) (c : ClassDecl)
    (place : List String) : Prop extends t.AimsAt dir fs c place where
  refused : ∃ e : OsError,
    t.report = .failure s!"Error writing {join dir (outputPath c.name)}: {e.message}\n"

inductive Turn.Failed (dir : String) (t : Turn) : Prop where
  | unread {e : ReadError} : t.before.classAt t.path = .error e →
      t.report = .failure (errorLine t.path e) → t.Failed dir
  | noParent {c : ClassDecl} {e : OsError} : t.before.classAt t.path = .ok c →
      t.report =
        .failure s!"Error creating {joinAll dir (outputDirs c.name)}: {e.message}\n" →
      t.Failed dir
  | refused {c : ClassDecl} {e : OsError} : t.before.classAt t.path = .ok c →
      t.report = .failure s!"Error writing {join dir (outputPath c.name)}: {e.message}\n" →
      t.Failed dir

theorem Turn.Failed.failed {dir : String} {t : Turn} (h : t.Failed dir) :
    t.report.failed = true := by
  cases h <;> rename_i hreport <;> rw [hreport] <;> rfl

/-- A turn has written the text of the class that it read, and nothing else, or has failed. A failed
one may have left a new file where the text should have come. -/
inductive Turn.Leaves (files : σ → FileSystem) (text : ClassDecl → String) (dir : String)
    (fs : FileSystem) (t : Turn) : List Write → Prop where
  | failed : t.Failed dir → t.Leaves files text dir fs []
  | left {c : ClassDecl} {w : Write} : ¬ FailsCleanly files → t.LeftAt dir fs c w.place →
      w.failed = true → t.Leaves files text dir fs [w]
  | wrote {c : ClassDecl} {w : Write} : t.WroteTo dir fs c w.place → w.failed = false →
      w.content = utf8Bytes (text c) → t.Leaves files text dir fs [w]

theorem Turn.AimsAt.below {dir : String} {fs : FileSystem} {t : Turn} {c : ClassDecl}
    {place : List String} (h : t.AimsAt dir fs c place) :
    ∃ base, fs.root.walk [] (segments dir) = .ok base ∧
      place = base ++ segments (outputPath c.name) :=
  below_of_locate h.leads

namespace Turn.Leaves

variable {text : ClassDecl → String} {dir : String} {fs fs' : FileSystem} {t : Turn}
  {writes : List Write}

theorem mono (h : t.Leaves files text dir fs writes) (hgrows : fs.root.Grows fs'.root) :
    t.Leaves files text dir fs' writes := by
  cases h with
  | failed hfailed => exact .failed hfailed
  | left hkept hleft hw => exact .left hkept { hleft with leads := hgrows.locate hleft.leads } hw
  | wrote hwrote hw hcontent =>
    exact .wrote { hwrote with leads := hgrows.locate hwrote.leads } hw hcontent

end Turn.Leaves

variable {text : ClassDecl → String}

def Outcome.behind (err : String) (outcome : Outcome) : Outcome :=
  { outcome with err := err ++ outcome.err }

end Command

end ClassSketch
