import ClassSketch.Input.Basic
import Mathlib.Algebra.Ring.Nat

namespace ClassSketch

open ClassFile Files

namespace Input

/-- However the input is read, it gives `content`, or the part of it that is asked for. -/
structure Serves (m : Type → Type) [Monad m] [FileAccess m] (input : Input)
    (content : List UInt8) : Prop where
  readAll : input.readAll = (pure (.ok content) : m _)
  view : input.view = (pure (.ok content) : m _)
  size : input.size = (pure (.ok content.length) : m _)
  isEmpty : input.isEmpty = (pure (.ok content.isEmpty) : m _)
  readClass : input.readClass = (pure (ClassFile.read content).run : m _)
  readAt : ∀ answers (pos : UInt64) (into : List UInt8),
    let n := min into.length (content.length - pos.toNat)
    input.readAt answers pos into =
      (pure (some (.ok (n, content.extract pos.toNat (pos.toNat + n) ++ into.drop n))) : m _)
  /-- Each piece begins where the sizes of those before it add up to. -/
  stream : ∀ sizes : List Nat, ∃ pieces, input.stream sizes = (pure (.ok pieces) : m _) ∧
    ∀ k : Nat, pieces[k]? = sizes[k]?.map fun size =>
      content.extract (sizes.take k).sum ((sizes.take k).sum + size)

structure Alike (i j : Input) : Prop where
  path : i.path? = j.path?
  readAll {m : Type → Type} [Monad m] [FileAccess m] : (i.readAll : m _) = j.readAll
  view {m : Type → Type} [Monad m] [FileAccess m] : (i.view : m _) = j.view
  size {m : Type → Type} [Monad m] [FileAccess m] : (i.size : m _) = j.size
  isEmpty {m : Type → Type} [Monad m] [FileAccess m] : (i.isEmpty : m _) = j.isEmpty
  readClass {m : Type → Type} [Monad m] [FileAccess m] : (i.readClass : m _) = j.readClass
  readAt {m : Type → Type} [Monad m] [FileAccess m] :
    ∀ answers pos into, (i.readAt answers pos into : m _) = j.readAt answers pos into
  stream {m : Type → Type} [Monad m] [FileAccess m] :
    ∀ sizes, (i.stream sizes : m _) = j.stream sizes

theorem getElem?_chunks (content : List UInt8) (sizes : List Nat) (k : Nat) :
    (chunks content sizes)[k]? = sizes[k]?.map fun size =>
      content.extract (sizes.take k).sum ((sizes.take k).sum + size) := by
  induction sizes generalizing content k with
  | nil => rfl
  | cons size sizes ih =>
    cases k with
    | zero => simp [chunks]
    | succ k => simp [chunks, ih, List.drop_drop]

namespace Window

theorem length_bytes (w : Window) : w.bytes.length = w.length := by
  have hinside := w.inside
  rw [bytes, List.length_take, List.length_drop]
  omega

theorem bytes_whole (content : List UInt8) : (whole content).bytes = content := by
  simp [whole, bytes]

theorem readAt_eq (w : Window) (pos : UInt64) (into : List UInt8) :
    let n := min into.length (w.bytes.length - pos.toNat)
    w.readAt pos into = (n, w.bytes.extract pos.toNat (pos.toNat + n) ++ into.drop n) := by
  intro n
  have hn : n = min into.length (w.length - pos.toNat) := by rw [← length_bytes]
  have hextract : w.bytes.extract pos.toNat (pos.toNat + n) =
      (w.buffer.drop (w.offset + pos.toNat)).take n := by
    rw [List.extract_eq_take_drop, Nat.add_sub_cancel_left, bytes, List.drop_take, List.take_take,
      List.drop_drop, Nat.min_eq_left (by omega)]
  rw [hextract, readAt, ← hn]
  split
  · rename_i h
    have hzero : n = 0 := by omega
    simp [hzero]
  · rfl

theorem serves_bytes (m : Type → Type) [Monad m] [LawfulMonad m] [FileAccess m] (w : Window) :
    Serves m (.memory w) w.bytes where
  readAll := rfl
  view := rfl
  size := by rw [length_bytes]; rfl
  isEmpty := by
    rw [Input.isEmpty, Input.size, pure_bind, ← length_bytes]
    cases w.bytes <;> rfl
  readClass := by rw [Input.readClass, Input.view, pure_bind]
  readAt _ pos into := congrArg (fun r => pure (some (Except.ok r))) (w.readAt_eq pos into)
  stream sizes := by
    refine ⟨chunks w.bytes sizes, ?_, getElem?_chunks w.bytes sizes⟩
    rw [Input.stream, Input.readAll, pure_bind]
    rfl

theorem alike_of_bytes_eq {w w' : Window} (h : w.bytes = w'.bytes) :
    Alike (.memory w) (.memory w') := by
  have hlength : w.length = w'.length := by rw [← length_bytes, ← length_bytes, h]
  have hreadAt : w.readAt = w'.readAt := by
    funext pos into
    rw [readAt_eq, readAt_eq, h]
  constructor
  case path => rfl
  all_goals intros
  case readAll => rw [Input.readAll, Input.readAll, h]
  case view => rw [Input.view, Input.view, h]
  case size => rw [Input.size, Input.size, hlength]
  case isEmpty => rw [Input.isEmpty, Input.isEmpty, Input.size, Input.size, hlength]
  case readClass => rw [Input.readClass, Input.readClass, Input.view, Input.view, h]
  case readAt => rw [Input.readAt, Input.readAt, hreadAt]
  case stream => rw [Input.stream, Input.stream, Input.readAll, Input.readAll, h]

theorem ofRange_of_le {buffer : List UInt8} {offset length : UInt64}
    (hbuffer : buffer.length < UInt64.size)
    (h : offset.toNat + length.toNat ≤ buffer.length) :
    ofRange buffer offset length = .ok ⟨buffer, offset.toNat, length.toNat, h⟩ := by
  rw [ofRange, if_neg (by omega), dif_pos h]

theorem ofRange_of_lt {buffer : List UInt8} {offset length : UInt64}
    (h : buffer.length < offset.toNat + length.toNat) :
    ofRange buffer offset length = .error (.rangeOutOfBounds offset.toNat
      (min (offset.toNat + length.toNat) (UInt64.size - 1)) buffer.length) := by
  rw [ofRange]
  split
  · rename_i hsize
    rw [Nat.min_eq_right (by omega)]
  · rename_i hsize
    rw [dif_neg (by omega), Nat.min_eq_left (by omega)]

theorem bytes_of_ofRange {buffer : List UInt8} {offset length : UInt64} {w : Window}
    (h : ofRange buffer offset length = .ok w) :
    w.bytes = buffer.extract offset.toNat (offset.toNat + length.toNat) := by
  rw [ofRange] at h
  split at h
  · cases h
  · split at h
    · cases h
      rw [List.extract_eq_take_drop, Nat.add_sub_cancel_left, bytes]
    · cases h

theorem extract_congr {buffer other : List UInt8} {start stop : Nat}
    (h : ∀ i, start ≤ i → i < stop → other[i]? = buffer[i]?) :
    other.extract start stop = buffer.extract start stop := by
  apply List.ext_getElem?
  intro i
  by_cases hi : i < stop - start
  · simp [List.getElem?_take_of_lt hi, h (start + i) (by omega) (by omega)]
  · simp [List.getElem?_take_eq_none (Nat.not_lt.1 hi)]

/-- A range is a window just when it lies in the buffer. The window then stands for a buffer of its
own that holds the bytes of the range, and nothing in front of them or behind them matters. -/
theorem ofRange_private_copy {buffer : List UInt8} (hbuffer : buffer.length < UInt64.size)
    (offset length : UInt64) :
    (offset.toNat + length.toNat ≤ buffer.length →
      let content := buffer.extract offset.toNat (offset.toNat + length.toNat)
      ∃ w, ofRange buffer offset length = .ok w ∧
        Alike (.memory w) (.memory (whole content)) ∧
        (∀ (m : Type → Type) [Monad m] [LawfulMonad m] [FileAccess m],
          Serves m (.memory w) content) ∧
        ∀ other w', ofRange other offset length = .ok w' →
          (∀ i, offset.toNat ≤ i → i < offset.toNat + length.toNat → other[i]? = buffer[i]?) →
          Alike (.memory w') (.memory w)) ∧
    (buffer.length < offset.toNat + length.toNat →
      ofRange buffer offset length = .error (.rangeOutOfBounds offset.toNat
        (min (offset.toNat + length.toNat) (UInt64.size - 1)) buffer.length)) := by
  refine ⟨fun h => ?_, ofRange_of_lt⟩
  intro content
  obtain ⟨w, hw⟩ : ∃ w, ofRange buffer offset length = .ok w := ⟨_, ofRange_of_le hbuffer h⟩
  have hbytes : w.bytes = content := bytes_of_ofRange hw
  refine ⟨w, hw, ?_, ?_, ?_⟩
  · exact alike_of_bytes_eq (hbytes.trans (bytes_whole content).symm)
  · intro m _ _ _
    rw [← hbytes]
    exact serves_bytes m w
  · intro other w' hw' hsame
    apply alike_of_bytes_eq
    rw [bytes_of_ofRange hw', extract_congr hsame, bytes_of_ofRange hw]

/-- A window at the end of its buffer, an empty one behind the last byte, and ranges that leave the
buffer by one byte and by more than 64 bits can count. -/
theorem ofRange_private_copy_edges :
    let buffer : List UInt8 := [10, 11, 12, 13]
    buffer.length < UInt64.size ∧
    (∃ w, ofRange buffer 2 2 = .ok w ∧ Serves FileM (.memory w) [12, 13]) ∧
    (∃ w, ofRange buffer 4 0 = .ok w ∧ Alike (.memory w) (.memory (whole []))) ∧
    ofRange buffer 2 3 = .error (.rangeOutOfBounds 2 5 4) ∧
    ofRange buffer 0xFFFFFFFFFFFFFFFF 2 =
      .error (.rangeOutOfBounds 0xFFFFFFFFFFFFFFFF 0xFFFFFFFFFFFFFFFF 4) := by
  intro buffer
  have hbuffer : buffer.length < UInt64.size := by decide
  obtain ⟨w, hw, -, hserves, -⟩ := (ofRange_private_copy hbuffer 2 2).1 (by decide)
  obtain ⟨w', hw', halike, -, -⟩ := (ofRange_private_copy hbuffer 4 0).1 (by decide)
  exact ⟨hbuffer, ⟨w, hw, hserves FileM⟩, ⟨w', hw', halike⟩,
    (ofRange_private_copy hbuffer 2 3).2 (by decide),
    (ofRange_private_copy hbuffer 0xFFFFFFFFFFFFFFFF 2).2 (by decide)⟩

end Window

end Input

end ClassSketch
