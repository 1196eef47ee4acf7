import ClassSketch.Files.Tree
import ClassSketch.Proofs.DescriptorCompletion
import Mathlib.Data.String.Basic

namespace ClassSketch.Descriptor

open Files (utf8Bytes)

variable {d : String} {i : Nat} {r s : Rest}

def IsBoundary (d : String) (i : Nat) : Prop := String.Pos.Raw.IsValid d ⟨i⟩

instance : Decidable (IsBoundary d i) := inferInstanceAs (Decidable (String.Pos.Raw.IsValid d ⟨i⟩))

theorem isBoundary_iff : IsBoundary d i ↔
    ∃ front back, d.toList = front ++ back ∧ i = byteLength front := by
  rw [IsBoundary, String.Pos.Raw.isValid_iff_exists_append]
  constructor
  · rintro ⟨front, back, rfl, hi⟩
    refine ⟨front.toList, back.toList, String.toList_append, ?_⟩
    rw [← utf8ByteSize_ofList, String.ofList_toList]
    exact congrArg String.Pos.Raw.byteIdx hi
  · rintro ⟨front, back, hd, rfl⟩
    refine ⟨String.ofList front, String.ofList back, ?_, ?_⟩
    · rw [← String.ofList_append, ← hd, String.ofList_toList]
    · rw [← utf8ByteSize_ofList]
      rfl

theorem IsBoundary.le (h : IsBoundary d i) : i ≤ d.utf8ByteSize :=
  String.Pos.Raw.IsValid.le_utf8ByteSize h

def textBetween (d : String) (i j : Nat) : String := String.Pos.Raw.extract d ⟨i⟩ ⟨j⟩

theorem byteLength_eq_zero_iff {cs : List Char} : byteLength cs = 0 ↔ cs = [] := by
  cases cs with
  | nil => simp
  | cons c cs =>
    have hpos := c.utf8Size_pos
    simp only [byteLength_cons, List.cons_ne_nil, iff_false]
    omega

theorem length_le_byteLength (cs : List Char) : cs.length ≤ byteLength cs := by
  induction cs with
  | nil => exact Nat.le_refl 0
  | cons c cs ih =>
    have hpos := c.utf8Size_pos
    rw [List.length_cons, byteLength_cons]
    omega

theorem utf8Len_eq_byteLength (cs : List Char) : String.utf8Len cs = byteLength cs := by
  induction cs with
  | nil => rfl
  | cons c cs ih => rw [String.utf8Len_cons, ih, byteLength_cons, Nat.add_comm]

theorem textBetween_eq {front mid back : List Char} (h : d.toList = front ++ (mid ++ back)) :
    textBetween d (byteLength front) (byteLength front + byteLength mid) = String.ofList mid := by
  have hd : d = String.ofList (front ++ mid ++ back) := by
    rw [List.append_assoc, ← h, String.ofList_toList]
  rw [textBetween, hd, ← utf8Len_eq_byteLength, ← utf8Len_eq_byteLength]
  exact String.extract_of_valid front mid back

theorem utf8ByteSize_eq (d : String) : d.utf8ByteSize = byteLength d.toList := by
  rw [← utf8ByteSize_ofList, String.ofList_toList]

/-- What is unread of `d`, from its offset on. -/
def Rest.Of (d : String) (r : Rest) : Prop :=
  ∃ front, d.toList = front ++ r.chars ∧ r.offset = byteLength front

namespace Rest.Of

theorem start (d : String) : Rest.Of d ⟨0, d.toList⟩ := ⟨[], rfl, rfl⟩

theorem boundary (h : r.Of d) : IsBoundary d r.offset := by
  obtain ⟨front, hd, ho⟩ := h
  exact isBoundary_iff.2 ⟨front, r.chars, hd, ho⟩

theorem advance (h : r.Of d) (cs : List Char) (hc : r.chars = cs ++ s.chars)
    (ho : s.offset = r.offset + byteLength cs) : s.Of d := by
  obtain ⟨front, hd, hr⟩ := h
  refine ⟨front ++ cs, ?_, ?_⟩
  · rw [hd, hc, List.append_assoc]
  · rw [ho, hr, byteLength_append]

theorem textBetween_eq {cs back : List Char} (h : r.Of d) (hc : r.chars = cs ++ back) :
    textBetween d r.offset (r.offset + byteLength cs) = String.ofList cs := by
  obtain ⟨front, hd, ho⟩ := h
  rw [hc] at hd
  rw [ho]
  exact Descriptor.textBetween_eq hd

theorem end_eq (h : r.Of d) : d.utf8ByteSize = r.offset + byteLength r.chars := by
  obtain ⟨front, hd, ho⟩ := h
  rw [utf8ByteSize_eq, hd, byteLength_append, ho]

protected theorem readType {t : TypeDescriptor} (hr : r.Of d) (h : readType r = .ok (t, s)) :
    s.Of d := by
  obtain ⟨-, hc, ho⟩ := readType_eq_ok_iff.1 h
  exact hr.advance _ hc ho

protected theorem readParams {before ts : List TypeDescriptor} (hr : r.Of d)
    (h : readParams before r = .ok (ts, s)) : s.Of d := by
  obtain ⟨params, -, -, hc, ho⟩ := readParams_eq_ok_iff.1 h
  refine hr.advance (params.flatMap TypeDescriptor.encode ++ [')']) ?_ ?_
  · rw [hc, List.append_assoc]
    rfl
  · rw [ho, byteLength_append]
    rfl

end Rest.Of

theorem IsBoundary.exists_rest (h : IsBoundary d i) :
    Rest.Of d ⟨i, (textBetween d i d.utf8ByteSize).toList⟩ := by
  obtain ⟨front, back, hd, rfl⟩ := isBoundary_iff.1 h
  have hr : Rest.Of d ⟨byteLength front, back⟩ := ⟨front, hd, rfl⟩
  have hback := hr.textBetween_eq (List.append_nil back).symm
  dsimp only at hback
  rw [hr.end_eq, hback, String.toList_ofList]
  exact hr

def bracketsAt (d : String) (i : Nat) : Nat := (((utf8Bytes d).drop i).takeWhile (· = 0x5B)).length

theorem utf8Bytes_eq (d : String) : utf8Bytes d = d.toList.flatMap String.utf8EncodeChar := by
  obtain ⟨cs, rfl⟩ := d.exists_eq_ofList
  rw [utf8Bytes, String.toUTF8_eq_toByteArray, String.toByteArray_ofList, String.toList_ofList,
    List.utf8Encode, List.data_toByteArray]

theorem length_flatMap_utf8EncodeChar (cs : List Char) :
    (cs.flatMap String.utf8EncodeChar).length = byteLength cs := by
  induction cs with
  | nil => rfl
  | cons c cs ih =>
    rw [List.flatMap_cons, List.length_append, String.length_utf8EncodeChar, ih, byteLength_cons]

/-- No other character has the byte of a bracket in front. -/
theorem exists_utf8EncodeChar_eq_cons {c : Char} (hc : c ≠ '[') :
    ∃ b bs, String.utf8EncodeChar c = b :: bs ∧ b ≠ 0x5B := by
  have hval : c.val.toNat ≠ 0x5B := fun h => hc (Char.ext (UInt32.toNat_inj.1 h))
  have hbyte : ∀ n, n < 256 → n ≠ 0x5B → UInt8.ofNat n ≠ 0x5B := by
    intro n hn hne h
    rw [← UInt8.toNat_inj, UInt8.toNat_ofNat_of_lt' hn] at h
    exact hne h
  rw [String.utf8EncodeChar]
  split
  · exact ⟨_, _, rfl, hbyte _ (by omega) hval⟩
  · split
    · exact ⟨_, _, rfl, hbyte _ (by omega) (by omega)⟩
    · split
      · exact ⟨_, _, rfl, hbyte _ (by omega) (by omega)⟩
      · exact ⟨_, _, rfl, hbyte _ (by omega) (by omega)⟩

theorem length_takeWhile_bracket (cs : List Char) :
    ((cs.flatMap String.utf8EncodeChar).takeWhile (· = 0x5B)).length =
      (cs.takeWhile (· = '[')).length := by
  induction cs with
  | nil => rfl
  | cons c cs ih =>
    by_cases hc : c = '['
    · subst hc
      have hb : String.utf8EncodeChar '[' = [0x5B] := by decide
      rw [List.flatMap_cons, hb]
      simpa using ih
    · obtain ⟨b, bs, hb, hne⟩ := exists_utf8EncodeChar_eq_cons hc
      rw [List.flatMap_cons, hb]
      simp [hc, hne]

theorem bracketsAt_eq (h : r.Of d) :
    bracketsAt d r.offset = (r.chars.takeWhile (· = '[')).length := by
  obtain ⟨front, hd, ho⟩ := h
  have hdrop : (utf8Bytes d).drop r.offset = r.chars.flatMap String.utf8EncodeChar := by
    rw [utf8Bytes_eq, hd, List.flatMap_append, ho]
    exact List.drop_left' (length_flatMap_utf8EncodeChar front)
  rw [bracketsAt, hdrop, length_takeWhile_bracket]

end ClassSketch.Descriptor
