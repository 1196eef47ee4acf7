import ClassSketch.Proofs.CodeUnits

namespace ClassSketch.ModifiedUtf8

def encodeUnit (unit : Nat) : List UInt8 :=
  if 0x01 ≤ unit ∧ unit ≤ 0x7F then [.ofNat unit]
  else if unit ≤ 0x7FF then [.ofNat (0xC0 + unit / 0x40), .ofNat (0x80 + unit % 0x40)]
  else [.ofNat (0xE0 + unit / 0x1000), .ofNat (0x80 + unit / 0x40 % 0x40),
    .ofNat (0x80 + unit % 0x40)]

def utf16 (code : Nat) : List Nat :=
  if code ≤ 0xFFFF then [code]
  else [0xD800 + (code - 0x10000) / 0x400, 0xDC00 + (code - 0x10000) % 0x400]

def encode (text : String) : List UInt8 :=
  text.toList.flatMap fun c => (utf16 c.toNat).flatMap encodeUnit

theorem toNat_byte {n : Nat} (h : n ≤ 0xFF) : (UInt8.ofNat n).toNat = n :=
  UInt8.toNat_ofNat_of_lt' (Nat.lt_succ_of_le h)

theorem payload?_byte {x : Nat} (h : x < 0x40) : payload? (.ofNat (0x80 + x)) = some x := by
  rw [payload?, toNat_byte (by omega), if_pos (by omega), Nat.add_sub_cancel_left]

theorem units?_encodeUnit {unit : Nat} (h : unit ≤ 0xFFFF) (rest : List UInt8) :
    units? (encodeUnit unit ++ rest) = (units? rest).map (unit :: ·) := by
  by_cases h₁ : 0x01 ≤ unit ∧ unit ≤ 0x7F
  · have ha := toNat_byte (n := unit) (by omega)
    rw [encodeUnit, if_pos h₁, List.singleton_append, units?.eq_def]
    dsimp only
    rw [ha, if_pos h₁]
  by_cases h₂ : unit ≤ 0x7FF
  · have ha := toNat_byte (n := 0xC0 + unit / 0x40) (by omega)
    have hx := payload?_byte (x := unit % 0x40) (by omega)
    have hu : (0xC0 + unit / 0x40 - 0xC0) * 0x40 + unit % 0x40 = unit := by omega
    rw [encodeUnit, if_neg h₁, if_pos h₂, List.cons_append, List.singleton_append, units?.eq_def]
    dsimp only
    rw [ha, if_neg (by omega), if_pos (by omega), hx, Option.bind_some, hu]
  · have ha := toNat_byte (n := 0xE0 + unit / 0x1000) (by omega)
    have hx := payload?_byte (x := unit / 0x40 % 0x40) (by omega)
    have hy := payload?_byte (x := unit % 0x40) (by omega)
    have hu : (0xE0 + unit / 0x1000 - 0xE0) * 0x1000 + unit / 0x40 % 0x40 * 0x40 + unit % 0x40 =
        unit := by omega
    rw [encodeUnit, if_neg h₁, if_neg h₂, List.cons_append, List.cons_append,
      List.singleton_append, units?.eq_def]
    dsimp only
    rw [ha, if_neg (by omega), if_neg (by omega), if_pos (by omega), hx, Option.bind_some, hy,
      Option.bind_some, hu]

theorem units?_flatMap_encodeUnit {units : List Nat} (h : ∀ unit ∈ units, unit ≤ 0xFFFF) :
    units? (units.flatMap encodeUnit) = some units := by
  induction units with
  | nil => simp [units?]
  | cons unit units ih =>
    have hunit : unit ≤ 0xFFFF := h unit (by simp)
    rw [List.flatMap_cons, units?_encodeUnit hunit, ih fun u hu => h u (by simp [hu])]
    rfl

theorem utf16_le {code unit : Nat} (hc : code.isValidChar) (h : unit ∈ utf16 code) :
    unit ≤ 0xFFFF := by
  rw [Nat.isValidChar] at hc
  rw [utf16] at h
  split at h <;> simp at h <;> omega

/-- Characters are told apart: no unit of one is paired with a unit of the next. -/
theorem codePoints_utf16 {code : Nat} (hc : code.isValidChar) (units : List Nat) :
    codePoints (utf16 code ++ units) = code :: codePoints units := by
  rw [Nat.isValidChar] at hc
  by_cases h : code ≤ 0xFFFF
  · have hs : ¬ (0xD800 ≤ code ∧ code ≤ 0xDFFF) := by omega
    have hh : ¬ isHighSurrogate code = true := by
      rw [isHighSurrogate_iff]
      omega
    rw [utf16, if_pos h, List.singleton_append, codePoints_cons fun hh' => absurd hh' hh, loneCode,
      if_neg hs]
  · have hh : isHighSurrogate (0xD800 + (code - 0x10000) / 0x400) = true := by
      rw [isHighSurrogate_iff]
      omega
    have hl : isLowSurrogate (0xDC00 + (code - 0x10000) % 0x400) = true := by
      rw [isLowSurrogate_iff]
      omega
    have hp : pairCode (0xD800 + (code - 0x10000) / 0x400) (0xDC00 + (code - 0x10000) % 0x400) =
        code := by
      unfold pairCode
      omega
    rw [utf16, if_neg h, List.cons_append, List.singleton_append, codePoints_pair hh hl, hp]

theorem toNat_isValidChar (c : Char) : c.toNat.isValidChar := c.valid

theorem codePoints_flatMap_utf16 (cs : List Char) :
    codePoints (cs.flatMap fun c => utf16 c.toNat) = cs.map Char.toNat := by
  induction cs with
  | nil => rfl
  | cons c cs ih =>
    rw [List.flatMap_cons, codePoints_utf16 (toNat_isValidChar c), ih, List.map_cons]

theorem units?_encode (text : String) :
    units? (encode text) = some (text.toList.flatMap fun c => utf16 c.toNat) := by
  have h : encode text = (text.toList.flatMap fun c => utf16 c.toNat).flatMap encodeUnit := by
    rw [encode, List.flatMap_assoc]
  rw [h]
  apply units?_flatMap_encodeUnit
  intro unit hu
  obtain ⟨c, -, hc⟩ := List.mem_flatMap.1 hu
  exact utf16_le (toNat_isValidChar c) hc

/-- Every text is read back unchanged from its standard form, wherever it stands in a file. -/
theorem decode_encode (base : Nat) (text : String) : decode base (encode text) = .ok text := by
  rw [decode_eq_ok_iff, units?_encode, Option.map_some, codePoints_flatMap_utf16]

-- The first and the last character of each width.
example : encode (String.ofList ([0, 0x01, 0x7F, 0x80, 0x7FF, 0x800, 0xFFFF, 0x10000, 0x10FFFF].map
    Char.ofNat)) =
      [0xC0, 0x80, 0x01, 0x7F, 0xC2, 0x80, 0xDF, 0xBF, 0xE0, 0xA0, 0x80, 0xEF, 0xBF, 0xBF,
        0xED, 0xA0, 0x80, 0xED, 0xB0, 0x80, 0xED, 0xAF, 0xBF, 0xED, 0xBF, 0xBF] := by decide

end ClassSketch.ModifiedUtf8
