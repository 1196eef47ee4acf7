import ClassSketch.ModifiedUtf8
import ClassSketch.Proofs.Except

namespace ClassSketch.ModifiedUtf8

def payload? (b : UInt8) : Option Nat :=
  if 0x80 ≤ b.toNat ∧ b.toNat ≤ 0xBF then some (b.toNat - 0x80) else none

/-- The code units of bytes that are nothing but units. -/
def units? : List UInt8 → Option (List Nat)
  | [] => some []
  | a :: rest =>
    if 0x01 ≤ a.toNat ∧ a.toNat ≤ 0x7F then (units? rest).map (a.toNat :: ·)
    else if 0xC0 ≤ a.toNat ∧ a.toNat ≤ 0xDF then
      match rest with
      | x :: rest => (payload? x).bind fun x =>
        (units? rest).map (((a.toNat - 0xC0) * 0x40 + x) :: ·)
      | [] => none
    else if 0xE0 ≤ a.toNat ∧ a.toNat ≤ 0xEF then
      match rest with
      | x :: y :: rest => (payload? x).bind fun x => (payload? y).bind fun y =>
        (units? rest).map (((a.toNat - 0xE0) * 0x1000 + x * 0x40 + y) :: ·)
      | _ => none
    else none

def loneCode (unit : Nat) : Nat := if 0xD800 ≤ unit ∧ unit ≤ 0xDFFF then 0xFFFD else unit

/-- The code points that code units stand for when they are read as UTF-16. -/
def codePoints : List Nat → List Nat
  | high :: low :: rest =>
    if (0xD800 ≤ high ∧ high ≤ 0xDBFF) ∧ 0xDC00 ≤ low ∧ low ≤ 0xDFFF then
      (0x10000 + (high - 0xD800) * 0x400 + (low - 0xDC00)) :: codePoints rest
    else loneCode high :: codePoints (low :: rest)
  | [unit] => [loneCode unit]
  | [] => []

theorem forall_byte {P : UInt8 → Prop} (h : ∀ n < 256, P (UInt8.ofNat n)) (b : UInt8) : P b := by
  have hb := h b.toNat b.toNat_lt
  rwa [UInt8.ofNat_toNat] at hb

theorem and_80_eq_zero_iff (b : UInt8) : b &&& 0x80 = 0 ↔ b.toNat ≤ 0x7F := by
  revert b
  exact forall_byte (by decide +kernel)

theorem and_C0_eq_80_iff (b : UInt8) : b &&& 0xC0 = 0x80 ↔ 0x80 ≤ b.toNat ∧ b.toNat ≤ 0xBF := by
  revert b
  exact forall_byte (by decide +kernel)

theorem and_E0_eq_C0_iff (b : UInt8) : b &&& 0xE0 = 0xC0 ↔ 0xC0 ≤ b.toNat ∧ b.toNat ≤ 0xDF := by
  revert b
  exact forall_byte (by decide +kernel)

theorem and_F0_eq_E0_iff (b : UInt8) : b &&& 0xF0 = 0xE0 ↔ 0xE0 ≤ b.toNat ∧ b.toNat ≤ 0xEF := by
  revert b
  exact forall_byte (by decide +kernel)

theorem toNat_and_3F (b : UInt8) : (b &&& 0x3F).toNat = b.toNat % 0x40 := by
  rw [UInt8.toNat_and]
  exact Nat.and_two_pow_sub_one_eq_mod b.toNat 6

theorem toNat_and_1F (b : UInt8) : (b &&& 0x1F).toNat = b.toNat % 0x20 := by
  rw [UInt8.toNat_and]
  exact Nat.and_two_pow_sub_one_eq_mod b.toNat 5

theorem toNat_and_0F (b : UInt8) : (b &&& 0x0F).toNat = b.toNat % 0x10 := by
  rw [UInt8.toNat_and]
  exact Nat.and_two_pow_sub_one_eq_mod b.toNat 4

theorem continuation_toOption (offset : Nat) (b : UInt8) :
    (continuation offset (some b)).toOption = payload? b := by
  rw [continuation, payload?]
  by_cases h : 0x80 ≤ b.toNat ∧ b.toNat ≤ 0xBF
  · rw [if_pos ((and_C0_eq_80_iff b).2 h), if_pos h, toNat_and_3F]
    exact congrArg some (by omega)
  · rw [if_neg (mt (and_C0_eq_80_iff b).1 h), if_neg h]
    rfl

theorem threeBytes_toOption (offset : Nat) (a x y : UInt8) (rest : List UInt8) :
    (threeBytes offset a (x :: y :: rest)).toOption =
      (payload? x).bind fun x => (payload? y).map fun y =>
        (a &&& 0x0F).toNat * 0x1000 + x * 0x40 + y := by
  rw [← continuation_toOption (offset + 1) x, ← continuation_toOption (offset + 2) y]
  simp only [threeBytes, List.getElem?_cons_zero, List.getElem?_cons_succ]
  cases continuation (offset + 1) (some x) with
  | error e => rfl
  | ok x =>
    cases continuation (offset + 2) (some y) with
    | error e => rfl
    | ok y => rfl

theorem units?_two {a : UInt8} (h : a &&& 0xE0 = 0xC0) (offset : Nat) (rest : List UInt8) :
    units? (a :: rest) = (continuation offset rest[0]?).toOption.bind fun x =>
      (units? (rest.drop 1)).map (((a &&& 0x1F).toNat * 0x40 + x) :: ·) := by
  rw [and_E0_eq_C0_iff] at h
  have hp : (a &&& 0x1F).toNat = a.toNat - 0xC0 := by
    rw [toNat_and_1F]
    omega
  rw [units?.eq_def, hp]
  dsimp only
  rw [if_neg (by omega), if_pos h]
  cases rest with
  | nil => rfl
  | cons x rest => rw [List.getElem?_cons_zero, continuation_toOption, List.drop_one, List.tail_cons]

theorem units?_three {a : UInt8} (h : a &&& 0xF0 = 0xE0) (offset : Nat) (rest : List UInt8) :
    units? (a :: rest) = (threeBytes offset a rest).toOption.bind fun unit =>
      (units? (rest.drop 2)).map (unit :: ·) := by
  rw [and_F0_eq_E0_iff] at h
  have hp : (a &&& 0x0F).toNat = a.toNat - 0xE0 := by
    rw [toNat_and_0F]
    omega
  rw [units?.eq_def]
  dsimp only
  rw [if_neg (by omega), if_neg (by omega), if_pos h]
  match rest with
  | [] => rfl
  | [x] =>
    simp only [threeBytes, List.getElem?_cons_zero]
    cases continuation (offset + 1) (some x) with
    | error e => rfl
    | ok x => rfl
  | x :: y :: rest =>
    simp only [threeBytes_toOption, hp, List.drop_succ_cons, List.drop_zero]
    cases payload? x with
    | none => rfl
    | some x =>
      cases payload? y with
      | none => rfl
      | some y => rfl

theorem payload?_lt {b : UInt8} {x : Nat} (h : payload? b = some x) : x < 0x40 := by
  rw [payload?] at h
  split at h
  · have hx := Option.some.inj h
    omega
  · cases h

theorem continuation_lt {offset x : Nat} {b : Option UInt8} (h : continuation offset b = .ok x) :
    x < 0x40 := by
  cases b with
  | none => cases h
  | some b => exact payload?_lt (by rw [← continuation_toOption offset b, h]; rfl)

theorem units?_one {a : UInt8} (h : a &&& 0x80 = 0) (h0 : a ≠ 0) (rest : List UInt8) :
    units? (a :: rest) = (units? rest).map (a.toNat :: ·) := by
  rw [and_80_eq_zero_iff] at h
  have hpos : 0 < a.toNat := Nat.pos_of_ne_zero fun hz => h0 (UInt8.toNat_inj.1 hz)
  rw [units?.eq_def]
  exact if_pos ⟨hpos, h⟩

theorem units?_bad {a : UInt8} (h : a = 0 ∨ ¬ a &&& 0x80 = 0) (h₂ : ¬ a &&& 0xE0 = 0xC0)
    (h₃ : ¬ a &&& 0xF0 = 0xE0) (rest : List UInt8) : units? (a :: rest) = none := by
  rw [and_E0_eq_C0_iff] at h₂
  rw [and_F0_eq_E0_iff] at h₃
  have h₁ : ¬ (0x01 ≤ a.toNat ∧ a.toNat ≤ 0x7F) := by
    rcases h with rfl | h
    · decide
    · rw [and_80_eq_zero_iff] at h
      omega
  rw [units?.eq_def]
  dsimp only
  rw [if_neg h₁, if_neg h₂, if_neg h₃]

theorem isHighSurrogate_iff {unit : Nat} :
    isHighSurrogate unit = true ↔ 0xD800 ≤ unit ∧ unit ≤ 0xDBFF := by
  simp [isHighSurrogate]

theorem isLowSurrogate_iff {unit : Nat} :
    isLowSurrogate unit = true ↔ 0xDC00 ≤ unit ∧ unit ≤ 0xDFFF := by
  simp [isLowSurrogate]

theorem codePoints_pair {high low : Nat} (hh : isHighSurrogate high = true)
    (hl : isLowSurrogate low = true) (units : List Nat) :
    codePoints (high :: low :: units) = pairCode high low :: codePoints units := by
  rw [codePoints]
  exact if_pos ⟨isHighSurrogate_iff.1 hh, isLowSurrogate_iff.1 hl⟩

theorem codePoints_cons {unit : Nat} {units : List Nat}
    (h : isHighSurrogate unit = true → ∀ low ∈ units.head?, isLowSurrogate low = false) :
    codePoints (unit :: units) = loneCode unit :: codePoints units := by
  cases units with
  | nil => rfl
  | cons low units =>
    rw [codePoints, if_neg]
    rintro ⟨hh, hl⟩
    have hf := h (isHighSurrogate_iff.2 hh) low rfl
    rw [isLowSurrogate_iff.2 hl] at hf
    cases hf

theorem codePoints_cons_of_lt {unit : Nat} (h : unit < 0xD800) (units : List Nat) :
    codePoints (unit :: units) = unit :: codePoints units := by
  have hh : ¬ isHighSurrogate unit = true := by
    rw [isHighSurrogate_iff]
    omega
  rw [codePoints_cons fun hs => absurd hs hh, loneCode, if_neg (by omega)]

theorem lowSurrogate?_eq_some_iff {bytes : List UInt8} {low : Nat} :
    lowSurrogate? bytes = some low ↔ ∃ a rest, bytes = a :: rest ∧ a &&& 0xF0 = 0xE0 ∧
      threeBytes 0 a rest = .ok low ∧ isLowSurrogate low = true := by
  constructor
  · intro h
    cases bytes with
    | nil => cases h
    | cons a rest =>
      rw [lowSurrogate?] at h
      split at h
      · rename_i ha
        split at h
        · rename_i unit hu
          split at h
          · rename_i hl
            cases h
            exact ⟨a, rest, rfl, ha, hu, hl⟩
          · cases h
        · cases h
      · cases h
  · rintro ⟨a, rest, rfl, ha, hu, hl⟩
    simp [lowSurrogate?, ha, hu, hl]

theorem units?_of_lowSurrogate? {bytes : List UInt8} {low : Nat}
    (h : lowSurrogate? bytes = some low) :
    units? bytes = (units? (bytes.drop 3)).map (low :: ·) := by
  obtain ⟨a, rest, rfl, ha, hu, -⟩ := lowSurrogate?_eq_some_iff.1 h
  rw [units?_three ha 0, hu]
  rfl

/-- A low surrogate that is the first code unit stands at the front of the bytes: no shorter unit
holds one. -/
theorem lowSurrogate?_of_units? {bytes : List UInt8} {low : Nat} {units : List Nat}
    (h : units? bytes = some (low :: units)) (hl : isLowSurrogate low = true) :
    lowSurrogate? bytes = some low := by
  cases bytes with
  | nil => cases h
  | cons a rest =>
    have hlow := isLowSurrogate_iff.1 hl
    by_cases h₃ : a &&& 0xF0 = 0xE0
    · rw [units?_three h₃ 0] at h
      cases hu : threeBytes 0 a rest with
      | error e =>
        rw [hu] at h
        cases h
      | ok unit =>
        rw [hu] at h
        obtain ⟨us, -, he⟩ := Option.map_eq_some_iff.1 h
        cases he
        exact lowSurrogate?_eq_some_iff.2 ⟨a, rest, rfl, h₃, hu, hl⟩
    by_cases h₂ : a &&& 0xE0 = 0xC0
    · rw [units?_two h₂ 0] at h
      obtain ⟨x, hx, h⟩ := Option.bind_eq_some_iff.1 h
      obtain ⟨us, -, he⟩ := Option.map_eq_some_iff.1 h
      have hm := toNat_and_1F a
      have hx := continuation_lt (toOption_eq_some_iff.1 hx)
      have hlt := (List.cons.inj he).1
      omega
    by_cases h₁ : a &&& 0x80 = 0
    · by_cases h₀ : a = 0
      · rw [units?_bad (.inl h₀) h₂ h₃] at h
        cases h
      · rw [units?_one h₁ h₀] at h
        obtain ⟨us, -, he⟩ := Option.map_eq_some_iff.1 h
        have hle := (and_80_eq_zero_iff a).1 h₁
        have hlt := (List.cons.inj he).1
        omega
    · rw [units?_bad (.inr h₁) h₂ h₃] at h
      cases h

theorem toNat_ofNat {code : Nat} (h : code.isValidChar) : (Char.ofNat code).toNat = code := by
  rw [Char.ofNat, dif_pos h]
  rfl

theorem char?_eq_some {code : Nat} (h : code.isValidChar) :
    ∃ c, char? code = some c ∧ c.toNat = code :=
  ⟨Char.ofNat code, if_pos h, toNat_ofNat h⟩

theorem twoBytes_isValidChar {offset x : Nat} {a : UInt8} {b : Option UInt8}
    (h : continuation offset b = .ok x) : ((a &&& 0x1F).toNat * 0x40 + x).isValidChar := by
  have hx := continuation_lt h
  have ha := toNat_and_1F a
  exact .inl (by omega)

theorem pairCode_isValidChar {high low : Nat} (hh : isHighSurrogate high = true)
    (hl : isLowSurrogate low = true) : (pairCode high low).isValidChar := by
  have hh := isHighSurrogate_iff.1 hh
  have hl := isLowSurrogate_iff.1 hl
  have hc : pairCode high low = 0x10000 + (high - 0xD800) * 0x400 + (low - 0xDC00) := rfl
  rw [Nat.isValidChar]
  omega

theorem threeBytes_lt {offset unit : Nat} {a : UInt8} {rest : List UInt8}
    (h : threeBytes offset a rest = .ok unit) : unit < 0x10000 := by
  rw [threeBytes] at h
  cases hx : continuation (offset + 1) rest[0]? with
  | error e =>
    rw [hx] at h
    cases h
  | ok x =>
    cases hy : continuation (offset + 2) rest[1]? with
    | error e =>
      rw [hx, hy] at h
      cases h
    | ok y =>
      rw [hx, hy] at h
      have hu : (a &&& 0x0F).toNat * 0x1000 + x * 0x40 + y = unit := Except.ok.inj h
      have hx := continuation_lt hx
      have hy := continuation_lt hy
      have ha := toNat_and_0F a
      omega

theorem toNat_lone {unit : Nat} (h : unit < 0x10000) :
    ((char? unit).getD replacement).toNat = loneCode unit := by
  by_cases hs : 0xD800 ≤ unit ∧ unit ≤ 0xDFFF
  · have hv : ¬ unit.isValidChar := by
      rw [Nat.isValidChar]
      omega
    rw [char?, if_neg hv, loneCode, if_pos hs]
    rfl
  · have hv : unit.isValidChar := by
      rw [Nat.isValidChar]
      omega
    obtain ⟨c, hc, hn⟩ := char?_eq_some hv
    rw [hc, loneCode, if_neg hs]
    exact hn

theorem map_codePoints_front {bytes rest : List UInt8} {front : List Nat → List Nat} {c : Char}
    (before : List Char) (hu : units? bytes = (units? rest).map front)
    (hc : ∀ units, units? rest = some units →
      codePoints (front units) = c.toNat :: codePoints units) :
    (units? rest).map ((c :: before).reverse.map Char.toNat ++ codePoints ·) =
      (units? bytes).map (before.reverse.map Char.toNat ++ codePoints ·) := by
  rw [hu]
  cases hr : units? rest with
  | none => rfl
  | some units => simp [hc units hr]

/-- What is decoded from the front is followed by the code points of what is left. -/
theorem decodeFrom_toOption (before : List Char) (offset : Nat) (bytes : List UInt8) :
    (decodeFrom before offset bytes).toOption.map (List.map Char.toNat) =
      (units? bytes).map (before.reverse.map Char.toNat ++ codePoints ·) := by
  fun_induction decodeFrom before offset bytes with
  | case1 before offset => simp [units?, codePoints, Except.toOption]
  | case2 before offset rest =>
    rw [units?_bad (.inl rfl) (by decide) (by decide)]
    rfl
  | case3 before offset b rest h₀ h₁ ih =>
    rw [ih]
    refine map_codePoints_front before (units?_one h₁ h₀ rest) fun units _ => ?_
    have hle := (and_80_eq_zero_iff b).1 h₁
    rw [codePoints_cons_of_lt (by omega), toNat_ofNat (.inl (by omega))]
  | case4 before offset b rest h₀ h₁ h₂ bad hx =>
    rw [units?_two h₂ (offset + 1), hx]
    rfl
  | case5 before offset b rest h₀ h₁ h₂ x hx c hc ih =>
    rw [ih]
    have hu : units? (b :: rest) = (units? (rest.drop 1)).map
        (((b &&& 0x1F).toNat * 0x40 + x) :: ·) := by
      rw [units?_two h₂ (offset + 1), hx]
      rfl
    refine map_codePoints_front before hu fun units _ => ?_
    obtain ⟨c', hc', hn⟩ := char?_eq_some (twoBytes_isValidChar hx)
    rw [hc] at hc'
    cases hc'
    have hlt := continuation_lt hx
    have hb := toNat_and_1F b
    rw [codePoints_cons_of_lt (by omega), hn]
  | case6 before offset b rest h₀ h₁ h₂ x hx hc =>
    obtain ⟨c, hc', -⟩ := char?_eq_some (twoBytes_isValidChar hx)
    rw [hc] at hc'
    cases hc'
  | case7 before offset b rest h₀ h₁ h₂ h₃ bad hu =>
    rw [units?_three h₃ offset, hu]
    rfl
  | case8 before offset b rest h₀ h₁ h₂ h₃ unit hu behind low hl c ih =>
    rw [ih]
    split at hl
    · rename_i hh
      obtain ⟨-, -, -, -, -, hlow⟩ := lowSurrogate?_eq_some_iff.1 hl
      have hf : units? (b :: rest) = (units? (behind.drop 3)).map (unit :: low :: ·) := by
        rw [units?_three h₃ offset, hu]
        change (units? behind).map (unit :: ·) = _
        rw [units?_of_lowSurrogate? hl, Option.map_map]
        rfl
      -- both units of a pair leave the bytes at once
      refine map_codePoints_front before hf fun units _ => ?_
      obtain ⟨c', hc', hn⟩ := char?_eq_some (pairCode_isValidChar hh hlow)
      rw [codePoints_pair hh hlow, ← hn]
      simp only [c, hc', Option.getD_some]
    · cases hl
  | case9 before offset b rest h₀ h₁ h₂ h₃ unit hu behind hl ih =>
    rw [ih]
    have hf : units? (b :: rest) = (units? behind).map (unit :: ·) := by
      rw [units?_three h₃ offset, hu]
      rfl
    refine map_codePoints_front before hf fun units hunits => ?_
    rw [toNat_lone (threeBytes_lt hu)]
    -- a low surrogate among the code units behind would have been seen in the bytes
    refine codePoints_cons fun hh low hlow => ?_
    rw [dif_pos hh] at hl
    rw [Option.mem_def, List.head?_eq_some_iff] at hlow
    obtain ⟨us, rfl⟩ := hlow
    cases hlow : isLowSurrogate low with
    | false => rfl
    | true =>
      rw [lowSurrogate?_of_units? hunits hlow] at hl
      cases hl
  | case10 before offset b rest h₀ h₁ h₂ h₃ =>
    rw [units?_bad (.inr h₁) h₂ h₃]
    rfl

theorem decodeFrom_of_isPlain {bytes : List UInt8} (h : isPlain bytes = true)
    (before : List Char) (offset : Nat) :
    decodeFrom before offset bytes =
      .ok (before.reverse ++ bytes.map fun b => Char.ofNat b.toNat) := by
  induction bytes generalizing before offset with
  | nil => simp [decodeFrom]
  | cons b rest ih =>
    simp only [isPlain, List.all_cons, Bool.and_eq_true, bne_iff_ne, ne_eq,
      decide_eq_true_eq] at h
    obtain ⟨⟨h₀, hlt⟩, hrest⟩ := h
    have h₁ : b &&& 0x80 = 0 := by
      rw [and_80_eq_zero_iff]
      exact Nat.le_of_lt_succ (UInt8.lt_iff_toNat_lt.1 hlt)
    rw [decodeFrom, if_neg h₀, if_pos h₁, ih hrest]
    simp

theorem decode_eq_decodeFrom (base : Nat) (bytes : List UInt8) :
    decode base bytes = (decodeFrom [] base bytes).map String.ofList := by
  rw [decode]
  split
  · rename_i h
    rw [decodeFrom_of_isPlain h]
    rfl
  · rfl

theorem decode_toOption (base : Nat) (bytes : List UInt8) :
    (decode base bytes).toOption.map (fun text => text.toList.map Char.toNat) =
      (units? bytes).map codePoints := by
  rw [decode_eq_decodeFrom]
  have h := decodeFrom_toOption [] base bytes
  cases hd : decodeFrom [] base bytes with
  | error e =>
    rw [hd] at h
    exact h
  | ok cs =>
    rw [hd] at h
    simpa [Except.map, Except.toOption] using h

theorem decode_eq_ok_iff {base : Nat} {bytes : List UInt8} {text : String} :
    decode base bytes = .ok text ↔
      (units? bytes).map codePoints = some (text.toList.map Char.toNat) := by
  rw [← decode_toOption base bytes, ← toOption_eq_some_iff]
  constructor
  · intro h
    rw [h, Option.map_some]
  · intro h
    obtain ⟨text', ht, hcodes⟩ := Option.map_eq_some_iff.1 h
    have hlist := (List.map_inj_right fun a b hab => Char.ext (UInt32.toNat_inj.1 hab)).1 hcodes
    rw [ht, String.toList_inj.1 hlist]

theorem decode_eq_ok_iff_of_base (base base' : Nat) {bytes : List UInt8} {text : String} :
    decode base bytes = .ok text ↔ decode base' bytes = .ok text := by
  rw [decode_eq_ok_iff, decode_eq_ok_iff]

/-- Decoding is splitting into code units and reading them as UTF-16. The fast path changes
nothing, and neither a unit of two bytes nor a pair of surrogates lacks its character. -/
theorem decode_eq_codePoints_units (base : Nat) (bytes : List UInt8) :
    (decode base bytes).toOption.map (fun text => text.toList.map Char.toNat) =
        (units? bytes).map codePoints ∧
      decode base bytes = (decodeFrom [] base bytes).map String.ofList ∧
      (∀ (a : UInt8) (b : Option UInt8) (offset x : Nat), continuation offset b = .ok x →
        (char? ((a &&& 0x1F).toNat * 0x40 + x)).isSome) ∧
      ∀ high low : Nat, isHighSurrogate high = true → isLowSurrogate low = true →
        (char? (pairCode high low)).isSome := by
  refine ⟨decode_toOption base bytes, decode_eq_decodeFrom base bytes, ?_, ?_⟩
  · intro a b offset x hx
    obtain ⟨c, hc, -⟩ := char?_eq_some (twoBytes_isValidChar (a := a) hx)
    rw [hc]
    rfl
  · intro high low hh hl
    obtain ⟨c, hc, -⟩ := char?_eq_some (pairCode_isValidChar hh hl)
    rw [hc]
    rfl

end ClassSketch.ModifiedUtf8
