import ClassSketch.Proofs.CodeUnits
import Mathlib.Order.Bounds.Basic

namespace ClassSketch.ModifiedUtf8

/-- More bytes behind them, or none, make the bytes ones that are decoded. -/
def Viable (base : Nat) (bytes : List UInt8) : Prop :=
  ∃ more text, decode base (bytes ++ more) = .ok text

theorem exists_decode_iff {base : Nat} {bytes : List UInt8} :
    (∃ text, decode base bytes = .ok text) ↔ (units? bytes).isSome := by
  have h := congrArg Option.isSome (decode_toOption base bytes)
  simp only [Option.isSome_map] at h
  rw [← h, Option.isSome_iff_exists]
  simp only [toOption_eq_some_iff]

theorem viable_iff {base : Nat} {bytes : List UInt8} :
    Viable base bytes ↔ ∃ more, (units? (bytes ++ more)).isSome := by
  simp only [Viable, exists_decode_iff]

theorem units?_cons_one {a : UInt8} (h : 0x01 ≤ a.toNat ∧ a.toNat ≤ 0x7F) (rest : List UInt8) :
    units? (a :: rest) = (units? rest).map (a.toNat :: ·) := by
  rw [units?.eq_def]
  exact if_pos h

theorem units?_cons_two {a : UInt8} (h : 0xC0 ≤ a.toNat ∧ a.toNat ≤ 0xDF) (rest : List UInt8) :
    units? (a :: rest) = (rest[0]?.bind payload?).bind fun x =>
      (units? (rest.drop 1)).map (((a.toNat - 0xC0) * 0x40 + x) :: ·) := by
  rw [units?.eq_def]
  dsimp only
  rw [if_neg (by omega), if_pos h]
  cases rest <;> rfl

theorem units?_cons_three {a : UInt8} (h : 0xE0 ≤ a.toNat ∧ a.toNat ≤ 0xEF) (rest : List UInt8) :
    units? (a :: rest) =
      (rest[0]?.bind payload?).bind fun x => (rest[1]?.bind payload?).bind fun y =>
        (units? (rest.drop 2)).map (((a.toNat - 0xE0) * 0x1000 + x * 0x40 + y) :: ·) := by
  rw [units?.eq_def]
  dsimp only
  rw [if_neg (by omega), if_neg (by omega), if_pos h]
  cases rest with
  | nil => rfl
  | cons x rest =>
    cases rest with
    | nil => cases h : payload? x <;> simp [h]
    | cons y rest => rfl

theorem units?_append {front : List UInt8} {units : List Nat} (h : units? front = some units)
    (rest : List UInt8) : units? (front ++ rest) = (units? rest).map (units ++ ·) := by
  fun_induction units? front generalizing units with
  | case1 =>
    cases h
    simp
  | case2 a front h₁ ih =>
    obtain ⟨us, hus, rfl⟩ := Option.map_eq_some_iff.1 h
    rw [List.cons_append, units?_cons_one h₁, ih hus, Option.map_map]
    rfl
  | case3 a h₁ h₂ x front ih =>
    obtain ⟨p, hp, h⟩ := Option.bind_eq_some_iff.1 h
    obtain ⟨us, hus, rfl⟩ := Option.map_eq_some_iff.1 h
    rw [List.cons_append, units?_cons_two h₂]
    simp [hp, ih hus, Function.comp_def]
  | case5 a h₁ h₂ h₃ x y front ih =>
    obtain ⟨p, hp, h⟩ := Option.bind_eq_some_iff.1 h
    obtain ⟨q, hq, h⟩ := Option.bind_eq_some_iff.1 h
    obtain ⟨us, hus, rfl⟩ := Option.map_eq_some_iff.1 h
    rw [List.cons_append, units?_cons_three h₃]
    simp [hp, hq, ih hus, Function.comp_def]
  | case4 | case6 | case7 => cases h

/-- No unit stands at the front of the bytes. The index counts those that are the beginning of one,
and the byte behind these, if there is one, does not go on with it. -/
inductive NoUnit : List UInt8 → Nat → Prop where
  | lead {a : UInt8} (rest : List UInt8) :
    a.toNat = 0 ∨ (0x80 ≤ a.toNat ∧ a.toNat ≤ 0xBF) ∨ 0xF0 ≤ a.toNat → NoUnit (a :: rest) 0
  | second {a : UInt8} {rest : List UInt8} : 0xC0 ≤ a.toNat ∧ a.toNat ≤ 0xEF →
    rest[0]?.bind payload? = none → NoUnit (a :: rest) 1
  | third {a x : UInt8} {p : Nat} {rest : List UInt8} : 0xE0 ≤ a.toNat ∧ a.toNat ≤ 0xEF →
    payload? x = some p → rest[0]?.bind payload? = none → NoUnit (a :: x :: rest) 2

namespace NoUnit

variable {bytes : List UInt8} {k : Nat}

theorem le_length (h : NoUnit bytes k) : k ≤ bytes.length := by
  cases h <;> simp

theorem units?_eq_none (h : NoUnit bytes k) : units? bytes = none := by
  cases h with
  | lead rest ha =>
    rw [units?.eq_def]
    dsimp only
    rw [if_neg (by omega), if_neg (by omega), if_neg (by omega)]
  | @second a rest ha hx =>
    by_cases h₂ : a.toNat ≤ 0xDF
    · rw [units?_cons_two ⟨ha.1, h₂⟩, hx, Option.bind_none]
    · rw [units?_cons_three ⟨Nat.lt_of_not_le h₂, ha.2⟩, hx, Option.bind_none]
  | third ha hx hy =>
    rw [units?_cons_three ha, List.getElem?_cons_zero, Option.bind_some, hx, Option.bind_some,
      List.getElem?_cons_succ, hy, Option.bind_none]

theorem take_append (h : NoUnit bytes k) {m : Nat} (hm : k < m) (hlength : m ≤ bytes.length)
    (more : List UInt8) : NoUnit (bytes.take m ++ more) k := by
  have hfirst : ∀ {n : Nat} {rest : List UInt8}, 0 < n → n ≤ rest.length →
      (rest.take n ++ more)[0]? = rest[0]? := by
    intro n rest hn hrest
    rw [List.getElem?_append_left (by rw [List.length_take]; omega), List.getElem?_take_of_lt hn]
  cases h with
  | lead rest ha =>
    obtain ⟨n, rfl⟩ := Nat.exists_eq_add_of_lt hm
    rw [Nat.zero_add, List.take_succ_cons, List.cons_append]
    exact .lead _ ha
  | second ha hx =>
    obtain ⟨n, rfl⟩ := Nat.exists_eq_add_of_lt hm
    rw [List.length_cons] at hlength
    rw [List.take_succ_cons, List.cons_append]
    exact .second ha (by rwa [hfirst (by omega) (by omega)])
  | third ha hx hy =>
    obtain ⟨n, rfl⟩ := Nat.exists_eq_add_of_lt hm
    rw [List.length_cons, List.length_cons] at hlength
    rw [List.take_succ_cons, List.cons_append, Nat.add_comm 2 n, List.take_succ_cons,
      List.cons_append]
    exact .third ha hx (by rwa [hfirst (by omega) (by omega)])

theorem completes (h : NoUnit bytes k) : ∃ more, (units? (bytes.take k ++ more)).isSome := by
  cases h with
  | lead => exact ⟨[], rfl⟩
  | @second a rest ha hx =>
    by_cases h₂ : a.toNat ≤ 0xDF
    · refine ⟨[0x80], ?_⟩
      rw [List.take_succ_cons, List.take_zero, List.singleton_append, units?_cons_two ⟨ha.1, h₂⟩]
      rfl
    · refine ⟨[0x80, 0x80], ?_⟩
      rw [List.take_succ_cons, List.take_zero, List.singleton_append,
        units?_cons_three ⟨Nat.lt_of_not_le h₂, ha.2⟩]
      rfl
  | third ha hx hy =>
    refine ⟨[0x80], ?_⟩
    rw [List.take_succ_cons, List.take_succ_cons, List.take_zero, List.cons_append,
      List.singleton_append, units?_cons_three ha, List.getElem?_cons_zero, Option.bind_some, hx]
    rfl

end NoUnit

/-- The first `p` bytes are whole units and the beginning of one that is not gone on with. -/
def FailsAt (bytes : List UInt8) (p : Nat) : Prop :=
  ∃ front tail k, bytes = front ++ tail ∧ (units? front).isSome ∧ NoUnit tail k ∧
    p = front.length + k

namespace FailsAt

variable {bytes front : List UInt8} {p : Nat}

theorem of_noUnit (h : NoUnit bytes p) : FailsAt bytes p :=
  ⟨[], bytes, p, rfl, rfl, h, by simp⟩

theorem append (h : FailsAt bytes p) (hfront : (units? front).isSome) :
    FailsAt (front ++ bytes) (front.length + p) := by
  obtain ⟨front', tail, k, rfl, hfront', htail, rfl⟩ := h
  obtain ⟨units, hunits⟩ := Option.isSome_iff_exists.1 hfront
  refine ⟨front ++ front', tail, k, by rw [List.append_assoc], ?_, htail, ?_⟩
  · rw [units?_append hunits, Option.isSome_map, hfront']
  · rw [List.length_append, Nat.add_assoc]

theorem units?_eq_none (h : FailsAt bytes p) : units? bytes = none := by
  obtain ⟨front, tail, k, rfl, hfront, htail, rfl⟩ := h
  obtain ⟨units, hunits⟩ := Option.isSome_iff_exists.1 hfront
  rw [units?_append hunits, htail.units?_eq_none, Option.map_none]

theorem isGreatest (h : FailsAt bytes p) (base : Nat) :
    IsGreatest {n | n ≤ bytes.length ∧ Viable base (bytes.take n)} p := by
  obtain ⟨front, tail, k, rfl, hfront, htail, rfl⟩ := h
  obtain ⟨units, hunits⟩ := Option.isSome_iff_exists.1 hfront
  constructor
  · refine ⟨by simpa using htail.le_length, ?_⟩
    obtain ⟨more, hmore⟩ := htail.completes
    rw [viable_iff]
    refine ⟨more, ?_⟩
    rw [List.take_length_add_append, List.append_assoc, units?_append hunits, Option.isSome_map,
      hmore]
  · rintro n ⟨hn, hviable⟩
    by_contra hlt
    obtain ⟨m, rfl⟩ := Nat.exists_eq_add_of_le (show front.length ≤ n by omega)
    rw [List.length_append] at hn
    obtain ⟨more, hmore⟩ := viable_iff.1 hviable
    have hnone := (htail.take_append (m := m) (by omega) (by omega) more).units?_eq_none
    rw [List.take_length_add_append, List.append_assoc, units?_append hunits, hnone] at hmore
    cases hmore

theorem unique {q : Nat} (h : FailsAt bytes p) (h' : FailsAt bytes q) : p = q :=
  (h.isGreatest 0).unique (h'.isGreatest 0)

end FailsAt

theorem continuation_eq (offset : Nat) (b : Option UInt8) :
    continuation offset b = (b.bind payload?).elim (.error offset) .ok := by
  cases b with
  | none => rfl
  | some b =>
    have h := continuation_toOption offset b
    rw [Option.bind_some]
    cases hp : payload? b with
    | some x => exact toOption_eq_some_iff.1 (h.trans hp)
    | none =>
      rw [hp, continuation] at h
      rw [continuation]
      split at h
      · cases h
      · rename_i hb
        rw [if_neg hb]
        rfl

theorem continuation_eq_error_iff {offset bad : Nat} {b : Option UInt8} :
    continuation offset b = .error bad ↔ b.bind payload? = none ∧ bad = offset := by
  rw [continuation_eq]
  cases b.bind payload? <;> simp [eq_comm]

theorem noUnit_of_threeBytes {offset bad : Nat} {a : UInt8} {rest : List UInt8}
    (ha : a &&& 0xF0 = 0xE0) (h : threeBytes offset a rest = .error bad) :
    ∃ k, NoUnit (a :: rest) k ∧ bad = offset + k := by
  rw [and_F0_eq_E0_iff] at ha
  rcases bind_eq_error_iff.1 h with h | ⟨x, hx, h⟩
  · obtain ⟨hx, rfl⟩ := continuation_eq_error_iff.1 h
    exact ⟨1, .second ⟨by omega, ha.2⟩ hx, rfl⟩
  rcases bind_eq_error_iff.1 h with h | ⟨y, hy, h⟩
  · obtain ⟨hy, rfl⟩ := continuation_eq_error_iff.1 h
    rw [continuation_eq] at hx
    cases rest with
    | nil => cases hx
    | cons b rest =>
      rw [List.getElem?_cons_zero, Option.bind_some] at hx
      cases hp : payload? b with
      | none =>
        rw [hp] at hx
        cases hx
      | some p => exact ⟨2, .third ha hp hy, rfl⟩
  · cases h

theorem FailsAt.of_threeBytes {offset unit p : Nat} {a : UInt8} {rest : List UInt8}
    (ha : a &&& 0xF0 = 0xE0) (h : threeBytes offset a rest = .ok unit)
    (hp : FailsAt (rest.drop 2) p) : FailsAt (a :: rest) (3 + p) := by
  match rest with
  | [] => cases h
  | [x] =>
    obtain ⟨_, -, h⟩ := bind_eq_ok_iff.1 h
    cases h
  | x :: y :: rest =>
    have hxy : threeBytes offset a [x, y] = .ok unit := h
    have hunit : (units? [a, x, y]).isSome := by
      rw [units?_three ha offset, hxy]
      rfl
    exact hp.append hunit

theorem failsAt_of_decodeFrom {before : List Char} {offset bad : Nat} {bytes : List UInt8}
    (h : decodeFrom before offset bytes = .error bad) :
    ∃ p, FailsAt bytes p ∧ bad = offset + p := by
  fun_induction decodeFrom before offset bytes with
  | case1 => cases h
  | case2 before offset rest =>
    cases h
    exact ⟨0, .of_noUnit (.lead rest (.inl rfl)), rfl⟩
  | case3 before offset b rest h₀ h₁ ih =>
    obtain ⟨p, hp, rfl⟩ := ih h
    have hunit : (units? [b]).isSome := by
      rw [units?_one h₁ h₀]
      rfl
    exact ⟨1 + p, hp.append hunit, by omega⟩
  | case4 before offset b rest h₀ h₁ h₂ bad' hx =>
    cases h
    obtain ⟨hnone, rfl⟩ := continuation_eq_error_iff.1 hx
    rw [and_E0_eq_C0_iff] at h₂
    exact ⟨1, .of_noUnit (.second ⟨h₂.1, by omega⟩ hnone), rfl⟩
  | case5 before offset b rest h₀ h₁ h₂ x hx c hc ih =>
    obtain ⟨p, hp, rfl⟩ := ih h
    cases rest with
    | nil => cases hx
    | cons x' rest =>
      have hunit : (units? [b, x']).isSome := by
        rw [List.getElem?_cons_zero] at hx
        rw [units?_two h₂ (offset + 1), List.getElem?_cons_zero, hx]
        rfl
      exact ⟨2 + p, hp.append hunit, by omega⟩
  | case6 before offset b rest h₀ h₁ h₂ x hx hc =>
    obtain ⟨c, hc', -⟩ := char?_eq_some (twoBytes_isValidChar hx)
    rw [hc] at hc'
    cases hc'
  | case7 before offset b rest h₀ h₁ h₂ h₃ bad' hu =>
    cases h
    obtain ⟨k, hk, rfl⟩ := noUnit_of_threeBytes h₃ hu
    exact ⟨k, .of_noUnit hk, rfl⟩
  | case8 before offset b rest h₀ h₁ h₂ h₃ unit hu behind low hl c ih =>
    obtain ⟨p, hp, rfl⟩ := ih h
    split at hl
    · obtain ⟨a, rest', hbehind, ha, hlow, -⟩ := lowSurrogate?_eq_some_iff.1 hl
      rw [hbehind] at hp
      have hpair := hp.of_threeBytes ha hlow
      rw [← hbehind] at hpair
      exact ⟨3 + (3 + p), hpair.of_threeBytes h₃ hu, by omega⟩
    · cases hl
  | case9 before offset b rest h₀ h₁ h₂ h₃ unit hu behind hl ih =>
    obtain ⟨p, hp, rfl⟩ := ih h
    exact ⟨3 + p, hp.of_threeBytes h₃ hu, by omega⟩
  | case10 before offset b rest h₀ h₁ h₂ h₃ =>
    cases h
    rw [and_80_eq_zero_iff] at h₁
    rw [and_E0_eq_C0_iff] at h₂
    rw [and_F0_eq_E0_iff] at h₃
    exact ⟨0, .of_noUnit (.lead rest (by omega)), rfl⟩

theorem decode_eq_error_iff {base bad : Nat} {bytes : List UInt8} :
    decode base bytes = .error bad ↔ ∃ p, FailsAt bytes p ∧ bad = base + p := by
  have hfails : ∀ {bad}, decode base bytes = .error bad →
      ∃ p, FailsAt bytes p ∧ bad = base + p := by
    intro bad h
    rw [decode_eq_decodeFrom] at h
    exact failsAt_of_decodeFrom (map_eq_error_iff.1 h)
  refine ⟨hfails, ?_⟩
  rintro ⟨p, hp, rfl⟩
  cases hd : decode base bytes with
  | ok text =>
    have hunits := exists_decode_iff.1 ⟨text, hd⟩
    rw [hp.units?_eq_none] at hunits
    cases hunits
  | error bad =>
    obtain ⟨q, hq, rfl⟩ := hfails hd
    rw [hq.unique hp]

theorem decode_behind {base bad : Nat} {front behind : List UInt8}
    (h : decode base (front ++ behind) = .error bad)
    (hfront : ∃ text, decode base front = .ok text) :
    decode (base + front.length) behind = .error bad := by
  have hunits := exists_decode_iff.1 hfront
  obtain ⟨p, hp, rfl⟩ := decode_eq_error_iff.1 h
  cases hd : decode (base + front.length) behind with
  | ok text =>
    -- whole characters behind whole characters would have been decoded
    obtain ⟨units, hunits⟩ := Option.isSome_iff_exists.1 hunits
    have hnone := hp.units?_eq_none
    rw [units?_append hunits, Option.map_eq_none_iff] at hnone
    have hbehind := exists_decode_iff.1 ⟨text, hd⟩
    rw [hnone] at hbehind
    cases hbehind
  | error bad' =>
    obtain ⟨q, hq, rfl⟩ := decode_eq_error_iff.1 hd
    rw [hp.unique (hq.append hunits), Nat.add_assoc]

/-- What looking ahead finds wrong with three bytes is what is wrong with them when they come. -/
theorem decode_eq_of_threeBytes {base bad bad' : Nat} {lead : UInt8} {rest : List UInt8}
    (h : decode base (lead :: rest) = .error bad) (hlead : lead &&& 0xF0 = 0xE0)
    (hrest : threeBytes base lead rest = .error bad') : bad = bad' := by
  obtain ⟨k, hk, rfl⟩ := noUnit_of_threeBytes hlead hrest
  obtain ⟨p, hp, rfl⟩ := decode_eq_error_iff.1 h
  rw [hp.unique (.of_noUnit hk)]

theorem eq_length_iff {base bad p : Nat} {bytes : List UInt8} (h : decode base bytes = .error bad)
    (hp : IsGreatest {n | n ≤ bytes.length ∧ Viable base (bytes.take n)} p) :
    p = bytes.length ↔ ∃ more, more ≠ [] ∧ ∃ text, decode base (bytes ++ more) = .ok text := by
  constructor
  · rintro rfl
    obtain ⟨more, text, hmore⟩ := hp.1.2
    rw [List.take_length] at hmore
    refine ⟨more, ?_, text, hmore⟩
    rintro rfl
    rw [List.append_nil, h] at hmore
    cases hmore
  · rintro ⟨more, -, text, hmore⟩
    refine le_antisymm hp.1.1 (hp.2 ⟨le_rfl, more, text, ?_⟩)
    rwa [List.take_length]

/-- Decoding fails at the first byte behind which nothing helps: as far as it goes, the bytes are
the beginning of ones that are decoded. It goes to their end just if only their end is missing. The
offset is the one that the bytes behind whole characters give by themselves, so it is the same if
they were looked at before, ahead of a surrogate. -/
theorem decode_error_longest_viable {base bad : Nat} {bytes : List UInt8}
    (h : decode base bytes = .error bad) : ∃ p, bad = base + p ∧
      IsGreatest {n | n ≤ bytes.length ∧ Viable base (bytes.take n)} p ∧
      (p = bytes.length ↔ ∃ more, more ≠ [] ∧ ∃ text, decode base (bytes ++ more) = .ok text) ∧
      ∀ front behind, bytes = front ++ behind → (∃ text, decode base front = .ok text) →
        decode (base + front.length) behind = .error bad ∧
        ∀ lead rest bad', behind = lead :: rest → lead &&& 0xF0 = 0xE0 →
          threeBytes (base + front.length) lead rest = .error bad' → bad = bad' := by
  obtain ⟨p, hp, rfl⟩ := decode_eq_error_iff.1 h
  refine ⟨p, rfl, hp.isGreatest base, eq_length_iff h (hp.isGreatest base), ?_⟩
  rintro front behind rfl hfront
  have hbehind := decode_behind h hfront
  refine ⟨hbehind, ?_⟩
  rintro lead rest bad' rfl hlead hrest
  exact decode_eq_of_threeBytes hbehind hlead hrest

/-- A high surrogate before a low one whose last byte is wrong, and before one that is cut off. -/
theorem decode_error_longest_viable_pairs :
    let wrong : List UInt8 := [0x41, 0xED, 0xA0, 0x81, 0xED, 0xB0, 0x41]
    let cut : List UInt8 := [0xED, 0xA0, 0x81, 0xED, 0xB0]
    decode 10 wrong = .error 16 ∧ decode 14 [0xED, 0xB0, 0x41] = .error 16 ∧
      IsGreatest {n | n ≤ 7 ∧ Viable 10 (wrong.take n)} 6 ∧
      decode 10 cut = .error 15 ∧
      ∃ more, more ≠ [] ∧ ∃ text, decode 10 (cut ++ more) = .ok text := by
  intro wrong cut
  have hwrong : decode 10 wrong = .error 16 := by decide +kernel
  have hcut : decode 10 cut = .error 15 := by decide +kernel
  obtain ⟨p, hp, hgreatest, -, hbehind⟩ := decode_error_longest_viable hwrong
  obtain rfl : p = 6 := by omega
  obtain ⟨q, hq, -, hend, -⟩ := decode_error_longest_viable hcut
  obtain rfl : q = 5 := by omega
  have hfront : ∃ text, decode 10 [0x41, 0xED, 0xA0, 0x81] = .ok text :=
    ⟨"A\uFFFD", by decide +kernel⟩
  exact ⟨hwrong, (hbehind _ _ rfl hfront).1, hgreatest, hcut, hend.1 rfl⟩

end ClassSketch.ModifiedUtf8
