import ClassSketch.Proofs.DecodingFaults
import ClassSketch.Proofs.LayoutReading
import ClassSketch.Proofs.Requests
import ClassSketch.Proofs.Truncation

namespace ClassSketch.ClassFile

variable {α β : Type}

def knownTags : List UInt8 := [1, 3, 4, 5, 6, 7, 8, 9, 10, 11, 12, 15, 16, 17, 18, 19, 20]

theorem mem_knownTags_iff : ∀ tag : UInt8,
    tag ∈ knownTags ↔ tag = 1 ∨ tag = 7 ∨ (Constant.skipped? tag).isSome :=
  ModifiedUtf8.forall_byte (by decide +kernel)

theorem size_le_of_skipped? {tag : UInt8} {k : Constant} {size : Nat}
    (h : Constant.skipped? tag = some (k, size)) : size ≤ 8 := by
  obtain ⟨t, rfl⟩ := Layout.OtherTag.exists_code_of_skipped? h
  rw [t.skipped?_code] at h
  cases h
  cases t <;> decide

/-- The error tells the truth about what stands behind the header. -/
inductive Located (data : List UInt8) : ReadError → Prop where
  | truncated {o n : Nat} : 10 ≤ o → o ≤ data.length → 1 ≤ n →
    data.length - o + n ≤ 2 ^ 32 - 1 → Located data (.truncated o n)
  | badConstantTag {tag : UInt8} {o : Nat} (ho : o < data.length) : 10 ≤ o → data[o] = tag →
    tag ∉ knownTags → Located data (.badConstantTag tag o)
  | invalidText {o : Nat} : 13 ≤ o → o ≤ data.length → Located data (.invalidText o)
  | badConstantIndex (i : UInt16) : Located data (.badConstantIndex i)
  | constantKind {found wanted : ConstantKind} (i : UInt16) :
    wanted.label = "Utf8" ∨ wanted.label = "Class" → found.label ≠ wanted.label →
    found.label ≠ "unusable slot" → Located data (.constantKind i found wanted)
  | descriptor (text : String) (fault : Descriptor.Fault) : Located data (.descriptor text fault)

theorem Located.behind_header {data : List UInt8} {e : ReadError} (h : Located data e) :
    (∀ size, e ≠ .tooSmall size) ∧ (∀ found, e ≠ .invalidMagic found) ∧
      (∀ start stop size, e ≠ .rangeOutOfBounds start stop size) ∧ ∀ error, e ≠ .os error := by
  cases h <;> simp

theorem ConstantKind.label_injective : Function.Injective label := by
  intro a b h
  cases a <;> cases b <;> first | rfl | exact absurd h (by decide)

theorem ConstantKind.label_ne (k : ConstantKind) : k.label ≠ "unusable slot" := by
  cases k <;> decide

theorem allowsLookups_located (data : List UInt8) : AllowsLookups (Located data) where
  badConstantIndex i := .badConstantIndex i
  constantKind := by
    intro i found wanted hne hwanted
    refine .constantKind i ?_ (ConstantKind.label_injective.ne hne) found.label_ne
    obtain rfl | rfl := hwanted
    · exact .inl rfl
    · exact .inr rfl
  descriptor text fault := .descriptor text fault

theorem Within.of_readU8 {data : List UInt8} {start : Nat} {c c' : Cursor} {b : UInt8}
    (hc : Within data start c) (hb : readU8 c = .ok (b, c')) :
    Within data (start + 1) c' ∧ ∃ ho : c.offset < data.length, data[c.offset] = b := by
  obtain ⟨_, rfl, hrest, hoffset⟩ := (Recognizes.readU8 c c' b).1 hb
  have hlen : c.rest.length = c'.rest.length + 1 := congrArg List.length hrest
  have ho : c.offset < data.length := by
    rw [hc.length_rest] at hlen
    omega
  rw [hc.rest_eq, List.drop_eq_getElem_cons ho] at hrest
  obtain ⟨hbyte, hbehind⟩ := List.cons.inj hrest
  refine ⟨⟨?_, ?_, ?_⟩, ho, hbyte⟩
  · rw [hoffset]
    exact Nat.succ_le_succ hc.start_le
  · rw [hoffset]
    exact ho
  · rw [hoffset]
    exact hbehind.symm

/-- Taken anywhere in the file from `start` on, the step fails with located errors only. -/
def Truthful (data : List UInt8) (start : Nat) (step : ReadM α) : Prop :=
  ∀ c, Within data start c → Traced (Located data) step c

namespace Truthful

variable {data : List UInt8} {start : Nat}

protected theorem pure (a : α) : Truthful data start (pure a) := fun _ _ => Traced.pure a

protected theorem lift {x : Except ReadError α} (hx : ∀ e, x = .error e → Located data e) :
    Truthful data start (liftM x : ReadM α) := fun _ _ => Traced.lift hx

protected theorem bind {step : ReadM α} {f : α → ReadM β} (h : Truthful data start step)
    (hf : ∀ a, Truthful data start (f a)) : Truthful data start (step >>= f) :=
  fun c hc => (h c hc).bind fun a c' ha => hf a c' ((h c hc).within hc ha)

variable (hstart : 10 ≤ start)
include hstart

protected theorem take {n : Nat} (hn : n < 2 ^ 32) : Truthful data start (take n) := by
  intro c hc
  refine Traced.take fun hlt => ?_
  have hlen := hc.length_rest
  exact .truncated (Nat.le_trans hstart hc.start_le) hc.offset_le (by omega) (by omega)

theorem take_bind {n : Nat} (hn : n < 2 ^ 32) {f : List UInt8 → ReadM β}
    (hf : ∀ bytes, Truthful data (start + n) (f bytes)) :
    Truthful data start (ClassFile.take n >>= f) :=
  fun c hc => (Truthful.take hstart hn c hc).bind fun bytes c' ha => hf bytes c' (hc.of_take ha)

theorem readU16_bind {f : UInt16 → ReadM β} (hf : ∀ n, Truthful data (start + 2) (f n)) :
    Truthful data start (readU16 >>= f) := by
  rw [readU16, bind_assoc]
  exact take_bind hstart (by decide) fun bytes => hf _

theorem compositional : Compositional (fun _ => Truthful data start) (Located data) where
  toAllowsLookups := allowsLookups_located data
  pure := Truthful.pure
  lift := Truthful.lift
  bind := Truthful.bind
  take := Truthful.take hstart

protected theorem readText : Truthful data (start + 1) readText := by
  have hstart' : 10 ≤ start + 1 := Nat.le_succ_of_le hstart
  rw [readText_eq]
  refine readU16_bind hstart' fun length c hc => Traced.at_offset ?_
  refine (Truthful.take (Nat.le_add_right_of_le hstart') ?_ c hc).bind fun payload c' hpayload =>
    Traced.lift fun e he => ?_
  · exact Nat.lt_trans length.toNat_lt (by decide)
  · obtain ⟨_, ⟨rfl, hlength⟩, -, hoffset⟩ := (Recognizes.take _ c c' payload).1 hpayload
    have hend := (hc.of_take hpayload).offset_le
    have hbase := hc.start_le
    obtain ⟨bad, hbad, rfl⟩ := mapError_eq_error_iff.1 he
    obtain ⟨p, hp, rfl⟩ := ModifiedUtf8.decode_eq_error_iff.1 hbad
    have hle : p ≤ payload.length := (hp.isGreatest c.offset).1.1
    exact .invalidText (by omega) (by omega)

protected theorem readConstant : Truthful data start (plain readConstant) := by
  rw [plain_readConstant]
  intro c hc
  refine Traced.at_offset (((compositional hstart).readU8 c hc).bind fun tag c' htag => ?_)
  obtain ⟨hc', ho, hbyte⟩ := hc.of_readU8 htag
  have hstart' : 10 ≤ start + 1 := Nat.le_succ_of_le hstart
  rw [constantBehind]
  split
  · exact ((Truthful.readText hstart).bind fun text => Truthful.pure _) c' hc'
  · rename_i h₁
    split
    · exact ((compositional hstart').readU16.bind fun i => Truthful.pure _) c' hc'
    · rename_i h₇
      split
      · rename_i hskipped
        have hsize := size_le_of_skipped? hskipped
        exact (((compositional hstart').skip (by omega)).bind fun _ => Truthful.pure _) c' hc'
      · rename_i hnone
        have hunknown : tag ∉ knownTags := by
          intro hmem
          obtain h | h | h := (mem_knownTags_iff tag).1 hmem
          · exact h₁ h
          · exact h₇ h
          · rw [hnone] at h
            cases h
        exact Traced.throw
          (.badConstantTag ho (Nat.le_trans hstart hc.start_le) hbyte hunknown)

protected theorem readConstants (before : List Constant) (n : Nat) :
    Truthful data start (plain (readConstants before n)) := by
  induction before, n using readConstants.induct with
  | case1 before =>
    rw [plain_readConstants_zero]
    exact Truthful.pure before.reverse
  | case2 before n hn ih =>
    rw [plain_readConstants hn]
    exact (Truthful.readConstant hstart).bind ih

protected theorem readCounted (count : UInt16) : Truthful data start (readCounted count) :=
  (Truthful.readConstants hstart [] _).bind fun _ => (compositional hstart).readParts _

end Truthful

def readWhole : ReadM ClassDecl := do
  let _ ← readHeader
  readBody

theorem Traced.readU16_of_le {P : ReadError → Prop} {c : Cursor} (h : 2 ≤ c.rest.length) :
    Traced P readU16 c :=
  (Traced.take fun hlt => absurd h (Nat.not_le.2 hlt)).bind fun _ _ _ => Traced.pure _

theorem within_bodyStart {data : List UInt8} (h : headerSize ≤ data.length) :
    Within data 8 (bodyStart data) :=
  ⟨Nat.le_refl 8, Nat.le_trans (Nat.le_add_right 8 2) h, rfl⟩

theorem traced_readBody {data : List UInt8} (h : headerSize ≤ data.length) :
    Traced (Located data) readBody (bodyStart data) := by
  have hc := within_bodyStart h
  have hlen : 2 ≤ (bodyStart data).rest.length := by
    rw [hc.length_rest]
    exact Nat.le_sub_of_add_le' h
  rw [readBody_eq_readCounted]
  -- the count word belongs to the header, so it cannot be cut off
  refine (Traced.readU16_of_le hlen).bind fun count c' hcount => ?_
  obtain ⟨n, hn⟩ := exists_readU16 hlen
  cases hn.symm.trans hcount
  exact Truthful.readCounted (Nat.le_refl 10) count _ (hc.take hlen)

theorem traced_readHeader {c : Cursor} : Traced (fun _ => True) readHeader c := by
  have hnumber : ∀ {α : Type} {n : Nat} {f : List UInt8 → α} {c : Cursor},
      Traced (fun _ => True) (do return f (← take n)) c :=
    (Traced.take fun _ => trivial).bind fun _ _ _ => Traced.pure _
  rw [readHeader_eq]
  exact hnumber.bind fun found _ _ => (Traced.lift fun _ _ => trivial).bind fun _ _ _ =>
    hnumber.bind fun minor _ _ => hnumber.bind fun major _ _ => Traced.pure _

theorem eq_bodyStart {data : List UInt8} {v : Version} {c : Cursor}
    (h : readHeader ⟨0, data⟩ = .ok (v, c)) : c = bodyStart data := by
  obtain ⟨_, rfl, hdata, hoffset⟩ := (Recognizes.readHeader _ c v).1 h
  obtain ⟨o, rest⟩ := c
  have hlen := Layout.length_header v.minor v.major
  dsimp only at hdata hoffset
  rw [bodyStart, hdata, List.drop_left' hlen, hoffset, hlen, Nat.zero_add]

theorem value_read_eq {data : List UInt8} (h : headerSize ≤ data.length) :
    (read data).run.value = (·.1) <$> readWhole ⟨0, data⟩ := by
  rw [value_read, peekVersion, if_neg (Nat.not_lt.2 h), readWhole, bind_apply]
  cases hr : readHeader ⟨0, data⟩ with
  | error e => rfl
  | ok p =>
    obtain ⟨v, c⟩ := p
    obtain rfl := eq_bodyStart hr
    rfl

theorem traced_readWhole {data : List UInt8} (h : headerSize ≤ data.length) :
    Traced (fun _ => True) readWhole ⟨0, data⟩ := by
  refine traced_readHeader.bind fun v c hv => ?_
  obtain rfl := eq_bodyStart hv
  exact (traced_readBody h).mono fun _ _ => trivial

theorem peekVersion_eq_error_iff {data : List UInt8} (h : headerSize ≤ data.length)
    {e : ReadError} : peekVersion data = .error e ↔
      e = .invalidMagic (firstWord data) ∧ firstWord data ≠ magic := by
  obtain ⟨p, hp⟩ := readHeader_of_le (c := ⟨0, data⟩) h
  rw [peekVersion, if_neg (Nat.not_lt.2 h), map_eq_error_iff, hp, map_eq_error_iff,
    checkMagic_eq_error_iff]

theorem value_read_error_cases {data : List UInt8} {e : ReadError} (h : headerSize ≤ data.length)
    (he : (read data).run.value = .error e) :
    (firstWord data ≠ magic ∧ e = .invalidMagic (firstWord data)) ∨
      (firstWord data = magic ∧ Located data e) := by
  rw [value_read, bind_eq_error_iff] at he
  obtain hv | ⟨version, hv, hbody⟩ := he
  · exact .inl ((peekVersion_eq_error_iff h).1 hv).symm
  · refine .inr ⟨?_, (traced_readBody h).error e (map_eq_error_iff.1 hbody)⟩
    by_contra hne
    cases hv.symm.trans ((peekVersion_eq_error_iff h).2 ⟨rfl, hne⟩)

/-- What the error of a refused file tells. -/
structure Tells (data : List UInt8) (e : ReadError) : Prop where
  tooSmall_iff : e = .tooSmall data.length ↔ data.length < 10
  invalidMagic_iff : 10 ≤ data.length → ∀ v,
    e = .invalidMagic v ↔ bigEndian (data.take 4) = v.toNat ∧ v ≠ 0xCAFEBABE
  located : 10 ≤ data.length → bigEndian (data.take 4) = 0xCAFEBABE → Located data e
  ne_rangeOutOfBounds : ∀ start stop size, e ≠ .rangeOutOfBounds start stop size
  ne_os : ∀ error, e ≠ .os error

theorem bigEndian_eq_toNat_iff {data : List UInt8} {v : UInt32} :
    bigEndian (data.take 4) = v.toNat ↔ v = firstWord data := by
  rw [← toNat_firstWord, UInt32.toNat_inj, eq_comm]

theorem tells_of_tooSmall {data : List UInt8} (h : data.length < headerSize) :
    Tells data (.tooSmall data.length) where
  tooSmall_iff := iff_of_true rfl h
  invalidMagic_iff hle := absurd h (Nat.not_lt.2 hle)
  located hle := absurd h (Nat.not_lt.2 hle)
  ne_rangeOutOfBounds := nofun
  ne_os := nofun

theorem tells_of_invalidMagic {data : List UInt8} (h : headerSize ≤ data.length)
    (hne : firstWord data ≠ magic) : Tells data (.invalidMagic (firstWord data)) where
  tooSmall_iff := iff_of_false nofun (Nat.not_lt.2 h)
  invalidMagic_iff _ v := by
    rw [bigEndian_eq_toNat_iff, ReadError.invalidMagic.injEq, eq_comm]
    refine ⟨fun hv => ⟨hv, ?_⟩, And.left⟩
    rwa [hv]
  located _ hmagic := absurd (bigEndian_eq_toNat_iff (v := magic).1 hmagic).symm hne
  ne_rangeOutOfBounds := nofun
  ne_os := nofun

theorem tells_of_located {data : List UInt8} {e : ReadError} (h : headerSize ≤ data.length)
    (hmagic : firstWord data = magic) (he : Located data e) : Tells data e := by
  obtain ⟨hsmall, hinvalid, hrange, hos⟩ := he.behind_header
  refine ⟨iff_of_false (hsmall _) (Nat.not_lt.2 h), fun _ v => ?_, fun _ _ => he, hrange, hos⟩
  refine iff_of_false (hinvalid v) fun ⟨hv, hne⟩ => hne ?_
  rw [bigEndian_eq_toNat_iff.1 hv, hmagic]
  rfl

theorem tells_of_read_error {data : List UInt8} {e : ReadError}
    (he : (read data).run.value = .error e) : Tells data e := by
  obtain hsmall | h := Nat.lt_or_ge data.length headerSize
  · cases (value_read_of_lt hsmall).symm.trans he
    exact tells_of_tooSmall hsmall
  · obtain ⟨hne, rfl⟩ | ⟨hmagic, hlocated⟩ := value_read_error_cases h he
    · exact tells_of_invalidMagic h hne
    · exact tells_of_located h hmagic hlocated

/-- The request is made inside the file, for bytes up to an offset of 64 bits. If these are not all
there, the run ends with that. -/
structure Bounded (data : List UInt8) (r : Except ReadError (ClassDecl × Cursor)) (ask : Request) :
    Prop where
  within : Within data 0 ask.cursor
  end_lt : ask.cursor.offset + ask.size < 2 ^ 64
  end_le : ask.cursor.offset + ask.size ≤ data.length ∨ r = .error
    (.truncated ask.cursor.offset (ask.cursor.offset + ask.size - data.length))

theorem bounded_of_runs {data : List UInt8} {asks : List Request}
    {r : Except ReadError (ClassDecl × Cursor)} {ask : Request} (hsize : data.length < 2 ^ 63)
    (h : headerSize ≤ data.length) (hruns : Runs readWhole ⟨0, data⟩ asks r) (hask : ask ∈ asks)
    (hwithin : Within data 0 ask.cursor) : Bounded data r ask := by
  have hlen := hwithin.length_rest
  have hle := hwithin.offset_le
  obtain hfits | hr := hruns.fits_or_truncated hask
  · exact ⟨hwithin, by omega, .inl (by omega)⟩
  · have hmissing : ask.size - ask.cursor.rest.length =
        ask.cursor.offset + ask.size - data.length := by omega
    rw [hmissing] at hr
    have hvalue : (read data).run.value = .error
        (.truncated ask.cursor.offset (ask.cursor.offset + ask.size - data.length)) := by
      rw [value_read_eq h, ← hruns.eq, hr]
      rfl
    obtain ⟨-, -, hbody⟩ := readBody_of_value_truncated hvalue
    -- the error tells how much was missing, which is no more than a length of four bytes
    cases (traced_readBody h).error _ hbody with
    | truncated _ _ _ hend => exact ⟨hwithin, by omega, .inr hr⟩

/-- A refused file is refused for what is wrong with it, at the place where that is. To find it,
the bytes of the file are asked for one after the other, never from behind its end, and what is
asked for ends at an offset of 64 bits. -/
theorem read_faults_located {data : List UInt8} (hsize : data.length < 2 ^ 63) :
    (∀ e, (read data).run.value = .error e → Tells data e) ∧
    (10 ≤ data.length →
      (∃ asks r, Runs readWhole ⟨0, data⟩ asks r ∧ (·.1) <$> r = (read data).run.value) ∧
      ∀ asks r, Runs readWhole ⟨0, data⟩ asks r →
        (∀ ask ∈ asks, Bounded data r ask) ∧ ∀ c c', r = .ok (c, c') → Within data 0 c') := by
  refine ⟨fun e => tells_of_read_error, fun h => ⟨?_, fun asks r hruns => ?_⟩⟩
  · obtain ⟨asks, hruns⟩ := (traced_readWhole h).runs
    exact ⟨asks, _, hruns, (value_read_eq h).symm⟩
  · have hfront : Within data 0 ⟨0, data⟩ := ⟨Nat.le_refl 0, Nat.zero_le _, rfl⟩
    obtain ⟨hasks, hend⟩ := hruns.within hfront
    exact ⟨fun ask hask => bounded_of_runs hsize h hruns hask (hasks ask hask), hend⟩

/-- An attribute of the greatest length of which nothing is there, and a text whose last unit is cut
off by the end of the file. -/
theorem read_faults_located_ends :
    let long : List UInt8 := [0xCA, 0xFE, 0xBA, 0xBE, 0, 0, 0, 52, 0, 3, 1, 0, 1, 66, 7, 0, 1,
      0, 0, 0, 2, 0, 0, 0, 0, 0, 0, 0, 0, 0, 1, 0, 1, 0xFF, 0xFF, 0xFF, 0xFF]
    let text : List UInt8 := [0xCA, 0xFE, 0xBA, 0xBE, 0, 0, 0, 52, 0, 2, 1, 0, 1, 0xC0]
    long.length < 2 ^ 63 ∧ text.length < 2 ^ 63 ∧
      (read long).run.value = .error (.truncated long.length (2 ^ 32 - 1)) ∧
      Tells long (.truncated long.length (2 ^ 32 - 1)) ∧
      (∃ asks r, Runs readWhole ⟨0, long⟩ asks r ∧ ∀ ask ∈ asks, Bounded long r ask) ∧
      (read text).run.value = .error (.invalidText text.length) ∧
      Tells text (.invalidText text.length) := by
  intro long text
  have hlong : long.length < 2 ^ 63 := by decide
  have htext : text.length < 2 ^ 63 := by decide
  have hread : (read long).run.value = .error (.truncated long.length (2 ^ 32 - 1)) := by
    decide +kernel
  have hread' : (read text).run.value = .error (.invalidText text.length) := by decide +kernel
  obtain ⟨htells, hrun⟩ := read_faults_located hlong
  obtain ⟨⟨asks, r, hruns, -⟩, hasks⟩ := hrun (by decide)
  exact ⟨hlong, htext, hread, htells _ hread, ⟨asks, r, hruns, (hasks asks r hruns).1⟩,
    hread', (read_faults_located htext).1 _ hread'⟩

end ClassSketch.ClassFile
