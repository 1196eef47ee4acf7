import ClassSketch.Proofs.ConstantPool

namespace ClassSketch.ClassFile

open Layout

theorem exists_u16_iff {bytes : List UInt8} : (∃ n, bytes = u16 n) ↔ bytes.length = 2 := by
  constructor
  · rintro ⟨n, rfl⟩
    exact length_digits 2 n.toNat
  · intro h
    have hlt : bigEndian bytes < 256 ^ 2 := by
      rw [← h]
      exact bigEndian_lt bytes
    refine ⟨.ofNat (bigEndian bytes), ?_⟩
    rw [u16, UInt16.toNat_ofNat_of_lt' hlt, ← h, digits_bigEndian]

theorem className?_eq_ok_iff {pool : ConstantPool} {i : UInt16} {name? : Option String} :
    pool.className? i = .ok name? ↔ if i = 0 then name? = none
      else ∃ name, pool.className i = .ok name ∧ name? = some name := by
  rw [ConstantPool.className?]
  split
  · rw [Except.ok.injEq, eq_comm]
  · rw [map_eq_ok_iff]
    exact exists_congr fun name => and_congr_right fun _ => eq_comm

theorem checkField_eq_ok_iff {s : String} : checkField s = .ok () ↔ IsFieldDescriptor s := by
  rw [checkField, bind_eq_ok_iff]
  constructor
  · rintro ⟨t, ht, -⟩
    exact ⟨t, Descriptor.TypeDescriptor.parse_eq_ok_iff.1 ht⟩
  · rintro ⟨t, ht⟩
    exact ⟨t, Descriptor.TypeDescriptor.parse_eq_ok_iff.2 ht, rfl⟩

theorem checkMethod_eq_ok_iff {s : String} : checkMethod s = .ok () ↔ IsMethodDescriptor s := by
  rw [checkMethod, bind_eq_ok_iff]
  constructor
  · rintro ⟨m, hm, -⟩
    exact ⟨m, Descriptor.MethodDescriptor.parse_eq_ok_iff.1 hm⟩
  · rintro ⟨m, hm⟩
    exact ⟨m, Descriptor.MethodDescriptor.parse_eq_ok_iff.2 hm, rfl⟩

namespace Recognizes

protected theorem table {α δ : Type} {entry : ReadM α} {encode : δ → List UInt8}
    {means : δ → α → Prop}
    (h : Recognizes entry fun bytes v => ∃ d, bytes = encode d ∧ means d v) :
    Recognizes (table entry) fun bytes vs => ∃ t : Table δ, bytes = t.encode encode ∧
      List.Forall₂ means t.entries vs := by
  refine (readU16_bind fun n => h.times n.toNat []).congr fun bytes vs => ?_
  constructor
  · rintro ⟨n, _, rfl, ds, ws, hn, rfl, hm, rfl⟩
    have hs : ds.length < 2 ^ 16 := hn ▸ n.toNat_lt
    exact ⟨⟨ds, hs⟩, by rw [u16, ← hn]; rfl, hm⟩
  · rintro ⟨⟨ds, hs⟩, rfl, hm⟩
    have hn : (UInt16.ofNat ds.length).toNat = ds.length := UInt16.toNat_ofNat_of_lt' hs
    exact ⟨.ofNat ds.length, ds.flatMap encode, by rw [u16, hn]; rfl, ds, vs, hn.symm, rfl, hm, rfl⟩

protected theorem skipAttributes : Recognizes skipAttributes fun bytes _ =>
    ∃ t : Table Attribute, bytes = t.encode Attribute.encode := by
  have hentry : Recognizes (do
      ClassFile.skip 2
      ClassFile.skip (← readU32).toNat) fun bytes _ =>
        ∃ a : Attribute, bytes = a.encode ∧ True := by
    refine ((Recognizes.skip 2).bind fun _ => Recognizes.readU32.bind fun n =>
      Recognizes.skip n.toNat).congr fun bytes v => ?_
    constructor
    · rintro ⟨_, _, _, rfl, hi, _, n, content, rfl, rfl, hl⟩
      obtain ⟨i, rfl⟩ := exists_u16_iff.2 hi
      have hs : content.length < 2 ^ 32 := hl ▸ n.toNat_lt
      exact ⟨⟨i, content, hs⟩, by rw [u32, ← hl]; rfl, trivial⟩
    · rintro ⟨⟨i, content, hs⟩, rfl, -⟩
      have hn : (UInt32.ofNat content.length).toNat = content.length :=
        UInt32.toNat_ofNat_of_lt' hs
      exact ⟨u16 i, (), _, rfl, exists_u16_iff.1 ⟨i, rfl⟩, _, .ofNat content.length, content, rfl,
        by rw [u32, hn], hn.symm⟩
  refine ((Recognizes.table hentry).map fun _ => ()).congr fun bytes v => ?_
  constructor
  · rintro ⟨_, ⟨t, rfl, -⟩, -⟩
    exact ⟨t, rfl⟩
  · rintro ⟨t, rfl⟩
    refine ⟨t.entries.map fun _ => (), ⟨t, rfl, ?_⟩, rfl⟩
    exact List.forall₂_map_right_iff.2 (List.forall₂_same.2 fun _ _ => trivial)

protected theorem readMember (pool : ConstantPool) (owner : String)
    (check : String → Except Descriptor.Fault Unit) :
    Recognizes (readMember pool owner check) fun bytes m => ∃ l : Member, bytes = l.encode ∧
      l.Describes (fun i s => pool.text i = .ok s) owner (fun s => check s = .ok ()) m := by
  rw [readMember_eq]
  refine (readU16_bind fun access => readU16_bind fun i => lift_bind fun name =>
    readU16_bind fun j => lift_bind fun descriptor => lift_bind fun _ =>
      Recognizes.skipAttributes.map fun _ => _).congr fun bytes m => ?_
  constructor
  · rintro ⟨access, _, rfl, i, _, rfl, name, hname, j, _, rfl, descriptor, hdescriptor, _, hvalid,
      _, ⟨attributes, rfl⟩, rfl⟩
    exact ⟨⟨access, i, j, attributes⟩, rfl, rfl, rfl, hname, hdescriptor, mapError_eq_ok_iff.1 hvalid⟩
  · rintro ⟨⟨access, i, j, attributes⟩, rfl, howner, haccess, hname, hdescriptor, hvalid⟩
    obtain ⟨o, name, a, descriptor⟩ := m
    cases howner
    cases haccess
    exact ⟨access, _, rfl, i, _, rfl, name, hname, j, _, rfl, descriptor, hdescriptor, (),
      mapError_eq_ok_iff.2 hvalid, (), ⟨attributes, rfl⟩, rfl⟩

theorem members (pool : ConstantPool) (owner : String)
    {check : String → Except Descriptor.Fault Unit} {valid : String → Prop}
    (hcheck : ∀ {s}, check s = .ok () ↔ valid s) :
    Recognizes (ClassFile.table (ClassFile.readMember pool owner check)) fun bytes ms =>
      ∃ t : Table Member, bytes = t.encode Member.encode ∧ List.Forall₂
        (Member.Describes (fun i s => pool.text i = .ok s) owner valid) t.entries ms := by
  have h := Recognizes.table (Recognizes.readMember pool owner check)
  simpa only [hcheck] using h

protected theorem readFront (pool : ConstantPool) :
    Recognizes (readFront pool) fun bytes c => ∃ p : Parts, bytes = p.upToFields ∧ ∃ d,
      p.Describe (fun i s => pool.text i = .ok s) (fun i s => pool.className i = .ok s) d ∧
        c = { d with methods := [] } := by
  have hinterface : Recognizes (do pool.className (← readU16)) fun bytes s =>
      ∃ i, bytes = u16 i ∧ pool.className i = .ok s := by
    refine (readU16_bind fun i => Recognizes.lift _).congr fun bytes s => ?_
    constructor
    · rintro ⟨i, _, rfl, rfl, hs⟩
      exact ⟨i, List.append_nil _, hs⟩
    · rintro ⟨i, rfl, hs⟩
      exact ⟨i, [], (List.append_nil _).symm, rfl, hs⟩
  refine (readU16_bind fun access => readU16_bind fun i => lift_bind fun name =>
    readU16_bind fun j => lift_bind fun superName =>
      (Recognizes.table hinterface).bind_encoded fun interfaces =>
        (members pool name @checkField_eq_ok_iff).map fun _ => _).congr fun bytes c => ?_
  constructor
  · rintro ⟨access, _, rfl, i, _, rfl, name, hname, j, _, rfl, superName, hsuper, is, interfaces, _,
      rfl, hinterfaces, fields, ⟨fs, rfl, hfields⟩, rfl⟩
    exact ⟨⟨access, i, j, is, fs, .empty, .empty⟩, rfl,
      { name, access, superName, interfaces, fields }, ⟨rfl, hname, className?_eq_ok_iff.1 hsuper,
        hinterfaces, hfields, .nil⟩, rfl⟩
  · rintro ⟨⟨access, i, j, is, fs, ms, attributes⟩, rfl, ⟨name, a, superName, interfaces, fields,
      methods⟩, ⟨haccess, hname, hsuper, hinterfaces, hfields, -⟩, rfl⟩
    cases haccess
    exact ⟨access, _, rfl, i, _, rfl, name, hname, j, _, rfl, superName,
      className?_eq_ok_iff.2 hsuper, is, interfaces, _, rfl, hinterfaces, fields, ⟨fs, rfl, hfields⟩,
      rfl⟩

protected theorem readMembers (pool : ConstantPool) :
    Recognizes (readMembers pool) fun bytes c => ∃ p : Parts, bytes = p.upToMethods ∧
      p.Describe (fun i s => pool.text i = .ok s) (fun i s => pool.className i = .ok s) c := by
  refine ((Recognizes.readFront pool).bind_encoded fun c =>
    (members pool c.name @checkMethod_eq_ok_iff).map fun _ => _).congr fun bytes c => ?_
  constructor
  · rintro ⟨p, _, _, rfl, ⟨d, hd, rfl⟩, methods, ⟨ms, rfl, hmethods⟩, rfl⟩
    let whole : Parts := { p with methods := ms }
    exact ⟨whole, rfl, hd.access, hd.name, hd.superName, hd.interfaces, hd.fields, hmethods⟩
  · rintro ⟨p, rfl, hd⟩
    exact ⟨p, _, _, rfl, ⟨c, hd, rfl⟩, c.methods, ⟨p.methods, rfl, hd.methods⟩, rfl⟩

protected theorem readParts (pool : ConstantPool) :
    Recognizes (readParts pool) fun bytes c => ∃ p : Parts, bytes = p.encode ∧
      p.Describe (fun i s => pool.text i = .ok s) (fun i s => pool.className i = .ok s) c := by
  rw [readParts_eq]
  refine ((Recognizes.readMembers pool).bind_encoded fun c =>
    Recognizes.skipAttributes.map fun _ => c).congr fun bytes c => ?_
  constructor
  · rintro ⟨p, d, _, rfl, hd, _, ⟨attributes, rfl⟩, rfl⟩
    let whole : Parts := { p with attributes }
    exact ⟨whole, whole.encode_eq.symm, hd.access, hd.name, hd.superName, hd.interfaces, hd.fields,
      hd.methods⟩
  · rintro ⟨p, rfl, hd⟩
    exact ⟨p, c, _, p.encode_eq, hd, (), ⟨p.attributes, rfl⟩, rfl⟩

end Recognizes

namespace Layout

theorem fills_of_counted {es : List Entry} {count : Nat} (h : Counted es count) :
    Fills (count - 1) es := by
  rcases h with rfl | ⟨hlast, rfl⟩
  · exact .inl (Nat.add_sub_cancel_left ..).symm
  · have htwo := two_le_totalWidth hlast
    exact .inr ⟨hlast, by omega⟩

theorem counted_of_fills {es : List Entry} {count : Nat} (hne : es ≠ [])
    (h : Fills (count - 1) es) : Counted es count := by
  have hpos := totalWidth_pos hne
  rcases h with h | ⟨hlast, h⟩
  · exact .inl (by omega)
  · have htwo := two_le_totalWidth hlast
    exact .inr ⟨hlast, by omega⟩

theorem IsClassName.ne_nil {es : List Entry} {i : UInt16} {name : String}
    (h : IsClassName es i name) : es ≠ [] := by
  obtain ⟨_, ⟨before, after, rfl, -⟩, -⟩ := h
  exact List.append_ne_nil_of_right_ne_nil _ (List.cons_ne_nil _ _)

end Layout

namespace Recognizes

theorem behindPool {α : Type} {step : ConstantPool → ReadM α} {front : Parts → List UInt8}
    {means : ClassDecl → α → Prop}
    (h : ∀ pool, Recognizes (step pool) fun bytes a => ∃ p : Parts, bytes = front p ∧ ∃ c,
      p.Describe (fun i s => pool.text i = .ok s) (fun i s => pool.className i = .ok s) c ∧
        means c a) :
    Recognizes (plain ConstantPool.read >>= step) fun bytes a =>
      ∃ (count : UInt16) (es : List Entry) (p : Parts), Counted es count.toNat ∧
        bytes = u16 count ++ (es.flatMap Entry.encode ++ front p) ∧
          ∃ c, p.Describe (IsText es) (IsClassName es) c ∧ means c a := by
  refine (Recognizes.readPool.bind h).congr fun bytes a => ?_
  constructor
  · rintro ⟨_, _, _, rfl, ⟨count, es, hf, rfl, rfl⟩, p, rfl, c, hc, ha⟩
    simp only [text_eq_ok_iff hf, className_eq_ok_iff hf] at hc
    exact ⟨count, es, p, counted_of_fills hc.name.ne_nil hf, List.append_assoc .., c, hc, ha⟩
  · rintro ⟨count, es, p, hcount, rfl, c, hc, ha⟩
    have hf := fills_of_counted hcount
    refine ⟨_, _, front p, (List.append_assoc ..).symm, ⟨count, es, hf, rfl, rfl⟩, p, rfl, c, ?_, ha⟩
    simpa only [text_eq_ok_iff hf, className_eq_ok_iff hf] using hc

theorem describing {step : ConstantPool → ReadM ClassDecl} {front : Parts → List UInt8}
    (h : ∀ pool, Recognizes (step pool) fun bytes c => ∃ p : Parts, bytes = front p ∧
      p.Describe (fun i s => pool.text i = .ok s) (fun i s => pool.className i = .ok s) c)
    (pool : ConstantPool) : Recognizes (step pool) fun bytes a => ∃ p : Parts, bytes = front p ∧
      ∃ c, p.Describe (fun i s => pool.text i = .ok s) (fun i s => pool.className i = .ok s) c ∧
        c = a := by
  simpa only [exists_eq_right] using h pool

protected theorem readBody : Recognizes readBody fun bytes c =>
    ∃ (count : UInt16) (es : List Entry) (p : Parts), Counted es count.toNat ∧
      bytes = u16 count ++ (es.flatMap Entry.encode ++ p.encode) ∧
        p.Describe (IsText es) (IsClassName es) c := by
  have hbody := behindPool (describing Recognizes.readParts)
  simp only [exists_eq_right] at hbody
  exact hbody

protected theorem readHeader : Recognizes readHeader fun bytes v =>
    bytes = header v.minor v.major := by
  have hmagic : ∀ found, checkMagic found = .ok () ↔ found = magic := by
    intro found
    rw [checkMagic]
    split <;> simp_all
  rw [readHeader_eq]
  refine (Recognizes.readU32.bind fun found => lift_bind fun _ => readU16_bind fun minor =>
    Recognizes.readU16.map fun major => Version.mk major minor).congr fun bytes v => ?_
  constructor
  · rintro ⟨_, found, _, rfl, rfl, _, hfound, minor, _, rfl, major, rfl, rfl⟩
    rw [(hmagic found).1 hfound]
    rfl
  · rintro rfl
    exact ⟨u32 magic, magic, _, rfl, rfl, (), (hmagic magic).2 rfl, v.minor, _, rfl, v.major, rfl,
      rfl⟩

end Recognizes

namespace Layout

theorem length_header (minor major : UInt16) : (header minor major).length = headerSize - 2 := by
  simp [header, u16, headerSize]

theorem headerSize_le_length_upTo (l : Layout) (front : Parts → List UInt8) :
    headerSize ≤ (l.upTo front).length := by
  rw [upTo, List.length_append, List.length_append, length_header, u16, length_digits, headerSize]
  omega

theorem headerSize_le_length_encode (l : Layout) : headerSize ≤ l.encode.length :=
  l.headerSize_le_length_upTo Parts.encode

end Layout

theorem peekVersion_eq_ok_iff {data : List UInt8} {v : Version} :
    peekVersion data = .ok v ↔
      headerSize ≤ data.length ∧ ∃ rest, data = header v.minor v.major ++ rest := by
  rw [peekVersion]
  split
  · rename_i hsmall
    constructor
    · intro h
      cases h
    · rintro ⟨hle, -⟩
      omega
  · rename_i hle
    rw [map_eq_ok_iff, not_lt] at *
    constructor
    · rintro ⟨⟨_, c'⟩, hr, rfl⟩
      obtain ⟨_, rfl, hdata, -⟩ := (Recognizes.readHeader _ c' _).1 hr
      exact ⟨hle, c'.rest, hdata⟩
    · rintro ⟨-, rest, rfl⟩
      exact ⟨(v, ⟨_, rest⟩), (Recognizes.readHeader _ _ v).2 ⟨_, rfl, rfl, rfl⟩, rfl⟩

theorem Layout.Describes.unique {l : Layout} {c c' : ClassDecl} (h : l.Describes c)
    (h' : l.Describes c') : c = c' := by
  let body := u16 l.count ++ (l.constants.flatMap Entry.encode ++ l.toParts.encode)
  have hread : ∀ d, l.Describes d → readBody ⟨0, body⟩ = .ok (d, ⟨body.length, []⟩) := by
    intro d hd
    exact (Recognizes.readBody _ _ d).2 ⟨body, ⟨l.count, l.constants, l.toParts, l.counted, rfl, hd⟩,
      (List.append_nil _).symm, (Nat.zero_add _).symm⟩
  have heq := (hread c h).symm.trans (hread c' h')
  exact (Prod.mk.inj (Except.ok.inj heq)).1

/-- A class is read just when the bytes start with a layout that describes it. -/
theorem read_eq_ok_iff_layout (data : List UInt8) (c : ClassDecl) :
    (read data).run.value = .ok c ↔
      ∃ (l : Layout) (rest : List UInt8), data = l.encode ++ rest ∧ l.Describes c := by
  rw [value_read_eq_ok_iff]
  constructor
  · rintro ⟨⟨v, hv⟩, c', hbody⟩
    obtain ⟨-, rest, rfl⟩ := peekVersion_eq_ok_iff.1 hv
    obtain ⟨_, ⟨count, es, p, hcount, rfl, hd⟩, hrest, -⟩ := (Recognizes.readBody _ c' c).1 hbody
    refine ⟨⟨p, v.minor, v.major, count, es, hcount⟩, c'.rest, ?_, hd⟩
    have htail : rest = u16 count ++ (es.flatMap Entry.encode ++ p.encode) ++ c'.rest := by
      rwa [bodyStart, List.drop_left' (length_header _ _)] at hrest
    rw [htail, ← List.append_assoc]
    rfl
  · rintro ⟨l, rest, rfl, hd⟩
    have hsplit : l.encode ++ rest = header l.minor l.major ++ (u16 l.count ++
        (l.constants.flatMap Entry.encode ++ l.toParts.encode) ++ rest) := by
      rw [encode, List.append_assoc]
    refine ⟨⟨⟨l.major, l.minor⟩, peekVersion_eq_ok_iff.2 ⟨?_, _, hsplit⟩⟩, ?_⟩
    · rw [List.length_append]
      exact Nat.le_add_right_of_le l.headerSize_le_length_encode
    · refine ⟨⟨_, rest⟩, (Recognizes.readBody _ _ c).2
        ⟨_, ⟨l.count, l.constants, l.toParts, l.counted, rfl, hd⟩, ?_, rfl⟩⟩
      rw [hsplit, bodyStart, List.drop_left' (length_header _ _)]

end ClassSketch.ClassFile
