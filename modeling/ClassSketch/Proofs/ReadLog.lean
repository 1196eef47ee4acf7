import ClassSketch.Proofs.LayoutReading
import ClassSketch.Proofs.LoggedSteps

namespace ClassSketch.ClassFile

open Layout

variable {α : Type}

theorem records_of_version_error {data : List UInt8} {e : ReadError}
    (h : peekVersion data = .error e) : e.records = [] := by
  rw [peekVersion] at h
  split at h
  · cases h
    rfl
  · exact Silent.compositional.readHeader (fun _ => rfl) _ e (map_eq_error_iff.1 h)

/-- The bytes start like a file that describes `c`, up to `front` of what stands behind the
constants. -/
def Begins (front : Parts → List UInt8) (data : List UInt8) (c : ClassDecl) : Prop :=
  ∃ l : Layout, l.Describes c ∧ l.upTo front <+: data

theorem Begins.upToFields {data : List UInt8} {c : ClassDecl}
    (h : Begins Parts.upToMethods data c) :
    Begins Parts.upToFields data c := by
  obtain ⟨l, hl, hfront⟩ := h
  have hle : l.upTo Parts.upToFields <+: l.upTo Parts.upToMethods :=
    ⟨l.methods.encode Member.encode, by simp only [upTo, Parts.upToMethods, List.append_assoc]⟩
  exact ⟨l, hl, hle.trans hfront⟩

theorem Begins.upToMethods {data : List UInt8} {c : ClassDecl} (h : Begins Parts.encode data c) :
    Begins Parts.upToMethods data c := by
  obtain ⟨l, hl, hfront⟩ := h
  have hle : l.upTo Parts.upToMethods <+: l.upTo Parts.encode :=
    ⟨l.attributes.encode Attribute.encode, by simp only [upTo, Parts.encode_eq, List.append_assoc]⟩
  exact ⟨l, hl, hle.trans hfront⟩

section

variable {step : ConstantPool → ReadM α} {front : Parts → List UInt8}
  {means : ClassDecl → α → Prop} {data : List UInt8} {a : α}
  (h : ∀ pool, Recognizes (step pool) fun bytes a => ∃ p : Parts, bytes = front p ∧ ∃ c,
    p.Describe (fun i s => pool.text i = .ok s) (fun i s => pool.className i = .ok s) c ∧
      means c a)

include h

theorem exists_upTo_of_ok {version : Version} {c' : Cursor} (hv : peekVersion data = .ok version)
    (hstep : (plain ConstantPool.read >>= step) (bodyStart data) = .ok (a, c')) :
    ∃ (l : Layout) (c : ClassDecl), l.Describes c ∧ means c a ∧ data = l.upTo front ++ c'.rest := by
  obtain ⟨-, rest, rfl⟩ := peekVersion_eq_ok_iff.1 hv
  obtain ⟨_, ⟨count, es, p, hcount, rfl, c, hc, ha⟩, hrest, -⟩ :=
    (Recognizes.behindPool h _ c' a).1 hstep
  rw [bodyStart, List.drop_left' (length_header _ _)] at hrest
  dsimp only at hrest
  refine ⟨⟨p, version.minor, version.major, count, es, hcount⟩, c, hc, ha, ?_⟩
  rw [hrest, ← List.append_assoc]
  rfl

theorem ok_of_begins {l : Layout} {c : ClassDecl} (hc : l.Describes c) (ha : means c a)
    (hfront : l.upTo front <+: data) :
    (∃ version, peekVersion data = .ok version) ∧
      ∃ c', (plain ConstantPool.read >>= step) (bodyStart data) = .ok (a, c') := by
  obtain ⟨rest, rfl⟩ := hfront
  have hsplit : l.upTo front ++ rest = header l.minor l.major ++ (u16 l.count ++
      (l.constants.flatMap Entry.encode ++ front l.toParts) ++ rest) := List.append_assoc ..
  refine ⟨⟨⟨l.major, l.minor⟩, peekVersion_eq_ok_iff.2 ⟨?_, _, hsplit⟩⟩, ⟨_, rest⟩,
    (Recognizes.behindPool h _ _ a).2
      ⟨_, ⟨l.count, l.constants, l.toParts, l.counted, rfl, c, hc, ha⟩, ?_, rfl⟩⟩
  · rw [List.length_append]
    exact Nat.le_add_right_of_le (l.headerSize_le_length_upTo front)
  · rw [hsplit, bodyStart, List.drop_left' (length_header _ _)]

end

variable {data : List UInt8} {version : Version} {pool : ConstantPool} {c d : ClassDecl}
  {c₁ c₂ : Cursor} {methods : List MemberDecl}

theorem readFront_behindPool (c : Cursor) : (plain ConstantPool.read >>= readFront) c =
    plain readUpToFields c >>= fun r => .ok (r.1.2, r.2) := by
  have h : plain ConstantPool.read >>= readFront = do return (← plain readUpToFields).2 := by
    simp only [plain_readUpToFields, bind_assoc, pure_bind, bind_pure]
  rw [h]
  rfl

theorem readMembers_behindPool (c : Cursor) : (plain ConstantPool.read >>= readMembers) c =
    plain readUpToFields c >>= fun r => table (readMember r.1.1 r.1.2.name checkMethod) r.2 >>=
      fun t => .ok ({ r.1.2 with methods := t.1 }, t.2) := by
  have h : plain ConstantPool.read >>= readMembers = do
      let r ← plain readUpToFields
      let methods ← table (readMember r.1 r.2.name checkMethod)
      return { r.2 with methods } := by
    rw [plain_readUpToFields, bind_assoc]
    refine bind_congr fun pool => ?_
    rw [readMembers, bind_assoc]
    simp only [pure_bind]
  rw [h]
  rfl

theorem begins_of_readUpToFields (hv : peekVersion data = .ok version)
    (hf : plain readUpToFields (bodyStart data) = .ok ((pool, d), c₁)) :
    ∃ c, Begins Parts.upToFields data c ∧ c.fields = d.fields := by
  have hstep : (plain ConstantPool.read >>= readFront) (bodyStart data) = .ok (d, c₁) := by
    rw [readFront_behindPool, hf, ok_bind]
  obtain ⟨l, c, hc, rfl, hdata⟩ := exists_upTo_of_ok Recognizes.readFront hv hstep
  exact ⟨c, ⟨l, hc, c₁.rest, hdata.symm⟩, rfl⟩

theorem readUpToFields_of_begins (h : Begins Parts.upToFields data c) :
    (∃ version, peekVersion data = .ok version) ∧
      ∃ r, plain readUpToFields (bodyStart data) = .ok r := by
  obtain ⟨l, hc, hfront⟩ := h
  obtain ⟨hv, c', hstep⟩ := ok_of_begins Recognizes.readFront hc rfl hfront
  rw [readFront_behindPool] at hstep
  obtain ⟨r, hr, -⟩ := bind_eq_ok_iff.1 hstep
  exact ⟨hv, r, hr⟩

theorem begins_of_readMembers (hv : peekVersion data = .ok version)
    (hf : plain readUpToFields (bodyStart data) = .ok ((pool, d), c₁))
    (hm : table (readMember pool d.name checkMethod) c₁ = .ok (methods, c₂)) :
    Begins Parts.upToMethods data { d with methods } := by
  have hstep : (plain ConstantPool.read >>= readMembers) (bodyStart data) =
      .ok ({ d with methods }, c₂) := by
    rw [readMembers_behindPool, hf, ok_bind, hm, ok_bind]
  obtain ⟨l, _, hc, rfl, hdata⟩ := exists_upTo_of_ok (.describing .readMembers) hv hstep
  exact ⟨l, hc, c₂.rest, hdata.symm⟩

theorem not_begins_of_methods_error {e : ReadError}
    (hf : plain readUpToFields (bodyStart data) = .ok ((pool, d), c₁))
    (hm : table (readMember pool d.name checkMethod) c₁ = .error e) :
    ¬ Begins Parts.upToMethods data c := by
  rintro ⟨l, hc, hfront⟩
  obtain ⟨-, c', hstep⟩ := ok_of_begins (.describing .readMembers) hc rfl hfront
  rw [readMembers_behindPool, hf, ok_bind, hm] at hstep
  cases hstep

theorem not_begins_of_readBody_error {e : ReadError}
    (h : readBody (bodyStart data) = .error e) : ¬ Begins Parts.encode data c := by
  rintro ⟨l, hc, hfront⟩
  obtain ⟨-, c', hstep⟩ := ok_of_begins (.describing .readParts) hc rfl hfront
  cases h.symm.trans hstep

/-- What is logged for the bytes of a file, and how reading them ends. -/
inductive Logs (data : List UInt8) : List Record → Except ReadError ClassDecl → Prop where
  | beforeFields {e : ReadError} (fields : ∀ c, ¬ Begins Parts.upToFields data c) :
    Logs data e.records (.error e)
  | beforeMethods {c : ClassDecl} {e : ReadError} (fields : Begins Parts.upToFields data c)
    (methods : ∀ c', ¬ Begins Parts.upToMethods data c') :
    Logs data (fieldRecords c) (.error e)
  | beforeEnd {c : ClassDecl} {e : ReadError} (methods : Begins Parts.upToMethods data c)
    (whole : ∀ c', ¬ Begins Parts.encode data c') :
    Logs data (fieldRecords c ++ methodRecords c) (.error e)
  | finished {l : Layout} {c : ClassDecl} {version : Version} (describes : l.Describes c)
    (whole : l.encode <+: data) (version_eq : peekVersion data = .ok version) :
    Logs data (fieldRecords c ++ (methodRecords c ++
      (trailingRecords c (data.length - l.encode.length) ++ [finishedRecord version c]))) (.ok c)

theorem logs_of_readBody {c' : Cursor} (hv : peekVersion data = .ok version)
    (h : readBody (bodyStart data) = .ok (c, c')) : Logs data (read data).run.log (.ok c) := by
  obtain ⟨l, c, hl, rfl, hdata⟩ := exists_upTo_of_ok (.describing .readParts) hv h
  have hrest : data.length - l.encode.length = c'.rest.length := by
    rw [hdata, List.length_append, l.encode_eq_upTo]
    omega
  rw [log_read hv h, ← hrest]
  exact .finished hl ⟨c'.rest, hdata.symm⟩ hv

theorem logs_read (data : List UInt8) :
    Logs data (read data).run.log (read data).run.value := by
  -- one case for each step that can fail, in the order of the file
  cases hv : peekVersion data with
  | error e =>
    have hsilent : e.records = [] := records_of_version_error hv
    rw [log_read_of_version_error hv, value_read, hv, ← hsilent]
    refine .beforeFields fun c h => ?_
    obtain ⟨⟨version, hok⟩, -⟩ := readUpToFields_of_begins h
    cases hv.symm.trans hok
  | ok version =>
  rw [value_read, hv, ok_bind]
  cases hf : plain readUpToFields (bodyStart data) with
  | error e =>
    rw [log_read_of_fields_error hv hf, readBody_apply, hf]
    refine .beforeFields fun c h => ?_
    obtain ⟨-, r, hok⟩ := readUpToFields_of_begins h
    cases hf.symm.trans hok
  | ok r =>
  obtain ⟨⟨pool, d⟩, c₁⟩ := r
  cases hm : table (readMember pool d.name checkMethod) c₁ with
  | error e =>
    obtain ⟨c, hc, hfields⟩ := begins_of_readUpToFields hv hf
    rw [log_read_of_methods_error hv hf hm, readBody_apply, hf, ok_bind, hm, fieldRecords,
      ← hfields]
    exact .beforeMethods hc fun c' => not_begins_of_methods_error hf hm
  | ok t =>
  obtain ⟨methods, c₂⟩ := t
  have hc := begins_of_readMembers hv hf hm
  have hbody : readBody (bodyStart data) =
      skipAttributes c₂ >>= fun a => .ok ({ d with methods }, a.2) := by
    rw [readBody_apply, hf, ok_bind, hm, ok_bind]
  cases ha : skipAttributes c₂ with
  | error e =>
    have herror : readBody (bodyStart data) = .error e := by
      rw [hbody, ha]
      rfl
    rw [log_read_of_attributes_error hv hf hm ha, herror]
    exact .beforeEnd hc fun c' => not_begins_of_readBody_error herror
  | ok a =>
    obtain ⟨_, c₃⟩ := a
    rw [ha, ok_bind] at hbody
    rw [hbody]
    exact logs_of_readBody hv hbody

theorem mem_records_iff {e : ReadError} {r : Record} : r ∈ e.records ↔
    ∃ tag offset, e = .badConstantTag tag offset ∧ r = ⟨.warn, .unknownTag tag offset⟩ := by
  cases e <;> simp [ReadError.records]

theorem mem_trailingRecords_iff {n : Nat} {r : Record} :
    r ∈ trailingRecords c n ↔ 0 < n ∧ r = ⟨.warn, .trailing c.name n⟩ := by
  rw [trailingRecords]
  split <;> simp_all

theorem mem_fieldRecords_iff {r : Record} :
    r ∈ fieldRecords c ↔ ∃ f ∈ c.fields, r = ⟨.trace, .field f⟩ := by
  simp [fieldRecords, eq_comm]

theorem mem_methodRecords_iff {r : Record} :
    r ∈ methodRecords c ↔ ∃ m ∈ c.methods, r = ⟨.trace, .method m⟩ := by
  simp [methodRecords, eq_comm]

namespace Logs

variable {log : List Record} {value : Except ReadError ClassDecl}

theorem eq_finishedRecord_of_mem (h : Logs data log value) {r : Record} (hr : r ∈ log)
    (hlevel : r.level = .debug) :
    ∃ c version, value = .ok c ∧ peekVersion data = .ok version ∧ r = finishedRecord version c := by
  have hrecords : ∀ e : ReadError, r ∉ e.records := by
    intro e hmem
    obtain ⟨tag, offset, -, rfl⟩ := mem_records_iff.1 hmem
    cases hlevel
  have hfields : ∀ c, r ∉ fieldRecords c := by
    intro c hmem
    obtain ⟨f, -, rfl⟩ := mem_fieldRecords_iff.1 hmem
    cases hlevel
  have hmethods : ∀ c, r ∉ methodRecords c := by
    intro c hmem
    obtain ⟨m, -, rfl⟩ := mem_methodRecords_iff.1 hmem
    cases hlevel
  have htrailing : ∀ c n, r ∉ trailingRecords c n := by
    intro c n hmem
    obtain ⟨-, rfl⟩ := mem_trailingRecords_iff.1 hmem
    cases hlevel
  cases h with
  | beforeFields => exact absurd hr (hrecords _)
  | beforeMethods => exact absurd hr (hfields _)
  | beforeEnd => simp [hfields, hmethods] at hr
  | finished _ _ hversion =>
    exact ⟨_, _, rfl, hversion, by simpa [hfields, hmethods, htrailing] using hr⟩

theorem debug_mem_iff (h : Logs data log value) (r : Record) : r ∈ log ∧ r.level = .debug ↔
    ∃ c version, value = .ok c ∧ peekVersion data = .ok version ∧ r = finishedRecord version c := by
  constructor
  · rintro ⟨hr, hlevel⟩
    exact h.eq_finishedRecord_of_mem hr hlevel
  · rintro ⟨c, version, rfl, hversion, rfl⟩
    cases h with
    | finished _ _ hversion' =>
      cases hversion.symm.trans hversion'
      exact ⟨by simp, rfl⟩

theorem of_field_mem (h : Logs data log value) {f : MemberDecl} (hf : ⟨.trace, .field f⟩ ∈ log) :
    ∃ c, Begins Parts.upToFields data c ∧ f ∈ c.fields := by
  cases h with
  | beforeFields => simp [mem_records_iff] at hf
  | beforeMethods hc => exact ⟨_, hc, by simpa [mem_fieldRecords_iff] using hf⟩
  | beforeEnd hc =>
    exact ⟨_, hc.upToFields, by simpa [mem_fieldRecords_iff, mem_methodRecords_iff] using hf⟩
  | finished hl hdata =>
    have hc : Begins Parts.encode data _ := ⟨_, hl, hdata⟩
    exact ⟨_, hc.upToMethods.upToFields, by simpa [mem_fieldRecords_iff, mem_methodRecords_iff,
      mem_trailingRecords_iff, finishedRecord] using hf⟩

theorem of_method_mem (h : Logs data log value) {m : MemberDecl}
    (hm : ⟨.trace, .method m⟩ ∈ log) : ∃ c, Begins Parts.upToMethods data c ∧ m ∈ c.methods := by
  cases h with
  | beforeFields => simp [mem_records_iff] at hm
  | beforeMethods => simp [mem_fieldRecords_iff] at hm
  | beforeEnd hc => exact ⟨_, hc, by simpa [mem_fieldRecords_iff, mem_methodRecords_iff] using hm⟩
  | finished hl hdata =>
    have hc : Begins Parts.encode data _ := ⟨_, hl, hdata⟩
    exact ⟨_, hc.upToMethods, by simpa [mem_fieldRecords_iff, mem_methodRecords_iff,
      mem_trailingRecords_iff, finishedRecord] using hm⟩

end Logs

/-- Whatever the bytes are, members are logged table by table and only when the file holds the table
as a whole, and the end of a class is logged just when it is read. -/
theorem read_logs_whole_tables (data : List UInt8) :
    Logs data (read data).run.log (read data).run.value ∧
      (∀ r, r ∈ (read data).run.log ∧ r.level = .debug ↔ ∃ c version,
        (read data).run.value = .ok c ∧ peekVersion data = .ok version ∧
          r = finishedRecord version c) ∧
      (∀ f, ⟨.trace, .field f⟩ ∈ (read data).run.log →
        ∃ c, Begins Parts.upToFields data c ∧ f ∈ c.fields) ∧
      ∀ m, ⟨.trace, .method m⟩ ∈ (read data).run.log →
        ∃ c, Begins Parts.upToMethods data c ∧ m ∈ c.methods := by
  have h := logs_read data
  exact ⟨h, h.debug_mem_iff, fun _ => h.of_field_mem, fun _ => h.of_method_mem⟩

/-- A class file with a single field that ends where the methods should stand. -/
def cutBehindFields : List UInt8 :=
  header 0 52 ++ [0, 5] ++ [1, 0, 1, 65] ++ [7, 0, 1] ++ [1, 0, 1, 102] ++ [1, 0, 1, 73] ++
    [0, 33, 0, 2, 0, 0, 0, 0] ++ [0, 1, 0, 2, 0, 3, 0, 4, 0, 0]

theorem read_logs_whole_tables_cut :
    (read cutBehindFields).run.log = [⟨.trace, .field ⟨"A", "f", 2, "I"⟩⟩] ∧
      ∃ c, Begins Parts.upToFields cutBehindFields c ∧ ⟨"A", "f", 2, "I"⟩ ∈ c.fields := by
  have hlog : (read cutBehindFields).run.log = [⟨.trace, .field ⟨"A", "f", 2, "I"⟩⟩] := by
    decide +kernel
  refine ⟨hlog, (read_logs_whole_tables cutBehindFields).2.2.1 _ ?_⟩
  rw [hlog]
  exact List.mem_singleton_self _

end ClassSketch.ClassFile
