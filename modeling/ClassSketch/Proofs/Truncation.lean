import ClassSketch.Proofs.LoggedSteps
import ClassSketch.Proofs.Steady

namespace ClassSketch.ClassFile

theorem exists_readU16 {c : Cursor} (h : 2 ≤ c.rest.length) :
    ∃ n, readU16 c = .ok (n, ⟨c.offset + 2, c.rest.drop 2⟩) := by
  rw [readU16, bind_apply, take_of_le h]
  exact ⟨_, rfl⟩

def firstWord (bytes : List UInt8) : UInt32 := .ofNat (bigEndian (bytes.take 4))

theorem toNat_firstWord (bytes : List UInt8) :
    (firstWord bytes).toNat = bigEndian (bytes.take 4) := by
  refine UInt32.toNat_ofNat_of_lt' (Nat.lt_of_lt_of_le (bigEndian_lt _) ?_)
  exact Nat.pow_le_pow_right (by decide) (List.length_take_le 4 bytes)

theorem readU32_of_le {c : Cursor} (h : 4 ≤ c.rest.length) :
    readU32 c = .ok (firstWord c.rest, ⟨c.offset + 4, c.rest.drop 4⟩) := by
  rw [readU32, bind_apply, take_of_le h]
  rfl

theorem readHeader_of_le {c : Cursor} (h : headerSize ≤ c.rest.length) :
    ∃ p, readHeader c = (fun _ => p) <$> checkMagic (firstWord c.rest) := by
  have hlen : 8 ≤ c.rest.length := Nat.le_trans (Nat.le_add_right 8 2) h
  have hversion : ∃ p, (do
      let minor ← readU16
      let major ← readU16
      return (⟨major, minor⟩ : Version)) ⟨c.offset + 4, c.rest.drop 4⟩ = .ok p := by
    obtain ⟨minor, hminor⟩ := exists_readU16 (c := ⟨c.offset + 4, c.rest.drop 4⟩)
      (by rw [List.length_drop]; omega)
    obtain ⟨major, hmajor⟩ := exists_readU16 (c := ⟨c.offset + 4 + 2, (c.rest.drop 4).drop 2⟩)
      (by rw [List.length_drop, List.length_drop]; omega)
    rw [bind_apply, hminor, ok_bind, bind_apply, hmajor, ok_bind]
    exact ⟨_, rfl⟩
  obtain ⟨p, hp⟩ := hversion
  refine ⟨p, ?_⟩
  rw [readHeader_eq, bind_apply, readU32_of_le (by omega), ok_bind]
  cases checkMagic (firstWord c.rest) with
  | error e => rfl
  | ok => exact hp

/-- The version is not cut off in a file that is as long as the header. -/
theorem readHeader_final {c : Cursor} {e : ReadError} (hc : headerSize ≤ c.rest.length)
    (h : readHeader c = .error e) : e.Final := by
  obtain ⟨p, hp⟩ := readHeader_of_le hc
  rw [hp, map_eq_error_iff, checkMagic_eq_error_iff] at h
  obtain ⟨rfl, -⟩ := h
  trivial

theorem peekVersion_of_lt {data : List UInt8} (h : data.length < headerSize) :
    peekVersion data = .error (.tooSmall data.length) :=
  if_pos h

theorem peekVersion_final {data : List UInt8} {e : ReadError} (hle : headerSize ≤ data.length)
    (h : peekVersion data = .error e) : e.Final := by
  rw [peekVersion, if_neg (Nat.not_lt.2 hle), map_eq_error_iff] at h
  exact readHeader_final hle h

theorem peekVersion_append {data : List UInt8} (h : headerSize ≤ data.length)
    (more : List UInt8) : peekVersion (data ++ more) = peekVersion data := by
  have h' : headerSize ≤ (data ++ more).length := by
    rw [List.length_append]
    exact Nat.le_add_right_of_le h
  rw [peekVersion, peekVersion, if_neg (Nat.not_lt.2 h), if_neg (Nat.not_lt.2 h')]
  cases hr : readHeader ⟨0, data⟩ with
  | ok r =>
    obtain ⟨v, c'⟩ := r
    have happend : readHeader ⟨0, data ++ more⟩ = .ok (v, c'.append more) :=
      Steady.readHeader.ok_append hr more
    rw [happend]
    rfl
  | error e =>
    have hfinal := readHeader_final h hr
    rcases Steady.readHeader.error hr with ⟨-, happend⟩ | ⟨o, n, rfl, -⟩
    · have happend' : readHeader ⟨0, data ++ more⟩ = .error e := happend more
      rw [happend']
    · exact hfinal.elim

def readCounted (count : UInt16) : ReadM ClassDecl := do
  readParts (.ofConstants count.toNat (← plain (readConstants [] (count.toNat - 1))))

theorem readBody_eq_readCounted : readBody = readU16 >>= readCounted := by
  simp only [readBody, plain_readPool, bind_assoc, pure_bind]
  rfl

namespace Steady

protected theorem readCounted (count : UInt16) : Steady (readCounted count) :=
  (Steady.readConstants [] _).bind fun _ => Steady.compositional.readParts _

protected theorem readBody : Steady readBody := by
  rw [readBody_eq_readCounted]
  exact Steady.compositional.readU16.bind Steady.readCounted

end Steady

theorem offset_le_of_readBody_truncated {c : Cursor} {o n : Nat} (hc : 2 ≤ c.rest.length)
    (h : readBody c = .error (.truncated o n)) : c.offset + 2 ≤ o := by
  obtain ⟨count, hcount⟩ := exists_readU16 hc
  rw [readBody_eq_readCounted, bind_apply, hcount, ok_bind] at h
  rcases (Steady.readCounted count).error h with ⟨hfinal, -⟩ | ⟨o', n', he, hl⟩
  · exact hfinal.elim
  · cases he
    exact hl.offset_le

theorem bodyStart_append {data : List UInt8} (h : headerSize ≤ data.length) (more : List UInt8) :
    bodyStart (data ++ more) = (bodyStart data).append more := by
  rw [bodyStart, List.drop_append_of_le_length (Nat.le_trans (Nat.sub_le ..) h)]
  rfl

theorem value_read_of_lt {data : List UInt8} (h : data.length < headerSize) :
    (read data).run.value = .error (.tooSmall data.length) := by
  rw [value_read, peekVersion_of_lt h]
  rfl

theorem value_read_append {data : List UInt8} (h : headerSize ≤ data.length)
    (more : List UInt8) : (read (data ++ more)).run.value =
      peekVersion data >>= fun _ => (·.1) <$> readBody ((bodyStart data).append more) := by
  rw [value_read, peekVersion_append h, bodyStart_append h]

def Record.trailingBytes (r : Record) : Nat :=
  match r.event with
  | .trailing _ bytes => bytes
  | _ => 0

/-- The number of bytes that a class is read from: all but those logged as trailing. -/
def consumed (data : List UInt8) : Nat :=
  data.length - ((read data).run.log.map Record.trailingBytes).sum

theorem consumed_eq {data : List UInt8} {version : Version} {c : ClassDecl} {c' : Cursor}
    (hv : peekVersion data = .ok version) (h : readBody (bodyStart data) = .ok (c, c')) :
    consumed data = data.length - c'.rest.length := by
  have hfields : ((fieldRecords c).map Record.trailingBytes).sum = 0 := by
    simp [fieldRecords, Function.comp_def, Record.trailingBytes]
  have hmethods : ((methodRecords c).map Record.trailingBytes).sum = 0 := by
    simp [methodRecords, Function.comp_def, Record.trailingBytes]
  have hrest : ((trailingRecords c c'.rest.length).map Record.trailingBytes).sum =
      c'.rest.length := by
    cases c'.rest <;> rfl
  rw [consumed, log_read hv h]
  simp only [List.map_append, List.sum_append, hfields, hmethods, hrest]
  simp [finishedRecord, Record.trailingBytes]

theorem length_bodyStart {data : List UInt8} (h : headerSize ≤ data.length) :
    (bodyStart data).offset + (bodyStart data).rest.length = data.length := by
  rw [bodyStart, List.length_drop]
  dsimp only [headerSize] at *
  omega

theorem value_read_append_of_final {data : List UInt8}
    (hsmall : ∀ n, (read data).run.value ≠ .error (.tooSmall n))
    (htruncated : ∀ o n, (read data).run.value ≠ .error (.truncated o n)) (more : List UInt8) :
    (read (data ++ more)).run.value = (read data).run.value := by
  have h : headerSize ≤ data.length :=
    Nat.not_lt.1 fun hlt => hsmall _ (value_read_of_lt hlt)
  rw [value_read] at htruncated
  rw [value_read_append h, value_read]
  cases hv : peekVersion data with
  | error e => rfl
  | ok version =>
    rw [hv] at htruncated
    rw [ok_bind, ok_bind]
    cases hb : readBody (bodyStart data) with
    | ok r =>
      obtain ⟨c, c'⟩ := r
      rw [Steady.readBody.ok_append hb]
      rfl
    | error e =>
      rcases Steady.readBody.error hb with ⟨-, happend⟩ | ⟨o, n, rfl, -⟩
      · rw [happend]
      · rw [hb] at htruncated
        exact (htruncated o n rfl).elim

theorem readBody_of_value_truncated {data : List UInt8} {o n : Nat}
    (h : (read data).run.value = .error (.truncated o n)) : headerSize ≤ data.length ∧
      (∃ version, peekVersion data = .ok version) ∧
        readBody (bodyStart data) = .error (.truncated o n) := by
  have hle : headerSize ≤ data.length := by
    refine Nat.not_lt.1 fun hlt => ?_
    rw [value_read_of_lt hlt] at h
    cases h
  rw [value_read, bind_eq_error_iff] at h
  rcases h with hv | ⟨version, hv, hb⟩
  · exact (peekVersion_final hle hv).elim
  · exact ⟨hle, ⟨version, hv⟩, map_eq_error_iff.1 hb⟩

theorem value_read_append_of_truncated {data more : List UInt8} {o n : Nat}
    (h : (read data).run.value = .error (.truncated o n)) (hmore : more.length < n) :
    (read (data ++ more)).run.value = .error (.truncated o (n - more.length)) := by
  obtain ⟨hle, ⟨version, hv⟩, hb⟩ := readBody_of_value_truncated h
  rcases Steady.readBody.error hb with ⟨hfinal, -⟩ | ⟨o', n', he, hl⟩
  · exact hfinal.elim
  · cases he
    rw [value_read_append hle, hv, ok_bind, hl.append more hmore]
    rfl

theorem readBody_take_consumed {data : List UInt8} {version : Version} {c : ClassDecl}
    {c' : Cursor} (hv : peekVersion data = .ok version)
    (h : readBody (bodyStart data) = .ok (c, c')) (hle : headerSize ≤ data.length) :
    readBody (bodyStart (data.take (consumed data))) = .ok (c, ⟨c'.offset, []⟩) := by
  obtain ⟨used, hrest, -, hused⟩ := Steady.readBody.ok h
  have hlen := length_bodyStart hle
  have hconsumed := consumed_eq hv h
  have htake : (data.take (consumed data)).drop (headerSize - 2) = used := by
    have hdrop : data.drop (headerSize - 2) = used ++ c'.rest := hrest
    have hused : consumed data - (headerSize - 2) = used.length := by
      have hoffset : (bodyStart data).offset = headerSize - 2 := rfl
      rw [hrest, List.length_append] at hlen
      omega
    rw [List.drop_take, hdrop, hused, List.take_left]
  have hall := hused []
  rw [List.append_nil] at hall
  rw [bodyStart, htake]
  exact hall

theorem value_read_take {data : List UInt8} {c : ClassDecl} {k : Nat}
    (h : (read data).run.value = .ok c) (hk : k < consumed data) (hle : headerSize ≤ k) :
    ∃ o n, (read (data.take k)).run.value = .error (.truncated o n) ∧ headerSize ≤ o ∧ o ≤ k ∧
      1 ≤ n ∧ n ≤ consumed data - k := by
  obtain ⟨⟨version, hv⟩, c', hb⟩ := value_read_eq_ok_iff.1 h
  have hconsumed := consumed_eq hv hb
  have hdata : data.take k ++ data.drop k = data := List.take_append_drop k data
  have hlen : (data.take k).length = k := List.length_take_of_le (by omega)
  have hle' : headerSize ≤ (data.take k).length := by rwa [hlen]
  have hv' : peekVersion (data.take k) = .ok version := by
    rw [← hv, ← peekVersion_append hle' (data.drop k), hdata]
  have hstart : bodyStart data = (bodyStart (data.take k)).append (data.drop k) := by
    rw [← bodyStart_append hle', hdata]
  have hsize := length_bodyStart hle'
  cases hb' : readBody (bodyStart (data.take k)) with
  | ok r =>
    obtain ⟨d, d'⟩ := r
    -- a class that ends in front of the cut ends there in the whole file too
    have happend := Steady.readBody.ok_append hb' (data.drop k)
    rw [← hstart, hb] at happend
    cases happend
    rw [Cursor.append, List.length_append, List.length_drop] at hconsumed
    omega
  | error e =>
    rcases Steady.readBody.error hb' with ⟨-, happend⟩ | ⟨o, n, rfl, hl⟩
    · have hdrop := happend (data.drop k)
      rw [← hstart, hb] at hdrop
      cases hdrop
    · have hcount : 2 ≤ (bodyStart (data.take k)).rest.length := by
        dsimp only [headerSize, bodyStart] at *
        omega
      refine ⟨o, n, ?_, offset_le_of_readBody_truncated hcount hb', ?_, hl.pos,
        Nat.not_lt.1 fun hn => ?_⟩
      · rw [value_read, hv', ok_bind, hb']
        rfl
      · rw [← hlen, ← hsize]
        exact hl.le_end
      · -- the bytes up to the end of the class would not be enough
        have hfail := hl.append ((data.drop k).take (consumed data - k))
          (Nat.lt_of_le_of_lt (List.length_take_le ..) hn)
        rw [← bodyStart_append hle', ← List.take_add, Nat.add_sub_of_le (Nat.le_of_lt hk),
          readBody_take_consumed hv hb (by omega)] at hfail
        cases hfail

/-- More bytes change neither a class nor an error, other than that bytes are missing. A file that
lacks bytes goes on lacking the rest of them, and a file cut off in front of the end of its class
lacks no more than were cut off. -/
theorem read_decides_on_prefix (data more : List UInt8) :
    ((∀ n, (read data).run.value ≠ .error (.tooSmall n)) →
      (∀ o n, (read data).run.value ≠ .error (.truncated o n)) →
        (read (data ++ more)).run.value = (read data).run.value) ∧
    (∀ o n, (read data).run.value = .error (.truncated o n) → more.length < n →
      (read (data ++ more)).run.value = .error (.truncated o (n - more.length))) ∧
    ∀ c, (read data).run.value = .ok c → ∀ k < consumed data,
      (k < 10 → (read (data.take k)).run.value = .error (.tooSmall k)) ∧
      (10 ≤ k → ∃ o n, (read (data.take k)).run.value = .error (.truncated o n) ∧ 10 ≤ o ∧ o ≤ k ∧
        1 ≤ n ∧ n ≤ consumed data - k) := by
  refine ⟨fun hsmall htruncated => value_read_append_of_final hsmall htruncated more,
    fun o n h hmore => value_read_append_of_truncated h hmore,
    fun c h k hk => ⟨fun hlt => ?_, fun hle => value_read_take h hk hle⟩⟩
  have hlen : (data.take k).length = k :=
    List.length_take_of_le (Nat.le_trans (Nat.le_of_lt hk) (Nat.sub_le ..))
  have hsmall : (data.take k).length < headerSize := hlen.symm ▸ hlt
  rw [value_read_of_lt hsmall, hlen]

end ClassSketch.ClassFile
