import Shapefile.Proofs.Streams

/-! # Reading what was stored

A header is read back from its bytes, and records that declare the length of their content are
framed in just as many bytes as they take. So a parse of streams hands out the records that were
stored, until the consumer has enough. -/

namespace Shapefile

/-! ## Headers -/

theorem ShapeType.isInt32_of_isValidCode {code : Int} (h : isValidCode code = true) :
    Bytes.IsInt32 code := by
  obtain ⟨t, ht⟩ := Option.isSome_iff_exists.mp h
  obtain rfl := ofCode?_eq_some_iff.mp ht
  exact t.code_isInt32

namespace Header

/-- The fields have the widths that the format gives them, and the length is a number of words. -/
structure IsStorable (h : Header) : Prop where
  fileCode : Bytes.IsInt32 h.fileCode
  even : h.fileLength % 2 = 0
  words : Bytes.IsInt32 (h.fileLength / 2)
  version : Bytes.IsInt32 h.version
  typeCode : Bytes.IsInt32 h.typeCode

variable (m : Meter) (rest : Bytes)

theorem skipWords_append {n : Nat} {words : Bytes} (h : words.length = 4 * n) :
    skipWords Plain.read n (m, ⟨words ++ rest⟩) = .ok () (m.count (4 * n), ⟨rest⟩) := by
  induction n generalizing m words with
  | zero =>
    obtain rfl : words = [] := List.eq_nil_of_length_eq_zero h
    rw [Nat.mul_zero, Meter.count_zero]
    rfl
  | succ n ih =>
    obtain ⟨word, words, hword, rfl⟩ := Bytes.exists_int32BE (by omega : 4 ≤ words.length)
    have hlength : words.length = 4 * n := by
      rw [List.length_append, Bytes.length_ofIntBE] at h
      omega
    rw [List.append_assoc]
    refine (bind_of_ok (Meter.readInt32BE_append m _ hword)).trans ?_
    rw [ih _ hlength, Meter.count_count, Nat.mul_succ, Nat.add_comm]

theorem readRange_append (r : Range) :
    readRange Plain.read (m, ⟨encodeRange r ++ rest⟩) = .ok r (m.count 16, ⟨rest⟩) := by
  rw [encodeRange, List.append_assoc]
  refine (bind_of_ok (Meter.readFloat64LE_append m _ r.low)).trans ?_
  refine (bind_of_ok (Meter.readFloat64LE_append _ rest r.high)).trans ?_
  rw [Meter.count_count]
  rfl

theorem readFields_append {h : Header} (H : h.IsStorable) {reserved : Bytes}
    (hreserved : reserved.length = 20) :
    readFields Plain.read (m, ⟨encode reserved h ++ rest⟩) = .ok h (m.count 100, ⟨rest⟩) := by
  have hlength : h.fileLength / 2 * 2 = h.fileLength := by
    have := H.even
    omega
  simp only [encode, List.append_assoc]
  refine (bind_of_ok (Meter.readInt32BE_append m _ H.fileCode)).trans ?_
  refine (bind_of_ok (skipWords_append _ _ hreserved)).trans ?_
  refine (bind_of_ok (Meter.readHalves_append _ _ H.words)).trans ?_
  refine (bind_of_ok (Meter.readInt32LE_append _ _ H.version)).trans ?_
  refine (bind_of_ok (Meter.readInt32LE_append _ _ H.typeCode)).trans ?_
  refine (bind_of_ok (readRange_append _ _ h.x)).trans ?_
  refine (bind_of_ok (readRange_append _ _ h.y)).trans ?_
  refine (bind_of_ok (readRange_append _ _ h.z)).trans ?_
  refine (bind_of_ok (readRange_append _ rest h.m)).trans ?_
  simp only [Meter.count_count, hlength]
  rfl

theorem defect?_eq_none_iff {h : Header} :
    h.defect? = none ↔
      h.fileCode = magic ∧ ShapeType.isValidCode h.typeCode = true ∧ size ≤ h.fileLength := by
  by_cases hcode : h.fileCode = magic
  · cases hvalid : ShapeType.isValidCode h.typeCode <;> simp [defect?, hcode, hvalid]
  · simp [defect?, hcode]

theorem contentLength_nonneg {ε : Type} {feed : Feed ε} {e rest : ε} {header : Header}
    (h : Header.read feed e = .ok header rest) : 0 ≤ header.contentLength := by
  unfold Header.read at h
  split at h
  · split at h
    · rename_i hvalid
      cases h
      exact Int.sub_nonneg_of_le (defect?_eq_none_iff.mp hvalid).2.2
    · cases h
  · cases h

theorem read_append {h : Header} (H : h.IsStorable) (hvalid : h.defect? = none) {reserved : Bytes}
    (hreserved : reserved.length = 20) :
    Header.read Plain.read ⟨encode reserved h ++ rest⟩ = .ok h ⟨rest⟩ := by
  simp only [Header.read, readFields_append _ rest H hreserved, hvalid]

end Header

/-! ## Records -/

namespace StoredRecord

/-- The record can be stored and declares the length of its content. -/
structure IsExact (r : StoredRecord) : Prop where
  number : Bytes.IsInt32 r.number
  length : r.header.contentLength = r.content.size

theorem IsExact.storable {r : StoredRecord} (H : r.IsExact) : r.header.IsStorable := by
  have hlength := H.length
  have hsize : r.content.size = 4 ∨ r.content.size = 20 := by
    cases r.content <;> simp [Content.size]
  exact ⟨H.number, by omega, by omega⟩

theorem sizeAll_even (rs : List StoredRecord) : sizeAll rs % 2 = 0 := by
  induction rs with
  | nil => rfl
  | cons r rs ih =>
    have hr : r.size % 2 = 0 := by
      cases h : r.content <;> simp [size, Content.size, h]
    rw [sizeAll_cons, Nat.add_mod, hr, ih]

theorem framed_of_exact {rs : List StoredRecord} (H : ∀ r ∈ rs, r.IsExact) {left : Int}
    (hleft : sizeAll rs ≤ left) : Framed left rs := by
  induction rs generalizing left with
  | nil => exact .nil left
  | cons r rs ih =>
    have hr := H r (.head _)
    rw [sizeAll_cons, size] at hleft
    refine Framed.cons_iff.mpr ⟨hr.storable, ⟨?_, ?_⟩, ih (fun r h => H r (.tail _ h)) ?_⟩
    · rw [hr.length]
      omega
    · rw [hr.length]
      omega
    · rw [size]
      omega

variable {χ : Type}

/-- The records whose shapes a watcher is handed: up to the first after which it has enough. -/
def taken (answer : Shape → χ → Bool × χ) : Nat → List StoredRecord → χ → List StoredRecord
  | _, [], _ => []
  | place, r :: rs, memo =>
    let (more, memo) := answer (r.shape place) memo
    r :: if more then taken answer (place + 1) rs memo else []

theorem taken_cases (answer : Shape → χ → Bool × χ) (first : Nat) (rs : List StoredRecord)
    (memo : χ) :
    taken answer first rs memo = rs ∧ wantsMore answer (shapes first rs) memo = true ∨
    ∃ before r unseen, rs = before ++ r :: unseen ∧
      taken answer first rs memo = before ++ [r] ∧
      wantsMore answer (shapes first before) memo = true ∧
      (answer (r.shape (first + before.length))
        (mindAfter answer (shapes first before) memo)).1 = false := by
  induction rs generalizing first memo with
  | nil => exact .inl ⟨rfl, rfl⟩
  | cons r rs ih =>
    cases hanswer : (answer (r.shape first) memo).1 with
    | false => exact .inr ⟨[], r, rs, rfl, by simp [taken, hanswer], rfl, hanswer⟩
    | true =>
      rcases ih (first + 1) (answer (r.shape first) memo).2 with
        ⟨htaken, hmore⟩ | ⟨before, last, unseen, rfl, htaken, hmore, hstop⟩
      · refine .inl ⟨?_, ?_⟩
        · simp [taken, hanswer, htaken]
        · simp [wantsMore, hanswer, hmore]
      · refine .inr ⟨r :: before, last, unseen, rfl, ?_, ?_, ?_⟩
        · simp [taken, hanswer, htaken]
        · simp [wantsMore, hanswer, hmore]
        · rw [shapes_cons, List.length_cons, Nat.add_comm before.length, ← Nat.add_assoc]
          exact hstop

end StoredRecord

/-! ## Whole shapefiles -/

open StoredRecord

variable {χ : Type}

/-- Exact records that use the budget up are delivered up to the first after which the watcher has
enough, and the source is left right behind it. -/
theorem Desk.run_taken {rs : List StoredRecord} (H : ∀ r ∈ rs, r.IsExact)
    (answer : Shape → χ → Bool × χ) (warns : Bool) (trailing : Bytes) (d : Desk Plain χ)
    (hd : d.source = ⟨encodeAll rs ++ trailing⟩) :
    Desk.run (watcher answer) (.start (sizeAll rs) warns, d) =
      .ok (taken answer 0 rs d.memo).length
        (midway (sizeAll rs) warns (taken answer 0 rs d.memo) .done,
          { d with
            source := ⟨encodeAll (rs.drop (taken answer 0 rs d.memo).length) ++ trailing⟩
            log := .totals (taken answer 0 rs d.memo).length
              (sizeAll rs - sizeAll (taken answer 0 rs d.memo)) :: d.log
            memo := mindAfter answer (shapes 0 (taken answer 0 rs d.memo)) d.memo }) := by
  have hframed := framed_of_exact H (Int.le_refl _)
  have hquiet (rs' : List StoredRecord) (h : ∀ r ∈ rs', r ∈ rs) : mismatches warns rs' = [] :=
    mismatches_eq_nil fun r hr => (H r (h r hr)).length.symm
  rcases taken_cases answer 0 rs d.memo with
    ⟨htaken, hmore⟩ | ⟨before, r, unseen, rfl, htaken, hmore, hstop⟩
  · rw [htaken, List.drop_length, encodeAll_nil, List.nil_append]
    refine (run_used_up hframed hd hmore (Int.le_refl _)).trans ?_
    rw [hquiet rs fun _ h => h, List.nil_append]
  · rw [htaken]
    rw [List.append_cons] at hframed hd ⊢
    rw [encodeAll_append _ unseen, List.append_assoc] at hd
    rw [Nat.zero_add] at hstop
    rw [List.drop_left]
    refine (run_stops (Framed.append_iff.mp hframed).1 hd hmore hstop).trans ?_
    rw [hquiet (before ++ [r]) (by simp +contextual [or_imp]), List.nil_append]

/-- Parsing gives back what was stored. The index need only begin with a header. The records may be
followed by anything, and what is behind the last one that is delivered is left unread. -/
theorem Workspace.parseStreams_encode {w : Workspace Plain χ} {i j : Nat}
    {answer : Shape → χ → Bool × χ} {h index : Header} {rs : List StoredRecord}
    {reserved trailing shx indexRest : Bytes}
    (hrecords : ∀ r ∈ rs, r.IsExact)
    (hcode : h.fileCode = Header.magic) (htype : ShapeType.isValidCode h.typeCode = true)
    (hversion : Bytes.IsInt32 h.version)
    (hlength : h.fileLength = Header.size + sizeAll rs) (hbound : h.fileLength < 0x100000000)
    (hreserved : reserved.length = 20)
    (hshp : w.streams[i]? = some ⟨h.encode reserved ++ (encodeAll rs ++ trailing)⟩)
    (hshx : w.streams[j]? = some ⟨shx⟩) (hij : i ≠ j)
    (hindex : Header.read Plain.read ⟨shx⟩ = .ok index ⟨indexRest⟩) :
    parseStreams (some (.stream i)) (some (.stream j)) (watcher answer) w =
      .ok () ({ w with
        streams := (w.streams.set j ⟨indexRest⟩).set i
          ⟨encodeAll (rs.drop (taken answer 0 rs w.memo).length) ++ trailing⟩
        session := { w.session with
          header := some h
          indexHeader := some index
          shapeCount := (taken answer 0 rs w.memo).length }
        log := .totals (taken answer 0 rs w.memo).length
            (sizeAll rs - sizeAll (taken answer 0 rs w.memo)) ::
          .mainHeader h :: .indexHeader index :: w.log
        memo := mindAfter answer (StoredRecord.shapes 0 (taken answer 0 rs w.memo)) w.memo } :
          Workspace Plain χ).release := by
  have hstorable : h.IsStorable := by
    have heven := sizeAll_even rs
    rw [Header.size] at hlength
    refine ⟨?_, by omega, by omega, hversion, ShapeType.isInt32_of_isValidCode htype⟩
    rw [hcode]
    decide
  have hvalid : h.defect? = none := by
    refine Header.defect?_eq_none_iff.mpr ⟨hcode, htype, ?_⟩
    omega
  have hcontent : h.contentLength = sizeAll rs := by
    rw [Header.contentLength, hlength]
    omega
  have hheader := Header.read_append (encodeAll rs ++ trailing) hstorable hvalid hreserved
  have hrun := Desk.run_taken hrecords answer Reading.warnsByDefault trailing
    ⟨⟨encodeAll rs ++ trailing⟩, [], .mainHeader h :: .indexHeader index :: w.log, w.memo⟩ rfl
  rw [← hcontent] at hrun
  refine (parseStreams_of_run hshp hshx hij hindex hheader hrun).trans ?_
  simp only [Desk.midway, hcontent]

def sampleHeader : Header :=
  ⟨Header.magic, 152, 1000, 1, ⟨⟨0⟩, ⟨1⟩⟩, ⟨⟨0⟩, ⟨1⟩⟩, ⟨⟨0⟩, ⟨0⟩⟩, ⟨⟨0⟩, ⟨0⟩⟩⟩

theorem sampleHeader_storable : sampleHeader.IsStorable :=
  ⟨by decide, by decide, by decide, by decide, by decide⟩

/-- Records that fill what the header promises. -/
def sampleRecords : List StoredRecord :=
  [⟨7, 2, .null⟩, ⟨-1, 10, .point ⟨⟨3⟩, ⟨4⟩⟩⟩, ⟨5, 2, .null⟩]

theorem sampleRecords_exact : ∀ r ∈ sampleRecords, r.IsExact := by
  intro r hr
  simp only [sampleRecords, List.mem_cons, List.not_mem_nil, or_false] at hr
  rcases hr with rfl | rfl | rfl <;> exact ⟨by decide, by decide⟩

/-- Of three records the second is the last that is wanted. -/
theorem Workspace.parseStreams_encode_two_of_three :
    ∃ w' : Workspace Plain Nat,
      parseStreams (some (.stream 0)) (some (.stream 1)) (watcher fun _ n => (n == 0, n + 1))
        (.init .empty
          [⟨sampleHeader.encode (List.replicate 20 7) ++
              (encodeAll [⟨7, 2, .null⟩, ⟨-1, 10, .point ⟨⟨3⟩, ⟨4⟩⟩⟩, ⟨5, 2, .null⟩] ++ [9])⟩,
            ⟨sampleHeader.encode (List.replicate 20 0) ++ [1, 2]⟩] 0) = .ok () w' ∧
      w'.session.shapeCount = 2 ∧ w'.memo = 2 ∧
      w'.streams = [⟨encodeAll [⟨5, 2, .null⟩] ++ [9]⟩, ⟨[1, 2]⟩] := by
  refine ⟨_, parseStreams_encode ?_ rfl (by decide) (by decide) rfl (by decide) rfl rfl rfl
    (by decide) (Header.read_append [1, 2] sampleHeader_storable (by decide) rfl), rfl, rfl, rfl⟩
  intro r hr
  simp only [List.mem_cons, List.not_mem_nil, or_false] at hr
  rcases hr with rfl | rfl | rfl <;> exact ⟨by decide, by decide⟩

end Shapefile
