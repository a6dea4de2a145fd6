import Shapefile.Proofs.Client
import Shapefile.Proofs.Fieldwise
import Shapefile.Proofs.Framing

/-! # What reading on takes

A field that is read takes its width off the budget, so a record takes eight bytes and what its
content has, whatever it declares (`Record.read_takes`). A reading that goes on at its desk takes a
record, ends or fails, and of the desk changes the source and the log alone
(`Desk.advance_continued`). -/

namespace Shapefile

variable {ε α β : Type}

/-! ## Fields -/

namespace Meter

/-- A computation that counts `n` bytes if it succeeds. -/
def Takes (n : Nat) (x : Metered ε α) : Prop :=
  ∀ ⦃s t a⦄, x s = .ok a t → t.1 = s.1.count n

/-- A computation that does nothing to the meter but count bytes, even if it fails. -/
def OnlyCounts (x : Metered ε α) : Prop := ∀ s, ∃ n, (Desk.endState (x s)).1 = s.1.count n

namespace Takes

theorem pure (a : α) : Takes (ε := ε) 0 (pure a) := by
  intro s t b h
  cases h
  exact (count_zero s.1).symm

theorem bind {m n : Nat} {x : Metered ε α} {f : α → Metered ε β} (hx : Takes m x)
    (hf : ∀ a, Takes n (f a)) : Takes (m + n) (x >>= f) := by
  intro s u b h
  obtain ⟨a, t, hxs, hft⟩ := bind_eq_ok h
  rw [hf a hft, hx hxs, count_count]

end Takes

namespace OnlyCounts

theorem pure (a : α) : OnlyCounts (ε := ε) (pure a) := fun s => ⟨0, (count_zero s.1).symm⟩

theorem throw (f : Fault) : OnlyCounts (ε := ε) (α := α) (throw f) :=
  fun s => ⟨0, (count_zero s.1).symm⟩

theorem bind {x : Metered ε α} {f : α → Metered ε β} (hx : OnlyCounts x)
    (hf : ∀ a, OnlyCounts (f a)) : OnlyCounts (x >>= f) := by
  intro s
  obtain ⟨m, hm⟩ := hx s
  cases hxs : x s with
  | ok a t =>
    obtain ⟨n, hn⟩ := hf a t
    rw [hxs] at hm
    rw [bind_of_ok hxs]
    exact ⟨m + n, by rw [hn, ← count_count, ← hm]; rfl⟩
  | error e t =>
    rw [hxs] at hm
    rw [bind_of_error hxs]
    exact ⟨m, hm⟩

end OnlyCounts

/-- Counting takes off what is left, if anything is. -/
theorem left_count_of_pos {m : Meter} (h : 0 < m.left) (n : Nat) :
    (m.count n).left = m.left - n := by
  cases hm : m.remaining with
  | none =>
    rw [left, hm] at h
    cases h
  | some left =>
    rw [left_count hm, Meter.left, hm]
    rfl

theorem left_count_le (m : Meter) (n : Nat) : (m.count n).left ≤ m.left := by
  cases hm : m.remaining with
  | none => simp [left, count, hm]
  | some left =>
    rw [left_count hm, Meter.left, hm, Option.getD_some]
    omega

theorem OnlyCounts.left_le {x : Metered ε α} (hx : OnlyCounts x) (s : Meter × ε) :
    (Desk.endState (x s)).1.left ≤ s.1.left := by
  obtain ⟨n, hn⟩ := hx s
  rw [hn]
  exact left_count_le s.1 n

variable (feed : Feed ε)

theorem read_takes (n : Nat) : Takes n (read feed n) := by
  intro s t data h
  have hends := read_ends feed n s
  rw [h] at hends
  cases hends with
  | exact _ length => rw [Int.natCast_inj.mp length]

theorem read_onlyCounts (n : Int) : OnlyCounts (read feed n) := by
  intro s
  have hends := read_ends feed n s
  generalize read feed n s = r at hends ⊢
  cases hends with
  | @exact data => exact ⟨data.length, rfl⟩
  | inexact | refused => exact ⟨0, (count_zero s.1).symm⟩

theorem readInt16BE_takes : Takes 2 (readInt16BE feed) :=
  (read_takes feed 2).bind fun _ => .pure _

theorem readInt32BE_takes : Takes 4 (readInt32BE feed) :=
  (read_takes feed 4).bind fun _ => .pure _

theorem readInt32LE_takes : Takes 4 (readInt32LE feed) :=
  (read_takes feed 4).bind fun _ => .pure _

theorem readFloat64LE_takes : Takes 8 (readFloat64LE feed) :=
  (read_takes feed 8).bind fun _ => .pure _

theorem readHalves_takes : Takes 4 (readHalves feed) :=
  (readInt16BE_takes feed).bind fun _ => (readInt16BE_takes feed).bind fun _ => .pure _

end Meter

/-- Whatever reads fields does nothing else to the meter. -/
theorem Fieldwise.onlyCounts {ε' : Type} {feed : Feed ε} {feed' : Feed ε'} {x : Metered ε α}
    {y : Metered ε' α} (H : Fieldwise feed feed' x y) : Meter.OnlyCounts x := by
  induction H with
  | pure a => exact .pure a
  | throw f => exact .throw f
  | read n => exact Meter.read_onlyCounts feed n
  | look _ ih => exact fun s => ih s.1 s
  | bind _ _ ihx ihf => exact ihx.bind ihf

/-! ## Records -/

section
variable (feed : Feed ε)

theorem RecordHeader.read_takes : Meter.Takes 8 (RecordHeader.read feed) :=
  (Meter.readInt32BE_takes feed).bind fun _ => (Meter.readHalves_takes feed).bind fun _ => .pure _

/-- What follows the shape type is the rest of a content, and the shape is what that becomes. -/
theorem Shape.read_takes {typeCode : Int} {recordNumber objectId : Option Int} {shape : Shape}
    {s t : Meter × ε} (h : Shape.read feed typeCode recordNumber objectId s = .ok shape t) :
    ∃ c : Content, shape = c.shape objectId recordNumber ∧ t.1 = s.1.count (c.size - 4) := by
  unfold Shape.read at h
  cases hcode : ShapeType.ofCode? typeCode with
  | none =>
    rw [hcode] at h
    cases h
  | some type =>
    rw [hcode] at h
    cases type with
    | null =>
      cases h
      exact ⟨.null, rfl, (Meter.count_zero _).symm⟩
    | point =>
      obtain ⟨x, u, hx, h⟩ := bind_eq_ok h
      obtain ⟨y, v, hy, h⟩ := bind_eq_ok h
      cases h
      refine ⟨.point ⟨x, y⟩, rfl, ?_⟩
      rw [Meter.readFloat64LE_takes feed hy, Meter.readFloat64LE_takes feed hx, Meter.count_count]
      rfl
    | _ => cases h

namespace Record

theorem readContent_takes {objectId : Nat} {header : RecordHeader} {shape : Shape}
    {s t : Meter × ε} (h : readContent feed objectId header s = .ok shape t) :
    ∃ c : Content, shape = c.shape (some objectId) (some header.number) ∧
      t.1 = s.1.count c.size := by
  obtain ⟨typeCode, u, htag, hshape⟩ := bind_eq_ok h
  obtain ⟨c, rfl, ht⟩ := Shape.read_takes feed hshape
  refine ⟨c, rfl, ?_⟩
  rw [ht, Meter.readInt32LE_takes feed htag, Meter.count_count]
  cases c <;> rfl

variable {feed} {objectId : Nat} {record : Record} {s t : Meter × ε}

/-- A record that is read has a header whose declared length fits, and a content. -/
theorem of_read (h : Record.read feed objectId s = .ok record t) :
    ∃ u, RecordHeader.read feed s = .ok record.header u ∧
      record.header.overruns u.1.left = false ∧
      readContent feed objectId record.header u = .ok record.shape t ∧
      record.decoded = t.1.consumed - u.1.consumed := by
  rw [read_eq] at h
  cases hheader : RecordHeader.read feed s with
  | error f u =>
    rw [hheader] at h
    cases h
  | ok header u =>
    simp only [hheader] at h
    split at h
    · cases h
    · rename_i hfits
      cases hcontent : readContent feed objectId header u with
      | error f v =>
        rw [hcontent] at h
        cases h
      | ok shape v =>
        rw [hcontent] at h
        cases h
        exact ⟨u, rfl, Bool.not_eq_true _ ▸ hfits, hcontent, rfl⟩

/-- A record takes eight bytes and its content, and becomes the shape that its content becomes. -/
theorem read_content (h : Record.read feed objectId s = .ok record t) :
    ∃ c : Content, record.shape = c.shape (some objectId) (some record.header.number) ∧
      record.decoded = c.size ∧ t.1 = s.1.count (8 + c.size) := by
  obtain ⟨u, hheader, -, hcontent, hdecoded⟩ := of_read h
  obtain ⟨c, hshape, ht⟩ := readContent_takes feed hcontent
  have hu := RecordHeader.read_takes feed hheader
  refine ⟨c, hshape, ?_, ?_⟩
  · rw [hdecoded, ht, Meter.count_consumed, Nat.add_sub_cancel_left]
  · rw [ht, hu, Meter.count_count]

/-- The declared length need only fit into what is left after the header. -/
theorem read_takes (h : Record.read feed objectId s = .ok record t) :
    t.1 = s.1.count (8 + record.decoded) ∧ (record.decoded = 4 ∨ record.decoded = 20) ∧
      record.header.FitsIn (s.1.count 8).left := by
  obtain ⟨c, -, hdecoded, ht⟩ := read_content h
  obtain ⟨u, hheader, hfits, -⟩ := of_read h
  rw [RecordHeader.overruns_eq_false_iff, RecordHeader.read_takes feed hheader] at hfits
  refine ⟨hdecoded ▸ ht, ?_, hfits⟩
  rw [hdecoded]
  cases c with
  | null => exact .inl rfl
  | point => exact .inr rfl

theorem read_onlyCounts (feed : Feed ε) (objectId : Nat) :
    Meter.OnlyCounts (Record.read feed objectId) := (read_fieldwise feed feed objectId).onlyCounts

end Record
end

/-! ## Readings -/

theorem Content.type?_shape (c : Content) (objectId recordNumber : Option Int) :
    (c.shape objectId recordNumber).type? = some c.type := by
  cases c with
  | null => rfl
  | point position =>
    have hclass : ShapeType.ofClassName? ShapeType.point.className = some .point := by
      decide +kernel
    simp only [shape, Shape.point, Shape.make, Shape.type?, hclass, Option.getD_none,
      Option.getD_some]
    exact ShapeType.ofCode?_code .point

/-- What the records have that shapes were read from, their headers included. -/
def sizeTaken (shapes : List Shape) : Nat :=
  12 * shapes.countP (fun shape => shape.type? = some .null) +
    28 * shapes.countP (fun shape => shape.type? = some .point)

theorem sizeTaken_cons (shape : Shape) (shapes : List Shape) :
    sizeTaken (shape :: shapes) = sizeTaken [shape] + sizeTaken shapes := by
  simp only [sizeTaken, List.countP_cons, List.countP_nil]
  omega

theorem sizeTaken_content (c : Content) (objectId recordNumber : Option Int) :
    sizeTaken [c.shape objectId recordNumber] = 8 + c.size := by
  simp only [sizeTaken, List.countP_cons, List.countP_nil, Content.type?_shape]
  cases c <;> rfl

namespace Reading

variable {link : Link ε} {s t : Reading × ε}

/-- A shape that a reading gives is counted and takes something off the budget. -/
structure Gave (s t : Reading × ε) : Prop where
  left : 0 < s.1.left
  less : t.1.left < s.1.left
  count : t.1.shapeCount = s.1.shapeCount + 1
  phase : t.1.phase = s.1.phase

/-- A shape that a reading gives is that of a record which it reads. -/
theorem record_of_advance {shape : Shape} (h : advance link s = .ok (some shape) t) :
    0 < s.1.left ∧ ∃ record meter e, shape = record.shape ∧
      Record.read link.feed s.1.shapeCount (s.1.meter, s.2) = .ok record (meter, e) ∧
      t.1 = { s.1 with meter, shapeCount := s.1.shapeCount + 1 } := by
  obtain ⟨rd, e⟩ := s
  by_cases hleft : rd.left ≤ 0
  · rw [advance_of_left hleft] at h
    cases h
  simp only [advance, if_neg hleft] at h
  cases hread : Record.read link.feed rd.shapeCount (rd.meter, e) with
  | error f v =>
    rw [hread] at h
    simp only at h
    split at h <;> cases h
  | ok record v =>
    rw [hread] at h
    cases h
    exact ⟨Int.not_le.mp hleft, record, v.1, v.2, rfl, rfl, rfl⟩

/-- A fault of a reading is that of a record which it fails to read. -/
theorem failure_of_advance {f : Fault} (h : advance link s = .error f t) :
    0 < s.1.left ∧ ∃ meter e,
      Record.read link.feed s.1.shapeCount (s.1.meter, s.2) = .error f (meter, e) ∧
      t = if endsFailed f = true then ({ s.1 with meter, phase := .failed }, e)
        else settle link ({ s.1 with meter }, e) := by
  obtain ⟨rd, e⟩ := s
  by_cases hleft : rd.left ≤ 0
  · rw [advance_of_left hleft] at h
    cases h
  simp only [advance, if_neg hleft] at h
  cases hread : Record.read link.feed rd.shapeCount (rd.meter, e) with
  | ok record v =>
    rw [hread] at h
    cases h
  | error f' v =>
    rw [hread] at h
    refine ⟨Int.not_le.mp hleft, v.1, v.2, ?_⟩
    by_cases hends : endsFailed f' = true
    · simp only [if_pos hends] at h
      cases h
      exact ⟨rfl, (if_pos hends).symm⟩
    · simp only [if_neg hends] at h
      cases h
      exact ⟨rfl, (if_neg hends).symm⟩

theorem gave_of_advance {shape : Shape} (h : advance link s = .ok (some shape) t) : Gave s t := by
  obtain ⟨rd, e⟩ := t
  obtain ⟨hpos, record, meter, _, -, hread, rfl⟩ := record_of_advance h
  obtain ⟨rfl, -, -⟩ := Record.read_takes hread
  refine ⟨hpos, ?_, rfl, rfl⟩
  simp only [left, Meter.left_count_of_pos hpos]
  omega

/-- A shape takes its record off the budget. -/
theorem left_of_advance {shape : Shape} (h : advance link s = .ok (some shape) t) :
    t.1.left = s.1.left - sizeTaken [shape] := by
  obtain ⟨rd, e⟩ := t
  obtain ⟨hpos, record, meter, _, rfl, hread, rfl⟩ := record_of_advance h
  obtain ⟨c, hshape, -, rfl⟩ := Record.read_content hread
  rw [hshape, sizeTaken_content]
  exact Meter.left_count_of_pos hpos _

end Reading

namespace Desk

variable {σ χ : Type} [Source σ]

/-- What comes of a reading that goes on: it gives a record, ends with its budget, or fails. -/
inductive Continued (rd : Reading) (d : Desk σ χ) :
    EStateM.Result Fault (Reading × Desk σ χ) (Option Shape) → Prop where
  | gave {record : Record} {meter : Meter} {source : σ} (left : 0 < rd.left)
      (read : Record.read Source.read rd.shapeCount (rd.meter, d.source) =
        .ok record (meter, source)) :
      Continued rd d (.ok (some record.shape)
        ({ rd with meter, shapeCount := rd.shapeCount + 1 },
          Reading.warn link rd record { d with source }))
  | ended (left : rd.left ≤ 0) : Continued rd d (.ok none (Reading.settle link (rd, d)))
  | failed {f : Fault} {meter : Meter} {source : σ} (left : meter.left ≤ rd.left)
      (ends : Reading.endsFailed f = true) :
      Continued rd d (.error f ({ rd with meter, phase := .failed }, { d with source }))
  | broke {f : Fault} {meter : Meter} {source : σ} (left : meter.left ≤ rd.left)
      (ends : Reading.endsFailed f = false) :
      Continued rd d (.error f (Reading.settle link ({ rd with meter }, { d with source })))

theorem advance_continued (rd : Reading) (d : Desk σ χ) :
    Continued rd d (Reading.advance link (rd, d)) := by
  rcases Int.lt_or_le 0 rd.left with left | left
  · have hcount := (Record.read_onlyCounts (ε := σ) Source.read rd.shapeCount).left_le
      (rd.meter, d.source)
    cases hread : Record.read Source.read rd.shapeCount (rd.meter, d.source) with
    | ok record t =>
      rw [advance_of_read left hread, ← warn_logs rd record { d with source := t.2 }]
      exact .gave left hread
    | error f t =>
      rw [hread] at hcount
      rw [advance_of_fault left hread]
      split
      · exact .failed hcount ‹_›
      · exact .broke hcount (Bool.not_eq_true _ ▸ ‹_›)
  · rw [Reading.advance_of_left left]
    exact .ended left

end Desk
end Shapefile
