import Shapefile.Proofs.Simulation
import Shapefile.Proofs.Steps
import Shapefile.Reading.Desk

/-! # One step of a reading at its desk

Reading on gives a shape, which is counted and has the count before as its object id, or comes to
an end (`Desk.advance_advanced`). Iterators and memo are kept. What comes of it is told by what
becomes of the source when a record is read from it (`Desk.advance_of_read`,
`Desk.advance_of_fault`). -/

namespace Shapefile

theorem bind_eq_ok {σ α β : Type} {x : EStateM Fault σ α} {f : α → EStateM Fault σ β} {s u : σ}
    {b : β} (h : (x >>= f) s = .ok b u) : ∃ a t, x s = .ok a t ∧ f a t = .ok b u := by
  cases hx : x s with
  | ok a t => exact ⟨a, t, rfl, (bind_of_ok hx).symm.trans h⟩
  | error e t =>
    rw [bind_of_error hx] at h
    cases h

namespace Reading
variable {ε : Type}

/-- Shapes are handed over one at a time, and the rest of them after the consumer has answered. -/
theorem deliver_eq_bind (link : Link ε) (consumer : Consumer ε) (fuel : Nat) (it : Iterator) :
    deliver link consumer (fuel + 1) it = it.next link >>= fun
      | none => pure ()
      | some shape => consumer shape >>= fun
        | true => deliver link consumer fuel .suspended
        | false => modify (settle link) := by
  funext s
  cases hnext : it.next link s with
  | error f t =>
    rw [bind_of_error hnext]
    simp only [deliver, hnext]
  | ok shape? t =>
    rw [bind_of_ok hnext]
    simp only [deliver, hnext]
    cases shape? with
    | none => rfl
    | some shape =>
      simp only
      cases hanswer : consumer shape t with
      | error f u => rw [bind_of_error hanswer]
      | ok more u =>
        rw [bind_of_ok hanswer]
        cases more <;> rfl

end Reading

theorem Phase.reading_ne_ready : reading ≠ ready := by decide

theorem Phase.done_ne_ready : done ≠ ready := by decide

theorem Phase.failed_ne_ready : failed ≠ ready := by decide

section
variable {ε : Type} {feed : Feed ε} {s t : Meter × ε}

theorem Shape.read_objectId {typeCode : Int} {recordNumber : Option Int} {objectId : Int}
    {shape : Shape}
    (h : Shape.read feed typeCode recordNumber (some objectId) s = .ok shape t) :
    shape.objectId = objectId := by
  unfold Shape.read at h
  cases hcode : ShapeType.ofCode? typeCode with
  | none =>
    rw [hcode] at h
    cases h
  | some type =>
    rw [hcode] at h
    cases type with
    | null =>
      cases h
      rfl
    | point =>
      obtain ⟨x, s, -, h⟩ := bind_eq_ok h
      obtain ⟨y, s, -, h⟩ := bind_eq_ok h
      cases h
      rfl
    | _ => cases h

theorem Record.read_objectId {objectId : Nat} {record : Record}
    (h : Record.read feed objectId s = .ok record t) : record.shape.objectId = objectId := by
  rw [Record.read_eq] at h
  split at h
  · cases h
  · split at h
    · cases h
    · split at h
      · cases h
      · rename_i hc
        cases h
        obtain ⟨typeCode, u, -, hc⟩ := bind_eq_ok hc
        exact Shape.read_objectId hc

end

/-! ## Warnings -/

/-- What is logged about a record whose declared length is not that of its content. -/
def Record.mismatch? (r : Record) : Option Entry :=
  if (r.decoded : Int) = r.header.contentLength then none
  else some (.lengthMismatch r.header.number r.header.contentLength r.decoded)

/-- The warnings about records, in order, if there are to be any. -/
def warningsOf (warns : Bool) (records : List Record) : List Entry :=
  if warns then records.filterMap Record.mismatch? else []

namespace Desk

variable {σ χ : Type}

/-! ## Iterators -/

theorem iterator_append (d : Desk σ χ) (it : Reading.Iterator) (i : Nat) :
    ({ d with iterators := d.iterators ++ [it] } : Desk σ χ).iterator i =
      if d.iterators.length = i then it else d.iterator i := by
  simp only [iterator, List.getD_eq_getElem?_getD]
  split
  · rename_i h
    rw [← h, List.getElem?_concat_length]
    rfl
  · rename_i h
    rcases Nat.lt_or_gt_of_ne h with hlt | hgt
    · rw [List.getElem?_eq_none (by simp; omega), List.getElem?_eq_none (by omega)]
    · rw [List.getElem?_append_left hgt]

theorem iterator_set_ne (d : Desk σ χ) {i j : Nat} (h : i ≠ j) (it : Reading.Iterator) :
    ({ d with iterators := d.iterators.set i it } : Desk σ χ).iterator j = d.iterator j := by
  simp only [iterator, List.getD_eq_getElem?_getD, List.getElem?_set_ne h]

theorem iterator_set_self (d : Desk σ χ) (i : Nat) (it : Reading.Iterator) :
    ({ d with iterators := d.iterators.set i it } : Desk σ χ).iterator i = it ∨
      ({ d with iterators := d.iterators.set i it } : Desk σ χ).iterator i = .finished := by
  simp only [iterator, List.getD_eq_getElem?_getD, List.getElem?_set_self']
  cases d.iterators[i]? with
  | none => exact .inr rfl
  | some _ => exact .inl rfl

/-! ## One step of a reading -/

/-- What a reading of records does not touch at a desk. -/
structure Kept (d d' : Desk σ χ) : Prop where
  iterators : d'.iterators = d.iterators
  memo : d'.memo = d.memo

/-- What comes of reading on: a shape, which is counted, or an end. A reading that has begun does
not get ready again. -/
inductive Advanced (rd : Reading) (d : Desk σ χ) :
    EStateM.Result Fault (Reading × Desk σ χ) (Option Shape) → Prop where
  | gave {shape : Shape} {rd' : Reading} {d' : Desk σ χ} (id : shape.objectId = rd.shapeCount)
      (count : rd'.shapeCount = rd.shapeCount + 1) (phase : rd'.phase = rd.phase)
      (kept : Kept d d') : Advanced rd d (.ok (some shape) (rd', d'))
  | ended {rd' : Reading} {d' : Desk σ χ} (count : rd'.shapeCount = rd.shapeCount)
      (phase : rd.phase ≠ .ready → rd'.phase ≠ .ready) (kept : Kept d d') :
      Advanced rd d (.ok none (rd', d'))
  | failed {f : Fault} {rd' : Reading} {d' : Desk σ χ} (count : rd'.shapeCount = rd.shapeCount)
      (phase : rd.phase ≠ .ready → rd'.phase ≠ .ready) (kept : Kept d d') :
      Advanced rd d (.error f (rd', d'))

theorem Kept.refl (d : Desk σ χ) : Kept d d := ⟨rfl, rfl⟩

/-- Of a desk at which something is read, the source alone is touched. -/
theorem eq_at_desk {α : Type} {x : Metered σ α} {y : Metered (Desk σ χ) α} {d : Desk σ χ}
    (H : Simulates (Beside fun (source : σ) (e : Desk σ χ) => e = { d with source }) x y)
    (m : Meter) :
    y (m, d) = mapState (fun t => (t.1, { d with source := t.2 })) (x (m, d.source)) := by
  refine eq_mapState _ ((H (s := (m, d.source)) (t := (m, d)) ⟨rfl, rfl⟩).mono ?_)
  rintro ⟨m, source⟩ ⟨_, _⟩ ⟨rfl, rfl⟩
  rfl

section
variable [Source σ]

theorem settle_kept (rd : Reading) (d : Desk σ χ) :
    ∃ rd' d', Reading.settle link (rd, d) = (rd', d') ∧ rd'.shapeCount = rd.shapeCount ∧
      (rd.phase ≠ .ready → rd'.phase ≠ .ready) ∧ Kept d d' := by
  by_cases h : rd.phase = .reading
  · simp only [Reading.settle, if_pos h]
    exact ⟨_, _, rfl, rfl, fun _ => Phase.done_ne_ready, rfl, rfl⟩
  · simp only [Reading.settle, if_neg h]
    exact ⟨rd, d, rfl, rfl, id, .refl d⟩

theorem feed_simulates (d : Desk σ χ) (n : Int) :
    Simulates (fun (source : σ) (e : Desk σ χ) => e = { d with source }) (Source.read n)
      (feed n) := by
  rintro source _ rfl
  simp only [feed]
  cases Source.read n source with
  | ok data source => exact .ok rfl
  | error f source => exact .error rfl

theorem read_at_desk (objectId : Nat) (m : Meter) (d : Desk σ χ) :
    Record.read feed objectId (m, d) =
      mapState (fun t => (t.1, { d with source := t.2 }))
        (Record.read Source.read objectId (m, d.source)) :=
  eq_at_desk (Record.read_simulates (feed_simulates d) objectId) m

theorem skip_at_desk (n : Int) (m : Meter) (d : Desk σ χ) :
    Meter.read feed n (m, d) =
      mapState (fun t => (t.1, { d with source := t.2 }))
        (Meter.read Source.read n (m, d.source)) :=
  eq_at_desk (Meter.read_simulates (feed_simulates d) n) m

theorem warn_logs (rd : Reading) (r : Record) (d : Desk σ χ) :
    Reading.warn link rd r d = { d with log := (warningsOf rd.warns [r]).reverse ++ d.log } := by
  by_cases h : (r.decoded : Int) = r.header.contentLength <;> cases hw : rd.warns <;>
    simp [Reading.warn, Record.isMisdeclared, warningsOf, Record.mismatch?, link, h, hw]

section
variable {rd : Reading} {d : Desk σ χ} {t : Meter × σ}

theorem advance_of_read {r : Record} (left : 0 < rd.left)
    (read : Record.read Source.read rd.shapeCount (rd.meter, d.source) = .ok r t) :
    Reading.advance link (rd, d) =
      .ok (some r.shape) ({ rd with meter := t.1, shapeCount := rd.shapeCount + 1 },
        { d with source := t.2, log := (warningsOf rd.warns [r]).reverse ++ d.log }) := by
  have hread := read_at_desk rd.shapeCount rd.meter d
  rw [read] at hread
  simp only [Reading.advance, if_neg (Int.not_le.mpr left),
    show (link : Link (Desk σ χ)).feed = feed from rfl, hread, mapState, warn_logs]

theorem advance_of_fault {f : Fault} (left : 0 < rd.left)
    (read : Record.read Source.read rd.shapeCount (rd.meter, d.source) = .error f t) :
    Reading.advance link (rd, d) =
      .error f (if Reading.endsFailed f = true then
          ({ rd with meter := t.1, phase := .failed }, { d with source := t.2 })
        else Reading.settle link ({ rd with meter := t.1 }, { d with source := t.2 })) := by
  have hread := read_at_desk rd.shapeCount rd.meter d
  rw [read] at hread
  simp only [Reading.advance, if_neg (Int.not_le.mpr left),
    show (link : Link (Desk σ χ)).feed = feed from rfl, hread, mapState]
  split <;> rfl

end

theorem advance_advanced (rd : Reading) (d : Desk σ χ) :
    Advanced rd d (Reading.advance link (rd, d)) := by
  rcases Int.lt_or_le 0 rd.left with left | left
  · cases hread : Record.read Source.read rd.shapeCount (rd.meter, d.source) with
    | ok record t =>
      rw [advance_of_read left hread]
      exact .gave (Record.read_objectId hread) rfl rfl ⟨rfl, rfl⟩
    | error f t =>
      rw [advance_of_fault left hread]
      split
      · exact .failed rfl (fun _ => Phase.failed_ne_ready) ⟨rfl, rfl⟩
      · obtain ⟨rd', d', heq, hcount, hphase, hkept⟩ :=
          settle_kept { rd with meter := t.1 } { d with source := t.2 }
        rw [heq]
        exact .failed hcount hphase ⟨hkept.iterators, hkept.memo⟩
  · obtain ⟨rd', d', heq, hcount, hphase, hkept⟩ := settle_kept rd d
    rw [Reading.advance_of_left left, heq]
    exact .ended hcount hphase hkept

end

end Desk
end Shapefile
