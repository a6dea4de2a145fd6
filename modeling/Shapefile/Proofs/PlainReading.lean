import Shapefile.Proofs.Advance
import Shapefile.Proofs.Framing

/-! # Readings of a plain byte string

A watcher is a consumer that leaves the reading alone. With one, a reading of a plain byte string
goes through framed records one by one (`Desk.deliver_append`), so what becomes of it is settled by
what the byte string goes on with: the budget is used up, the watcher has enough, or the rest is a
rejection. -/

namespace Shapefile

variable {σ χ : Type}

def mindAfter (answer : Shape → χ → Bool × χ) (shapes : List Shape) (memo : χ) : χ :=
  shapes.foldl (fun memo shape => (answer shape memo).2) memo

/-- A watcher asks for more after each of the shapes. -/
def wantsMore (answer : Shape → χ → Bool × χ) : List Shape → χ → Bool
  | [], _ => true
  | shape :: shapes, memo =>
    (answer shape memo).1 && wantsMore answer shapes (answer shape memo).2

/-- What is logged about records in a row, the latest first. -/
def StoredRecord.mismatches (warns : Bool) (rs : List StoredRecord) : List Entry :=
  if warns then (rs.filterMap mismatch?).reverse else []

theorem wantsMore_of_true {answer : Shape → χ → Bool × χ}
    (h : ∀ shape memo, (answer shape memo).1 = true) (shapes : List Shape) (memo : χ) :
    wantsMore answer shapes memo = true := by
  induction shapes generalizing memo with
  | nil => rfl
  | cons shape shapes ih => rw [wantsMore, h, ih, Bool.true_and]

theorem wantsMore_middle {answer : Shape → χ → Bool × χ} {before after : List Shape} {shape : Shape}
    {memo : χ} (h : wantsMore answer (before ++ shape :: after) memo = true) :
    (answer shape (mindAfter answer before memo)).1 = true := by
  induction before generalizing memo with
  | nil => exact (Bool.and_eq_true_iff.mp h).1
  | cons first before ih => exact ih (Bool.and_eq_true_iff.mp h).2

theorem mindAfter_append (answer : Shape → χ → Bool × χ) (shapes shapes' : List Shape) (memo : χ) :
    mindAfter answer (shapes ++ shapes') memo =
      mindAfter answer shapes' (mindAfter answer shapes memo) := List.foldl_append

theorem StoredRecord.mismatches_append (warns : Bool) (rs rs' : List StoredRecord) :
    mismatches warns (rs ++ rs') = mismatches warns rs' ++ mismatches warns rs := by
  cases warns <;> simp [mismatches]

theorem StoredRecord.mismatches_eq_nil {warns : Bool} {rs : List StoredRecord}
    (h : ∀ r ∈ rs, (r.content.size : Int) = r.header.contentLength) :
    StoredRecord.mismatches warns rs = [] := by
  have : rs.filterMap StoredRecord.mismatch? = [] := by
    rw [List.filterMap_eq_nil_iff]
    intro r hr
    rw [StoredRecord.mismatch?, if_pos (h r hr)]
  rw [StoredRecord.mismatches, this, List.reverse_nil, ite_self]

theorem Rejection.isShapefile {left : Int} {bs : Bytes} {f : Fault} {n : Nat} {unread : Bytes}
    (H : Rejection left bs f n unread) : f.isShapefile = true := by
  cases H <;> rfl

/-! ## Framed records -/

namespace Desk

/-- A consumer that leaves the reading alone: what it answers, and what it has in mind afterwards,
follows from the shape and from what it had in mind. -/
def watcher (answer : Shape → χ → Bool × χ) : Consumer σ χ := fun shape (rd, d) =>
  .ok (answer shape d.memo).1 (rd, { d with memo := (answer shape d.memo).2 })

/-- A reading and its desk after records. -/
def after (rs : List StoredRecord) (rest : Bytes) (memo : χ) :
    Reading × Desk Plain χ → Reading × Desk Plain χ
  | (rd, d) =>
    ({ rd with
      meter := rd.meter.count (StoredRecord.sizeAll rs)
      shapeCount := rd.shapeCount + rs.length },
    { d with
      source := ⟨rest⟩
      log := StoredRecord.mismatches rd.warns rs ++ d.log
      memo })

theorem after_nil (rest : Bytes) (memo : χ) (rd : Reading) (d : Desk Plain χ) :
    after [] rest memo (rd, d) = (rd, { d with source := ⟨rest⟩, memo }) := by
  simp only [after, StoredRecord.mismatches, StoredRecord.sizeAll_nil, Meter.count_zero,
    List.filterMap_nil, List.reverse_nil, ite_self, List.nil_append, List.length_nil, Nat.add_zero]

theorem after_after (rs rs' : List StoredRecord) (rest rest' : Bytes) (memo memo' : χ)
    (s : Reading × Desk Plain χ) :
    after rs' rest' memo' (after rs rest memo s) = after (rs ++ rs') rest' memo' s := by
  obtain ⟨rd, d⟩ := s
  simp only [after, StoredRecord.mismatches_append, StoredRecord.sizeAll_append,
    List.length_append, List.append_assoc, Meter.count_count, Nat.add_assoc]

variable {rd : Reading} {d : Desk Plain χ} {left : Int} {rest : Bytes}

theorem left_pos (hleft : rd.meter.remaining = some left) (hpos : 0 < left) : 0 < rd.left := by
  simpa only [Reading.left, Meter.left, hleft, Option.getD_some] using hpos

theorem advance_append {r : StoredRecord} (hleft : rd.meter.remaining = some left)
    (hs : r.header.IsStorable) (hf : r.header.FitsIn (left - 8))
    (hd : d.source = ⟨r.encode ++ rest⟩) :
    Reading.advance link (rd, d) =
      .ok (some (r.shape rd.shapeCount)) (after [r] rest d.memo (rd, d)) := by
  have hpos : 0 < left := by
    simp only [RecordHeader.FitsIn] at hf
    omega
  have hread := Record.read_append rest hleft hs hf rd.shapeCount
  rw [← hd] at hread
  have hwarnings :
      (warningsOf rd.warns [⟨r.header, r.shape rd.shapeCount, r.content.size⟩]).reverse =
        StoredRecord.mismatches rd.warns [r] := by
    cases rd.warns <;> rfl
  rw [advance_of_read (left_pos hleft hpos) hread, hwarnings]
  simp only [after, StoredRecord.sizeAll_cons, StoredRecord.sizeAll_nil, Nat.add_zero,
    List.length_singleton]

theorem advance_rejection {bs : Bytes} {f : Fault} {n : Nat} {unread : Bytes}
    (H : Rejection left bs f n unread) (hleft : rd.meter.remaining = some left) (hpos : 0 < left)
    (hd : d.source = ⟨bs⟩) :
    Reading.advance link (rd, d) = .error f
      ({ rd with meter := rd.meter.count n, phase := .failed }, { d with source := ⟨unread⟩ }) := by
  have hread := Record.read_rejection H hleft rd.shapeCount
  rw [← hd] at hread
  have hend : Reading.endsFailed f = true := by
    rw [Reading.endsFailed, H.isShapefile, Bool.true_or]
  rw [advance_of_fault (left_pos hleft hpos) hread, if_pos hend]

variable {answer : Shape → χ → Bool × χ}

theorem watcher_after (answer : Shape → χ → Bool × χ) (rs : List StoredRecord) (rest : Bytes)
    (memo : χ) (shape : Shape) (s : Reading × Desk Plain χ) :
    watcher answer shape (after rs rest memo s) =
      .ok (answer shape memo).1 (after rs rest (answer shape memo).2 s) := rfl

/-- A reading goes through framed records while the watcher wants more. The fuel stays beyond what
is left of the budget. -/
theorem deliver_append {rs : List StoredRecord} (H : StoredRecord.Framed left rs)
    (hleft : rd.meter.remaining = some left) (hd : d.source = ⟨StoredRecord.encodeAll rs ++ rest⟩)
    (hmore : wantsMore answer (StoredRecord.shapes rd.shapeCount rs) d.memo = true) {fuel : Nat}
    (hfuel : left.toNat < fuel) :
    ∃ fuel', (left - StoredRecord.sizeAll rs).toNat < fuel' ∧
      Reading.deliver link (watcher answer) fuel .suspended (rd, d) =
        Reading.deliver link (watcher answer) fuel' .suspended
          (after rs rest (mindAfter answer (StoredRecord.shapes rd.shapeCount rs) d.memo)
            (rd, d)) := by
  induction rs generalizing left rd d fuel with
  | nil =>
    refine ⟨fuel, by simpa using hfuel, ?_⟩
    obtain ⟨source, iterators, log, memo⟩ := d
    cases hd
    rw [after_nil]
    rfl
  | cons r rs ih =>
    obtain ⟨hs, hf, H'⟩ := StoredRecord.Framed.cons_iff.mp H
    have hpos := H.pos_of_cons
    have hsize := r.size_pos
    rw [StoredRecord.encodeAll_cons, List.append_assoc] at hd
    rw [StoredRecord.shapes_cons, wantsMore, Bool.and_eq_true] at hmore
    obtain ⟨fuel, rfl⟩ : ∃ n, fuel = n + 1 := ⟨fuel - 1, by omega⟩
    have hstep : Reading.deliver link (watcher answer) (fuel + 1) .suspended (rd, d) =
        Reading.deliver link (watcher answer) fuel .suspended
          (after [r] (StoredRecord.encodeAll rs ++ rest)
            (answer (r.shape rd.shapeCount) d.memo).2 (rd, d)) := by
      refine Reading.deliver_of_more (advance_append hleft hs hf hd) ?_
      rw [watcher_after, hmore.1]
    generalize hs' : after [r] (StoredRecord.encodeAll rs ++ rest)
      (answer (r.shape rd.shapeCount) d.memo).2 (rd, d) = s' at hstep
    obtain ⟨rd', d'⟩ := s'
    have hleft' : rd'.meter.remaining = some (left - r.size) := by
      cases hs'
      simp [Meter.count, hleft]
    have hd' : d'.source = ⟨StoredRecord.encodeAll rs ++ rest⟩ := by
      cases hs'
      rfl
    have hmore' : wantsMore answer (StoredRecord.shapes rd'.shapeCount rs) d'.memo = true := by
      cases hs'
      exact hmore.2
    obtain ⟨fuel', hfuel', heq⟩ := ih H' hleft' hd' hmore' (by omega : (left - r.size).toNat < fuel)
    refine ⟨fuel', ?_, ?_⟩
    · rwa [StoredRecord.sizeAll_cons, Int.natCast_add, ← Int.sub_sub]
    · rw [hstep, heq, ← hs', after_after, StoredRecord.shapes_cons]
      cases hs'
      rfl

end Desk

/-! ## Whole runs -/

namespace Desk

variable {answer : Shape → χ → Bool × χ} {budget : Int} {warns : Bool} {d : Desk Plain χ}
  {rs : List StoredRecord} {rest : Bytes}

/-- A reading that has gone through the first records of `budget` bytes. -/
def midway (budget : Int) (warns : Bool) (rs : List StoredRecord) (phase : Phase) : Reading :=
  ⟨⟨StoredRecord.sizeAll rs, some (budget - StoredRecord.sizeAll rs)⟩, phase, rs.length, warns⟩

theorem left_midway (phase : Phase) :
    (midway budget warns rs phase).left = budget - StoredRecord.sizeAll rs := rfl

theorem after_midway (rs' : List StoredRecord) (memo : χ) (phase : Phase) :
    after rs' rest memo (midway budget warns rs phase, d) =
      (midway budget warns (rs ++ rs') phase,
        { d with source := ⟨rest⟩, log := StoredRecord.mismatches warns rs' ++ d.log, memo }) := by
  simp only [after, midway, Meter.count, Option.map_some, StoredRecord.sizeAll_append,
    List.length_append, Int.natCast_add, Int.sub_sub]

theorem settle_midway :
    Reading.settle link (midway budget warns rs .reading, d) =
      (midway budget warns rs .done,
        { d with log := .totals rs.length (budget - StoredRecord.sizeAll rs) :: d.log }) := rfl

theorem deliver_start (warns : Bool) (H : StoredRecord.Framed budget rs)
    (hd : d.source = ⟨StoredRecord.encodeAll rs ++ rest⟩)
    (hmore : wantsMore answer (StoredRecord.shapes 0 rs) d.memo = true) :
    ∃ fuel, (budget - StoredRecord.sizeAll rs).toNat < fuel ∧
      Reading.deliver link (watcher answer) (budget.toNat + 1) .fresh (.start budget warns, d) =
        Reading.deliver link (watcher answer) fuel .suspended
          (midway budget warns rs .reading,
            { d with
              source := ⟨rest⟩
              log := StoredRecord.mismatches warns rs ++ d.log
              memo := mindAfter answer (StoredRecord.shapes 0 rs) d.memo }) := by
  have hbegun : (.start budget warns : Reading) = { midway budget warns [] .reading with
      phase := .ready } := by
    simp [Reading.start, midway, Meter.start]
  have hleft : (midway budget warns [] .reading).meter.remaining = some budget := by
    simp [midway]
  obtain ⟨fuel, hfuel, heq⟩ := deliver_append H hleft hd hmore (Nat.lt_succ_self _)
  refine ⟨fuel, hfuel, ?_⟩
  rw [hbegun, Reading.deliver_fresh rfl]
  refine heq.trans ?_
  rw [after_midway]
  rfl

theorem run_used_up (H : StoredRecord.Framed budget rs)
    (hd : d.source = ⟨StoredRecord.encodeAll rs ++ rest⟩)
    (hmore : wantsMore answer (StoredRecord.shapes 0 rs) d.memo = true)
    (hend : budget ≤ StoredRecord.sizeAll rs) :
    run (watcher answer) (.start budget warns, d) =
      .ok rs.length (midway budget warns rs .done,
        { d with
          source := ⟨rest⟩
          log := .totals rs.length (budget - StoredRecord.sizeAll rs) ::
            (StoredRecord.mismatches warns rs ++ d.log)
          memo := mindAfter answer (StoredRecord.shapes 0 rs) d.memo }) := by
  obtain ⟨fuel, hfuel, heq⟩ := deliver_start warns H hd hmore
  obtain ⟨fuel, rfl⟩ : ∃ n, fuel = n + 1 := ⟨fuel - 1, by omega⟩
  have hleft : (midway budget warns rs .reading).left ≤ 0 := by
    rw [left_midway]
    omega
  exact Reading.run_of_ok (heq.trans (Reading.deliver_of_end (Reading.advance_of_left hleft)))

/-- The watcher has enough after the record `r`. What the byte string goes on with is not seen. -/
theorem run_stops {r : StoredRecord} (H : StoredRecord.Framed budget (rs ++ [r]))
    (hd : d.source = ⟨StoredRecord.encodeAll (rs ++ [r]) ++ rest⟩)
    (hmore : wantsMore answer (StoredRecord.shapes 0 rs) d.memo = true)
    (hstop : (answer (r.shape rs.length)
      (mindAfter answer (StoredRecord.shapes 0 rs) d.memo)).1 = false) :
    run (watcher answer) (.start budget warns, d) =
      .ok (rs ++ [r]).length (midway budget warns (rs ++ [r]) .done,
        { d with
          source := ⟨rest⟩
          log := .totals (rs ++ [r]).length (budget - StoredRecord.sizeAll (rs ++ [r])) ::
            (StoredRecord.mismatches warns (rs ++ [r]) ++ d.log)
          memo := mindAfter answer (StoredRecord.shapes 0 (rs ++ [r])) d.memo }) := by
  obtain ⟨H, H'⟩ := StoredRecord.Framed.append_iff.mp H
  obtain ⟨hs, hf, -⟩ := StoredRecord.Framed.cons_iff.mp H'
  rw [StoredRecord.encodeAll_append, StoredRecord.encodeAll_cons, StoredRecord.encodeAll_nil,
    List.append_nil, List.append_assoc] at hd
  obtain ⟨fuel, hfuel, heq⟩ := deliver_start warns H hd hmore
  obtain ⟨fuel, rfl⟩ : ∃ n, fuel = n + 1 := ⟨fuel - 1, by omega⟩
  generalize hlog : StoredRecord.mismatches warns rs ++ d.log = log at heq
  generalize hmemo : mindAfter answer (StoredRecord.shapes 0 rs) d.memo = memo at heq hstop
  have hlast : Reading.advance link (midway budget warns rs .reading,
        { d with source := ⟨r.encode ++ rest⟩, log, memo }) =
      .ok (some (r.shape rs.length)) (after [r] rest memo (midway budget warns rs .reading,
        { d with source := ⟨r.encode ++ rest⟩, log, memo })) := advance_append rfl hs hf rfl
  have hconsumer := watcher_after answer [r] rest memo (r.shape rs.length)
    (midway budget warns rs .reading, { d with source := ⟨r.encode ++ rest⟩, log, memo })
  rw [hstop] at hconsumer
  have hdeliver := heq.trans (Reading.deliver_of_enough hlast hconsumer)
  rw [after_midway, settle_midway] at hdeliver
  refine (Reading.run_of_ok hdeliver).trans ?_
  rw [StoredRecord.shapes_append, mindAfter_append, hmemo, StoredRecord.mismatches_append,
    List.append_assoc, hlog, Nat.zero_add]
  rfl

theorem run_rejection {f : Fault} {n : Nat} {tail unread : Bytes}
    (H : StoredRecord.Framed budget rs) (hd : d.source = ⟨StoredRecord.encodeAll rs ++ tail⟩)
    (hmore : wantsMore answer (StoredRecord.shapes 0 rs) d.memo = true)
    (hleft : StoredRecord.sizeAll rs < budget)
    (hrej : Rejection (budget - StoredRecord.sizeAll rs) tail f n unread) :
    run (watcher answer) (.start budget warns, d) =
      .error f ({ midway budget warns rs .failed with
          meter := (midway budget warns rs .failed).meter.count n },
        { d with
          source := ⟨unread⟩
          log := StoredRecord.mismatches warns rs ++ d.log
          memo := mindAfter answer (StoredRecord.shapes 0 rs) d.memo }) := by
  obtain ⟨fuel, hfuel, heq⟩ := deliver_start warns H hd hmore
  obtain ⟨fuel, rfl⟩ : ∃ n, fuel = n + 1 := ⟨fuel - 1, by omega⟩
  have hpos : 0 < budget - (StoredRecord.sizeAll rs : Int) := by omega
  exact Reading.run_of_error
    (heq.trans (Reading.deliver_of_error (advance_rejection hrej rfl hpos rfl)))

end Desk
end Shapefile
