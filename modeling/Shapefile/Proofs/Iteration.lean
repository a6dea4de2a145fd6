import Shapefile.Proofs.Asking

/-! # Runs and iterators

To run a watcher over a reading and to ask an iterator of it time after time comes to the same
(`Desk.run_as_iterated`): the same shapes, the same end, the same bytes read and counted, and the
same log. They part where the source fails in a way that a reading does not take for its own
failure: a run is failed then, and what an iterator read is done. A watcher that has enough leaves
behind what an iterator does that is closed after as many shapes. -/

namespace Shapefile.Desk

variable {σ χ ψ : Type}

/-- The same reading at the same source with the same log. Iterators and memo are not compared, and
the phases are not either. -/
structure SameWork (s : Reading × Desk σ χ) (t : Reading × Desk σ ψ) : Prop where
  meter : t.1.meter = s.1.meter
  shapeCount : t.1.shapeCount = s.1.shapeCount
  source : t.2.source = s.2.source
  log : t.2.log = s.2.log

/-- A desk with other iterators and another memo. -/
def refitted (iterators : List Reading.Iterator) (memo : ψ) (d : Desk σ χ) : Desk σ ψ :=
  ⟨d.source, iterators, d.log, memo⟩

/-- The same at a desk that has only the iterator at hand. -/
def alone (it : Reading.Iterator) (s : Reading × Desk σ Unit) : Reading × Desk σ Unit :=
  (s.1, refitted [it] () s.2)

variable [Source σ]

theorem link_refitted (iterators : List Reading.Iterator) (memo : ψ) :
    Link.Simulates (fun (d : Desk σ χ) e => e = refitted iterators memo d) link link where
  feed n := by
    rintro d _ rfl
    simp only [link, feed, refitted]
    cases Source.read n d.source with
    | ok data source => exact .ok rfl
    | error f source => exact .error rfl
  log entry _ := by
    rintro d _ rfl
    rfl

theorem settle_refitted (iterators : List Reading.Iterator) (memo : ψ)
    (s : Reading × Desk σ χ) :
    Reading.settle link (s.1, refitted iterators memo s.2) =
      ((Reading.settle link s).1, refitted iterators memo (Reading.settle link s).2) := by
  obtain ⟨hrd, hd⟩ := Reading.settle_simulates (link_refitted iterators memo) (s := s)
    (t := (s.1, refitted iterators memo s.2)) ⟨rfl, rfl⟩
  exact Prod.ext hrd.symm hd

/-! ## The only iterator of a reading -/

section
variable {it : Reading.Iterator} {s t : Reading × Desk σ Unit} {shapes : List Shape}

theorem next_alone (it : Reading.Iterator) (s : Reading × Desk σ Unit) :
    next 0 (alone it s) = mapState (alone (.after (it.next link s))) (it.next link s) := by
  have hnext := Reading.next_simulates (link_refitted [it] ()) it (s := s) (t := alone it s)
    ⟨rfl, rfl⟩
  simp only [next, show (alone it s).2.iterator 0 = it from rfl]
  generalize it.next link s = r at hnext ⊢
  generalize it.next link (alone it s) = r' at hnext ⊢
  cases hnext with
  | @ok shape? t u h =>
    obtain ⟨rd, d⟩ := u
    obtain ⟨rfl, rfl⟩ := h
    cases shape? <;> rfl
  | @error f t u h =>
    obtain ⟨rd, d⟩ := u
    obtain ⟨rfl, rfl⟩ := h
    rfl

/-- An iterator that finds the reading ready is then like one that has begun. -/
theorem next_fresh {rd : Reading} {d : Desk σ Unit} (hready : rd.phase = .ready) :
    next 0 (alone .fresh (rd, d)) =
      next 0 (alone .suspended ({ rd with phase := .reading }, d)) := by
  have hbegin : Reading.Iterator.fresh.next link (rd, d) =
      Reading.Iterator.suspended.next link ({ rd with phase := .reading }, d) := if_pos hready
  rw [next_alone, next_alone, hbegin]

theorem next_of_gave {shape : Shape} (h : Reading.advance link s = .ok (some shape) t) :
    next 0 (alone .suspended s) = .ok (some shape) (alone .suspended t) := by
  rw [next_alone, Reading.Iterator.next, h]
  rfl

theorem next_of_end {r : EStateM.Result Fault (Reading × Desk σ Unit) (Option Shape)}
    (hend : ∀ shape t, r ≠ .ok (some shape) t) (h : Reading.advance link s = r) :
    next 0 (alone .suspended s) = mapState (alone .finished) r := by
  rw [next_alone, Reading.Iterator.next, h]
  cases r with
  | ok shape? t =>
    cases shape? with
    | some shape => exact absurd rfl (hend shape t)
    | none => rfl
  | error => rfl

theorem close_alone (s : Reading × Desk σ Unit) :
    close 0 (alone .suspended s) = .ok () (alone .finished (Reading.settle link s)) :=
  congrArg (fun t => EStateM.Result.ok () (setIterator 0 .finished t))
    (settle_refitted [.suspended] () s)

end

/-! ## Runs -/

/-- A run agrees with an iterator that was asked until it had no more or failed, and gave the
shapes. -/
structure Agrees (shapes : List Shape)
    (last : EStateM.Result Fault (Reading × Desk σ Unit) (Option Shape))
    (ran : EStateM.Result Fault (Reading × Desk σ χ) Nat) : Prop where
  outcome : outcome ran = (outcome last).map fun _ => shapes.length
  work : SameWork (endState last) (endState ran)
  /-- The phases are the same but for faults that are no failure of the reading. -/
  reading : (endState ran).1 = (endState last).1 ↔
    ∀ f, Desk.outcome last = .error f → f.isShapefile = true ∨ f.isMemory = true

/-- A run whose watcher has enough after `n` shapes agrees with an iterator that had given as many
when it was closed. -/
structure AgreesClosed (n : Nat) (stopped : Reading × Desk σ Unit)
    (ran : EStateM.Result Fault (Reading × Desk σ χ) Nat) : Prop where
  outcome : outcome ran = .ok n
  reading : (endState ran).1 = (endState (close 0 stopped)).1
  work : SameWork (endState (close 0 stopped)) (endState ran)
  done : (endState ran).1.phase = .done
  totals : (endState ran).2.log = .totals n (endState ran).1.left :: stopped.2.log

section
variable {answer : Shape → χ → Bool × χ} {start : Reading} {d : Desk σ Unit} {memo : χ}
  {shapes : List Shape} {shape : Shape}

theorem run_agrees (hready : start.phase = .ready) (hcount : start.shapeCount = 0)
    {r : EStateM.Result Fault (Reading × Desk σ Unit) (Option Shape)}
    (H : Drains (Reading.advance link) shapes ({ start with phase := .reading }, d) r)
    (hmore : wantsMore answer shapes memo = true) :
    Agrees shapes (mapState (alone .finished) r)
        (run (watcher answer) (start, refitted [] memo d)) ∧
      (endState (run (watcher answer) (start, refitted [] memo d))).2.memo =
        mindAfter answer shapes memo := by
  have hrun : run (watcher answer) (start, refitted [] memo d) =
      Reading.ranInto (refitted [] (mindAfter answer shapes memo)) r :=
    Reading.run_of_drains (fun memo => refitted [] memo) (fun memo => link_refitted [] memo)
      (fun _ _ _ _ => rfl) hready H hmore
  rw [hrun]
  cases r with
  | ok shape? t =>
    cases shape? with
    | some shape =>
      obtain ⟨u, -, -, hend⟩ := H
      exact absurd rfl (hend shape t)
    | none =>
      have hshapes : t.1.shapeCount = shapes.length := by
        rw [Reading.shapeCount_of_drains H, hcount, Nat.zero_add]
      exact ⟨⟨congrArg Except.ok hshapes, ⟨rfl, rfl, rfl, rfl⟩, iff_of_true rfl nofun⟩, rfl⟩
  | error f t =>
    refine ⟨⟨rfl, ⟨rfl, rfl, rfl, rfl⟩, ?_⟩, rfl⟩
    have hphase : t.1.phase = if Reading.endsFailed f then .failed else .done := by
      obtain ⟨u, H, hlast, hend⟩ := H
      exact Reading.phase_of_end (Reading.phase_of_gives H) hlast hend
    have hends : Reading.endsFailed f = true ↔ f.isShapefile = true ∨ f.isMemory = true :=
      Bool.or_eq_true_iff
    constructor
    · intro h f' hf
      cases hf
      refine hends.mp (Decidable.of_not_not fun hne => ?_)
      have hfailed : Phase.failed = t.1.phase := congrArg Reading.phase h
      rw [hphase, if_neg hne] at hfailed
      cases hfailed
    · intro h
      rw [if_pos (hends.mpr (h f rfl))] at hphase
      exact congrArg (fun phase => { t.1 with phase }) hphase.symm

theorem run_agrees_closed (hready : start.phase = .ready) (hcount : start.shapeCount = 0)
    {t : Reading × Desk σ Unit}
    (H : Gives (Reading.advance link) (shapes ++ [shape]) ({ start with phase := .reading }, d) t)
    (hmore : wantsMore answer shapes memo = true)
    (henough : (answer shape (mindAfter answer shapes memo)).1 = false) :
    AgreesClosed (shapes.length + 1) (alone .suspended t)
        (run (watcher answer) (start, refitted [] memo d)) ∧
      (endState (run (watcher answer) (start, refitted [] memo d))).2.memo =
        mindAfter answer (shapes ++ [shape]) memo := by
  have hrun : run (watcher answer) (start, refitted [] memo d) =
      .ok t.1.shapeCount ((Reading.settle link t).1,
        refitted [] (mindAfter answer (shapes ++ [shape]) memo) (Reading.settle link t).2) :=
    Reading.run_of_enough (fun memo => refitted [] memo) (fun memo => link_refitted [] memo)
      (fun _ _ _ _ => rfl) hready H hmore henough
  have hshapes : t.1.shapeCount = shapes.length + 1 := by
    rw [Reading.shapeCount_of_gives H, hcount, Nat.zero_add, List.length_append,
      List.length_singleton]
  have hphase : t.1.phase = .reading := Reading.phase_of_gives H
  obtain ⟨rd, e⟩ := t
  have hsettle : Reading.settle link (rd, e) =
      ({ rd with phase := .done }, { e with log := .totals rd.shapeCount rd.left :: e.log }) :=
    if_pos hphase
  have hclose := close_alone (rd, e)
  rw [hsettle] at hrun hclose
  rw [hrun]
  refine ⟨⟨congrArg Except.ok hshapes, ?_, ?_, rfl, ?_⟩, rfl⟩
  · rw [hclose]
    rfl
  · rw [hclose]
    exact ⟨rfl, rfl, rfl, rfl⟩
  · exact congrArg (.totals · rd.left :: e.log) hshapes

end

/-- A run of a watcher over a reading that starts, and an iterator of the same that is asked until
it has no more or fails, come to the same. If the watcher has enough after a shape, the run comes to
the same as an iterator that is closed after it. -/
theorem run_as_iterated (source : σ) (budget : Int) (warns : Bool) :
    let start : Reading := .start budget warns
    let made := endState (iterate (start, (.init source () : Desk σ Unit)))
    ∃ shapes last, Drains (next 0) shapes made last ∧
      (∀ (χ : Type) (answer : Shape → χ → Bool × χ) (memo : χ),
        (∀ shape memo, (answer shape memo).1 = true) →
        let ran := run (watcher answer) (start, .init source memo)
        Agrees shapes last ran ∧ (endState ran).2.memo = mindAfter answer shapes memo) ∧
      ∀ taken shape, taken ++ [shape] <+: shapes →
        ∃ stopped, Gives (next 0) (taken ++ [shape]) made stopped ∧
          ∀ (χ : Type) (answer : Shape → χ → Bool × χ) (memo : χ),
            wantsMore answer taken memo = true →
            (answer shape (mindAfter answer taken memo)).1 = false →
            let ran := run (watcher answer) (start, .init source memo)
            AgreesClosed (taken.length + 1) stopped ran ∧
              (endState ran).2.memo = mindAfter answer (taken ++ [shape]) memo := by
  intro start made
  obtain ⟨shapes, r, H⟩ := Reading.exists_drains link
    (({ start with phase := .reading }, .init source ()) : Reading × Desk σ Unit)
  have hdrains := (H.map (alone .suspended) (alone .finished) (fun _ _ _ => next_of_gave)
    fun _ => next_of_end H.ends).of_eq (next_fresh rfl)
  refine ⟨shapes, _, hdrains, ?_, ?_⟩
  · intro χ answer memo hmore
    exact run_agrees rfl rfl H (wantsMore_of_true hmore shapes memo)
  · intro taken shape hprefix
    obtain ⟨rest, rfl⟩ := hprefix
    obtain ⟨t, Ht⟩ := H.gives
    have hgives : Gives (next 0) (taken ++ [shape]) made (alone .suspended t) :=
      (Ht.map (alone .suspended) fun _ _ _ => next_of_gave).of_eq
        (List.append_ne_nil_of_right_ne_nil taken (List.cons_ne_nil shape [])) (next_fresh rfl)
    exact ⟨alone .suspended t, hgives, fun χ answer memo hmore henough =>
      run_agrees_closed rfl rfl Ht hmore henough⟩

end Shapefile.Desk
