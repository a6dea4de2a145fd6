import Mathlib.Logic.Relation
import Shapefile.Proofs.Chronicle
import Shapefile.Proofs.Consumption

/-! # The steps of a client

Whatever a client does comes down to a few kinds of steps, each of which adds one event to the
chronicle (`Client.exec_used`). What the steps keep, every client keeps. -/

namespace Shapefile.Desk

variable {σ χ : Type}

/-- A reading that is ready begins; any other is as it was. -/
def begun : Reading × Desk σ χ → Reading × Desk σ χ
  | (rd, d) => if rd.phase = .ready then ({ rd with phase := .reading }, d) else (rd, d)

def failed : Reading × Desk σ χ → Reading × Desk σ χ
  | (rd, d) => ({ rd with phase := .failed }, d)

/-- What a run makes of the way in which its deliveries end. -/
def concluded : EStateM.Result Fault (Reading × Desk σ χ) Unit →
    EStateM.Result Fault (Reading × Desk σ χ) Nat
  | .ok _ s => .ok s.1.shapeCount s
  | .error f s => .error f (failed s)

/-- A reading with its desk and chronicle. -/
abbrev State (σ : Type) := Reading × Desk σ (Chronicle σ)

/-- The reader is about to begin, or it has begun and not ended. -/
def Reads (reader : Reader) (s : State σ) : Prop := s.1.phase = .ready ∨ reader ∈ active s.2.memo

section
variable [Source σ]

/-- What a client does, event by event. -/
inductive Step : State σ → State σ → Prop where
  | made (rd : Reading) (d : Desk σ (Chronicle σ)) :
    Step (rd, d) (note (.made d.iterators.length)
      (rd, { d with iterators := d.iterators ++ [.fresh] }))
  | asked (i : Nat) (s : State σ) :
    Step s (note (.asked i s.1.phase (outcome (Desk.next i s))) (endState (Desk.next i s)))
  | closed (i : Nat) (s : State σ) : Step s (note (.closed i) (endState (Desk.close i s)))
  | skipped (n : Int) (s : State σ) :
    Step s (note (.skipped (outcome (Desk.skip n s))) (endState (Desk.skip n s)))
  | entered (j : Nat) (s : State σ) : Step s (note (.entered j s.1.phase) s)
  | handed {j : Nat} {s t : State σ} {shape : Shape} (reads : Reads (.run j) s)
      (advance : Reading.advance link (begun s) = .ok (some shape) t) :
    Step s (note (.handed j shape) t)
  /-- The budget is used up. -/
  | ended {j : Nat} {s t : State σ} (reads : Reads (.run j) s)
      (advance : Reading.advance link (begun s) = .ok none t) :
    Step s (note (.left j (.ok t.1.shapeCount)) t)
  /-- The reading fails. -/
  | fell {j : Nat} {s t : State σ} {f : Fault} (reads : Reads (.run j) s)
      (advance : Reading.advance link (begun s) = .error f t) :
    Step s (note (.left j (.error f)) (failed t))
  /-- The consumer wants no more. -/
  | enough {j : Nat} {s : State σ} (reads : .run j ∈ active s.2.memo) :
    Step s (note (.left j (.ok s.1.shapeCount)) (Reading.settle link s))
  /-- The consumer fails, or the run is refused. -/
  | stopped {s : State σ} (j : Nat) (f : Fault) (begun : s.1.phase ≠ .ready) :
    Step s (note (.left j (.error f)) (failed s))

end

/-! ## Going on -/

/-- The budget does not grow, a reading that has begun does not get ready again, and what is in mind
is kept. -/
structure Onward (s t : Reading × Desk σ χ) : Prop where
  left : t.1.left ≤ s.1.left
  phase : s.1.phase ≠ .ready → t.1.phase ≠ .ready
  memo : t.2.memo = s.2.memo

namespace Onward

variable {s t u : Reading × Desk σ χ}

theorem refl (s : Reading × Desk σ χ) : Onward s s := ⟨Int.le_refl _, id, rfl⟩

theorem trans (H : Onward s t) (H' : Onward t u) : Onward s u :=
  ⟨Int.le_trans H'.left H.left, fun h => H'.phase (H.phase h), H'.memo.trans H.memo⟩

theorem setIterator (H : Onward s t) (i : Nat) (it : Reading.Iterator) :
    Onward s (setIterator i it t) := ⟨H.left, H.phase, H.memo⟩

theorem failed (H : Onward s t) : Onward s (failed t) :=
  ⟨H.left, fun _ => Phase.failed_ne_ready, H.memo⟩

end Onward

theorem begun_of_ready {rd : Reading} {d : Desk σ χ} (h : rd.phase = .ready) :
    begun (rd, d) = ({ rd with phase := .reading }, d) := if_pos h

theorem begun_of_ne {s : Reading × Desk σ χ} (h : s.1.phase ≠ .ready) : begun s = s := if_neg h

theorem begun_ne_ready (s : Reading × Desk σ χ) : (begun s).1.phase ≠ .ready := by
  obtain ⟨rd, d⟩ := s
  by_cases h : rd.phase = .ready
  · rw [begun_of_ready h]
    exact Phase.reading_ne_ready
  · rwa [begun_of_ne h]

theorem begun_onward (s : Reading × Desk σ χ) : Onward s (begun s) := by
  obtain ⟨rd, d⟩ := s
  by_cases h : rd.phase = .ready
  · rw [begun_of_ready h]
    exact ⟨Int.le_refl _, fun _ => Phase.reading_ne_ready, rfl⟩
  · rw [begun_of_ne h]
    exact .refl _

variable [Source σ]

theorem settle_onward (s : Reading × Desk σ χ) : Onward s (Reading.settle link s) := by
  obtain ⟨rd, d⟩ := s
  by_cases h : rd.phase = .reading
  · rw [Reading.settle, if_pos h]
    exact ⟨Int.le_refl _, fun _ => Phase.done_ne_ready, rfl⟩
  · rw [Reading.settle, if_neg h]
    exact .refl _

theorem left_of_read {rd : Reading} {source source' : σ} {record : Record} {meter : Meter}
    (hleft : 0 < rd.left)
    (h : Record.read Source.read rd.shapeCount (rd.meter, source) = .ok record (meter, source')) :
    meter.left = rd.left - (8 + record.decoded) := by
  obtain ⟨hmeter, -, -⟩ := Record.read_takes h
  have hpos : 0 < rd.meter.left := hleft
  rw [show meter = rd.meter.count (8 + record.decoded) from hmeter,
    Meter.left_count_of_pos hpos]
  simp [Reading.left]

theorem warn_keeps (rd : Reading) (record : Record) (d : Desk σ χ) :
    ∃ log, Reading.warn link rd record d = { d with log } := by
  unfold Reading.warn
  split
  · exact ⟨_, rfl⟩
  · exact ⟨d.log, rfl⟩

theorem advance_onward (s : Reading × Desk σ χ) :
    Onward s (endState (Reading.advance link s)) := by
  obtain ⟨rd, d⟩ := s
  have hs := advance_continued rd d
  generalize Reading.advance link (rd, d) = r at hs
  cases hs with
  | @gave record meter source left read =>
    obtain ⟨log, hwarn⟩ := warn_keeps rd record { d with source }
    have hleft : meter.left ≤ rd.left := by
      rw [left_of_read left read]
      omega
    exact ⟨hleft, id, by simp only [endState, hwarn]⟩
  | ended left => exact settle_onward (rd, d)
  | failed left => exact ⟨left, fun _ => Phase.failed_ne_ready, rfl⟩
  | @broke _ meter source left =>
    have hread : Onward (rd, d) ({ rd with meter }, { d with source }) := ⟨left, id, rfl⟩
    exact hread.trans (settle_onward _)

theorem next_onward (i : Nat) (s : Reading × Desk σ χ) : Onward s (endState (Desk.next i s)) := by
  obtain ⟨rd, d⟩ := s
  have hit : Onward (rd, d) (endState ((d.iterator i).next link (rd, d))) := by
    cases d.iterator i with
    | finished => exact .refl _
    | suspended => exact advance_onward _
    | fresh =>
      simp only [Reading.Iterator.next]
      split
      · rename_i h
        have hbegun := begun_onward (rd, d)
        rw [begun_of_ready h] at hbegun
        exact hbegun.trans (advance_onward _)
      · exact .refl _
  simp only [Desk.next]
  cases hnext : (d.iterator i).next link (rd, d) with
  | ok shape? t | error f t =>
    rw [hnext] at hit
    exact hit.setIterator i _

theorem close_onward (i : Nat) (s : Reading × Desk σ χ) :
    Onward s (endState (Desk.close i s)) := by
  have hit : Onward s ((s.2.iterator i).close link s) := by
    cases s.2.iterator i with
    | suspended => exact settle_onward s
    | fresh | finished => exact .refl s
  exact hit.setIterator i _

/-- Skipping bytes touches nothing but the budget and the source. -/
theorem skip_keeps (n : Int) (s : Reading × Desk σ χ) :
    ∃ meter source, endState (Desk.skip n s) = ({ s.1 with meter }, { s.2 with source }) ∧
      meter.left ≤ s.1.left := by
  obtain ⟨rd, d⟩ := s
  have hleft := (Meter.read_onlyCounts (feed (σ := σ) (χ := χ)) n).left_le (rd.meter, d)
  simp only [Desk.skip, Reading.skip, show (link : Link (Desk σ χ)).feed = feed from rfl]
  rw [skip_at_desk] at hleft ⊢
  cases hread : Meter.read Source.read n (rd.meter, d.source) with
  | ok data t | error f t =>
    rw [hread] at hleft
    exact ⟨t.1, t.2, rfl, hleft⟩

theorem skip_onward (n : Int) (s : Reading × Desk σ χ) : Onward s (endState (Desk.skip n s)) := by
  obtain ⟨meter, source, hskip, hleft⟩ := skip_keeps n s
  rw [hskip]
  exact ⟨hleft, id, rfl⟩

/-- Of what `Onward` says all but the last part holds of a step too. -/
theorem Step.onward {s t : State σ} (H : Step s t) :
    t.1.left ≤ s.1.left ∧ (s.1.phase ≠ .ready → t.1.phase ≠ .ready) := by
  have hadvance (s : State σ) := (begun_onward s).trans (advance_onward (begun s))
  cases H with
  | made | entered => exact ⟨Int.le_refl _, id⟩
  | asked i => exact ⟨(next_onward i s).left, (next_onward i s).phase⟩
  | closed i => exact ⟨(close_onward i s).left, (close_onward i s).phase⟩
  | skipped n => exact ⟨(skip_onward n s).left, (skip_onward n s).phase⟩
  | handed reads advance | ended reads advance =>
    have h := hadvance s
    rw [advance] at h
    exact ⟨h.left, h.phase⟩
  | fell reads advance =>
    have h := hadvance s
    rw [advance] at h
    exact ⟨h.failed.left, h.failed.phase⟩
  | enough reads => exact ⟨(settle_onward s).left, (settle_onward s).phase⟩
  | stopped => exact ⟨Int.le_refl _, fun _ => Phase.failed_ne_ready⟩

theorem steps_onward {s t : State σ} (H : Relation.ReflTransGen Step s t) :
    t.1.left ≤ s.1.left ∧ (s.1.phase ≠ .ready → t.1.phase ≠ .ready) := by
  induction H with
  | refl => exact ⟨Int.le_refl _, id⟩
  | tail _ h ih => exact ⟨Int.le_trans h.onward.1 ih.1, fun hs => h.onward.2 (ih.2 hs)⟩

/-! ## Clients -/

/-- What comes of using a reading: steps, in which the first `n` runs neither begin nor end. -/
structure Used (n : Nat) (s t : State σ) : Prop where
  steps : Relation.ReflTransGen Step s t
  runs : runCount (history s.2.memo) ≤ runCount (history t.2.memo)
  others : ∀ j < n, .run j ∈ active t.2.memo ↔ .run j ∈ active s.2.memo

theorem runCount_cons_le (e : Event) (rd : Reading) (h : History) :
    runCount h ≤ runCount ((e, rd) :: h) := by
  rw [runCount, runCount, List.countP_cons]
  exact Nat.le_add_right _ _

namespace Used

variable {n : Nat} {s t u : State σ}

theorem refl (n : Nat) (s : State σ) : Used n s s := ⟨.refl, Nat.le_refl _, fun _ _ => .rfl⟩

theorem trans (H : Used n s t) (H' : Used n t u) : Used n s u :=
  ⟨H.steps.trans H'.steps, Nat.le_trans H.runs H'.runs,
    fun j hj => (H'.others j hj).trans (H.others j hj)⟩

theorem mono {m : Nat} (H : Used n s t) (h : m ≤ n) : Used m s t :=
  ⟨H.steps, H.runs, fun j hj => H.others j (Nat.lt_of_lt_of_le hj h)⟩

theorem of_step {e : Event} (H : Step s (note e t)) (hmemo : t.2.memo = s.2.memo)
    (he : ∀ j < n, e.reader? ≠ some (.run j) ∧ ∀ shape, e.delivery? ≠ some (.run j, shape)) :
    Used n s (note e t) := by
  refine ⟨.single H, ?_, fun j hj => ?_⟩
  · rw [note_memo, history_cons, hmemo]
    exact runCount_cons_le ..
  · rw [note_memo, hmemo]
    exact mem_active_cons (he j hj).1 (he j hj).2

end Used

theorem run_eq_concluded (consumer : Consumer σ χ) (s : Reading × Desk σ χ) :
    Desk.run consumer s =
      concluded (Reading.deliver link consumer (s.1.left.toNat + 1) .fresh s) := by
  simp only [Desk.run, Reading.run]
  cases Reading.deliver link consumer (s.1.left.toNat + 1) .fresh s <;> rfl

theorem deliver_fresh_begun (consumer : Consumer σ χ) (fuel : Nat) {s : Reading × Desk σ χ}
    (h : s.1.phase = .ready) :
    Reading.deliver link consumer (fuel + 1) .fresh s =
      Reading.deliver link consumer (fuel + 1) .suspended (begun s) := by
  obtain ⟨rd, d⟩ := s
  rw [begun_of_ready h]
  exact Reading.deliver_fresh h

theorem Event.left_not_before {i j : Nat} (h : i < j) (o : Except Fault Nat) :
    (left j o).reader? ≠ some (.run i) ∧ ∀ shape, (left j o).delivery? ≠ some (.run i, shape) := by
  refine ⟨?_, nofun⟩
  simp only [reader?, ne_eq, Option.some.injEq, Reader.run.injEq]
  omega

theorem Event.handed_not_before {i j : Nat} (h : i < j) (shape : Shape) :
    (handed j shape).reader? ≠ some (.run i) ∧
      ∀ shape', (handed j shape).delivery? ≠ some (.run i, shape') := by
  simp only [reader?, delivery?, ne_eq, Option.some.injEq, Reader.run.injEq, Prod.mk.injEq]
  exact ⟨by omega, by omega⟩

theorem Event.asked_not_run (i j : Nat) (phase : Phase) (o : Except Fault (Option Shape)) :
    (asked i phase o).reader? ≠ some (.run j) ∧
      ∀ shape, (asked i phase o).delivery? ≠ some (.run j, shape) := by
  refine ⟨nofun, fun shape => ?_⟩
  cases o with
  | error f => nofun
  | ok shape? => cases shape? <;> nofun

/-- One round of a run: the consumer was handed a shape and is done with it. The run reads on. -/
structure Round (j : Nat) (s u : State σ) : Prop where
  used : Used j s u
  active : .run j ∈ active u.2.memo
  phase : u.1.phase ≠ .ready
  left : u.1.left < s.1.left
  runs : j < runCount (history u.2.memo)

theorem round {j : Nat} {s t u : State σ} {shape : Shape} (hreads : Reads (.run j) s)
    (hj : j < runCount (history s.2.memo))
    (hadvance : Reading.advance link (begun s) = .ok (some shape) t)
    (hu : Used (runCount (history (note (.handed j shape) t).2.memo))
      (note (.handed j shape) t) u) : Round j s u := by
  have honward := advance_onward (begun s)
  rw [hadvance] at honward
  have hhanded : Used j s (note (.handed j shape) t) :=
    .of_step (.handed hreads hadvance) ((begun_onward s).trans honward).memo
      fun i hi => Event.handed_not_before hi shape
  have hactive : .run j ∈ Desk.active (note (.handed j shape) t).2.memo := by
    simp [active_cons, Event.delivery?]
  have hruns := Nat.lt_of_lt_of_le hj hhanded.runs
  have hsteps := steps_onward hu.steps
  refine ⟨hhanded.trans (hu.mono (Nat.le_of_lt hruns)), (hu.others j hruns).mpr hactive, ?_, ?_, ?_⟩
  · exact hsteps.2 (honward.phase (begun_ne_ready s))
  · calc
      u.1.left ≤ t.1.left := hsteps.1
      _ < (begun s).1.left := (Reading.gave_of_advance hadvance).less
      _ ≤ s.1.left := (begun_onward s).left
  · exact Nat.lt_of_lt_of_le hruns hu.runs

/-- The rest of a run, from a state in which it reads. -/
theorem deliver_used {x : Shape → Action σ (Chronicle σ) Bool}
    (hx : ∀ shape s, Used (runCount (history s.2.memo)) s (endState (x shape s))) {j fuel : Nat}
    {s : State σ} (hreads : Reads (.run j) s) (hj : j < runCount (history s.2.memo))
    (hfuel : s.1.left.toNat < fuel) {r : EStateM.Result Fault (State σ) Nat}
    (hr : r = concluded (Reading.deliver link (chronicler.handing j x) fuel .suspended (begun s))) :
    Used j s (note (.left j (outcome r)) (endState r)) := by
  -- A shape costs the budget something, and no consumer gives anything back.
  induction fuel generalizing s with
  | zero => omega
  | succ fuel ih =>
    have honward := (begun_onward s).trans (advance_onward (begun s))
    have hbefore (o : Except Fault Nat) (i : Nat) (hi : i < j) := Event.left_not_before hi o
    cases hadvance : Reading.advance link (begun s) with
    | error f t =>
      rw [hadvance] at honward
      rw [Reading.deliver_of_error hadvance] at hr
      subst hr
      exact .of_step (.fell hreads hadvance) honward.memo (hbefore _)
    | ok shape? t =>
      rw [hadvance] at honward
      cases shape? with
      | none =>
        rw [Reading.deliver_of_end hadvance] at hr
        subst hr
        exact .of_step (.ended hreads hadvance) honward.memo (hbefore _)
      | some shape =>
        have hround := round hreads hj hadvance (hx shape _)
        rw [← chronicler_handing j x shape] at hround
        cases hconsumer : chronicler.handing j x shape t with
        | error f u =>
          rw [hconsumer] at hround
          rw [Reading.deliver_of_fault hadvance hconsumer] at hr
          subst hr
          exact hround.used.trans (.of_step (.stopped j f hround.phase) rfl (hbefore _))
        | ok more u =>
          rw [hconsumer] at hround
          cases more with
          | false =>
            have hstep := Step.enough hround.active
            rw [← Reading.shapeCount_settle] at hstep
            rw [Reading.deliver_of_enough hadvance hconsumer] at hr
            subst hr
            exact hround.used.trans (.of_step hstep (settle_onward u).memo (hbefore _))
          | true =>
            have hleft := hround.left
            have hpos := (Reading.gave_of_advance hadvance).left
            have hbegun := (begun_onward s).left
            have hfuel' : u.1.left.toNat < fuel := by
              simp only [endState] at hleft
              omega
            rw [Reading.deliver_of_more hadvance hconsumer] at hr
            refine hround.used.trans (ih (.inr hround.active) hround.runs hfuel' ?_)
            rw [hr, begun_of_ne hround.phase]
            rfl

theorem run_used {x : Shape → Action σ (Chronicle σ) Bool}
    (hx : ∀ shape s, Used (runCount (history s.2.memo)) s (endState (x shape s))) (s : State σ)
    {r : EStateM.Result Fault (State σ) Nat}
    (hr : r = Desk.run (chronicler.handing (runCount (history s.2.memo)) x)
      (note (.entered (runCount (history s.2.memo)) s.1.phase) s)) :
    Used (runCount (history s.2.memo)) s
      (note (.left (runCount (history s.2.memo)) (outcome r)) (endState r)) := by
  generalize hj : runCount (history s.2.memo) = j at hr
  have hentered : Used j s (note (.entered j s.1.phase) s) :=
    .of_step (.entered j s) rfl fun _ _ => ⟨nofun, nofun⟩
  refine hentered.trans ?_
  rw [run_eq_concluded] at hr
  by_cases hphase : s.1.phase = .ready
  · rw [deliver_fresh_begun (s := note (.entered j s.1.phase) s) _ _ hphase] at hr
    refine deliver_used (s := note (.entered j s.1.phase) s) hx (.inl hphase) ?_
      (Nat.lt_succ_self _) hr
    have hcount : runCount (history (note (.entered j s.1.phase) s).2.memo) = j + 1 := by
      rw [note_memo, history_cons, ← hj, runCount, List.countP_cons]
      rfl
    omega
  · rw [show note (.entered j s.1.phase) s = (s.1, (note (.entered j s.1.phase) s).2) from rfl,
      Reading.deliver_refused hphase] at hr
    subst hr
    exact .of_step (.stopped j _ hphase) rfl fun i hi => Event.left_not_before hi _

theorem chronicler_keeps :
    (chronicler (σ := σ)).Keeps fun s t => Used (runCount (history s.2.memo)) s t where
  -- Steps that come first only add to the number of runs.
  trans h h' := h.trans (h'.mono h.runs)
  meanwhile s := .refl _ s
  made s := .of_step (.made s.1 s.2) rfl fun _ _ => ⟨nofun, nofun⟩
  asked i s := .of_step (.asked i s) (next_onward i s).memo fun j _ => Event.asked_not_run i j _ _
  closed i s := .of_step (.closed i s) (close_onward i s).memo fun _ _ => ⟨nofun, nofun⟩
  skipped n s := .of_step (.skipped n s) (skip_onward n s).memo fun _ _ => ⟨nofun, nofun⟩
  ran _ hx s _ _ hj hr := by
    subst hj
    exact run_used hx s hr

/-- Whatever a client does comes down to steps. -/
theorem Client.exec_used (c : Client) (s : State σ) :
    Used (runCount (history s.2.memo)) s (endState (c.exec chronicler s)) :=
  c.exec_keeps chronicler_keeps s

end Shapefile.Desk
