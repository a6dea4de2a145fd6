import Shapefile.Proofs.Client

/-! # Records are read once

Whatever a client does, its history is lawful, by induction on the client and within a run on what
is left to deliver. -/

namespace Shapefile.Desk

variable {σ : Type} {s : Reading × Desk σ History}

theorem inv_init (source : σ) (budget : Int) (warns : Bool) :
    Inv (.start budget warns, .init source []) where
  lawful := lawfulHistory_nil
  counted := rfl
  ready := fun _ => rfl
  fresh := by
    intro i
    simp [init, iterator, isFresh]
  suspended := by
    intro i h
    simp [init, iterator] at h

variable [Source σ]

namespace Inv

theorem asked (H : Inv s) (i : Nat) :
    Grown s
      (record (.asked i s.1.phase (outcome (Desk.next i s))) (endState (Desk.next i s))) := by
  obtain ⟨rd, d⟩ := s
  have hnext : outcome (Desk.next i (rd, d)) = outcome ((d.iterator i).next link (rd, d)) ∧
      endState (Desk.next i (rd, d)) =
        setIterator i (.after ((d.iterator i).next link (rd, d)))
          (endState ((d.iterator i).next link (rd, d))) := by
    simp only [Desk.next]
    cases (d.iterator i).next link (rd, d) <;> exact ⟨rfl, rfl⟩
  rw [hnext.1, hnext.2]
  cases hi : d.iterator i with
  | finished =>
    refine H.asked_in_vain rfl fun hfresh => ?_
    rw [← H.fresh i, hi] at hfresh
    cases hfresh
  | suspended =>
    have hreader := H.suspended i hi
    refine H.asked_reader (advance_advanced rd d) rfl (H.phase_ne_ready hreader)
      (fun _ _ => List.mem_append_right _ hreader) fun hfresh => ?_
    rw [← H.fresh i, hi] at hfresh
    cases hfresh
  | fresh =>
    have hfresh := (H.fresh i).mp hi
    by_cases hphase : rd.phase = .ready
    · simp only [Reading.Iterator.next, if_pos hphase]
      refine H.asked_reader (advance_advanced { rd with phase := .reading } d) rfl
        Phase.reading_ne_ready ?_ fun _ => hphase
      intro o rd'
      rw [beginners_cons, hphase, Event.beginner?, if_pos hfresh]
      exact List.mem_cons_self
    · simp only [Reading.Iterator.next, if_neg hphase]
      exact H.asked_in_vain rfl fun _ => ⟨hphase, rfl⟩

theorem closed (H : Inv s) (i : Nat) :
    Grown s (record (.closed i) (endState (Desk.close i s))) := by
  obtain ⟨rd, d⟩ := s
  obtain ⟨rd', d', heq, hcount, hphase, hkept⟩ : ∃ rd' d',
      (d.iterator i).close link (rd, d) = (rd', d') ∧ rd'.shapeCount = rd.shapeCount ∧
        (rd.phase ≠ .ready → rd'.phase ≠ .ready) ∧ Kept d d' := by
    cases d.iterator i with
    | suspended => exact settle_kept rd d
    | fresh | finished => exact ⟨rd, d, rfl, rfl, id, .refl d⟩
  simp only [Desk.close, heq]
  refine H.turned hkept nofun (fun _ => rfl) ?_ ?_ nofun
  · exact .of_silent (hcount.trans H.counted) rfl nofun trivial
  · intro h
    exact H.ready (Decidable.of_not_not fun hne => hphase hne h)

theorem skip (H : Inv s) (n : Int) :
    Grown s (record (.skipped (outcome (Desk.skip n s))) (endState (Desk.skip n s))) := by
  obtain ⟨rd, d⟩ := s
  simp only [Desk.skip, Reading.skip, show (link : Link (Desk σ History)).feed = feed from rfl,
    skip_at_desk]
  cases Meter.read Source.read n (rd.meter, d.source) with
  | ok data t | error f t => exact H.skipped _ ⟨rfl, rfl⟩ rfl rfl

end Inv

/-- A computation that keeps what is known, and adds to the history only. -/
def Safe {α : Type} (x : Action σ History α) : Prop :=
  ∀ s, Inv s → Grown s (endState (x s))

/-- The loop of a run that has begun to read. -/
theorem deliver_grown {x : Shape → Action σ History Bool} (hx : ∀ shape, Safe (x shape)) {j : Nat}
    (fuel : Nat) (H : Inv s) (hj : .run j ∈ beginners s.2.memo) :
    Grown s (endState (Reading.deliver link (historian.handing j x) fuel .suspended s)) := by
  -- Whatever stops the loop, only the history tells; `hj` holds on, because a history just grows.
  induction fuel generalizing s with
  | zero => exact .refl H
  | succ fuel ih =>
    obtain ⟨rd, d⟩ := s
    have hadvanced := advance_advanced rd d
    cases hadv : Reading.advance link (rd, d) with
    | error f t =>
      rw [hadv] at hadvanced
      cases hadvanced with
      | failed count phase kept =>
        rw [Reading.deliver_of_error hadv]
        exact (Grown.refl H).kept kept count phase
    | ok shape? t =>
      rw [hadv] at hadvanced
      cases hadvanced with
      | ended count phase kept =>
        rw [Reading.deliver_of_end hadv]
        exact (Grown.refl H).kept kept count phase
      | @gave shape rd' d' id count phase kept =>
        have Hhanded := H.handed hj id count phase kept
        have Hx : Grown (rd, d) (endState (historian.handing j x shape (rd', d'))) := by
          rw [historian_handing]
          exact Hhanded.trans (hx shape _ Hhanded.inv)
        cases hconsumer : historian.handing j x shape (rd', d') with
        | error f u =>
          rw [hconsumer] at Hx
          rw [Reading.deliver_of_fault hadv hconsumer]
          exact Hx
        | ok more u =>
          rw [hconsumer] at Hx
          cases more with
          | true =>
            rw [Reading.deliver_of_more hadv hconsumer]
            exact Hx.trans (ih Hx.inv (beginners_subset Hx.suffix hj))
          | false =>
            rw [Reading.deliver_of_enough hadv hconsumer]
            obtain ⟨rd'', d'', heq, hcount, hphase, hkept⟩ := settle_kept u.1 u.2
            rw [show Reading.settle link u = (rd'', d'') from heq]
            exact Hx.kept hkept hcount hphase

theorem Inv.run_ready {x : Shape → Action σ History Bool} (hx : ∀ shape, Safe (x shape))
    {rd : Reading} {d : Desk σ History} (H : Inv (rd, d)) (hphase : rd.phase = .ready) {j : Nat}
    (hj : runCount d.memo = j) {r : EStateM.Result Fault (Reading × Desk σ History) Nat}
    (hr : r = Desk.run (historian.handing j x) (record (.entered j rd.phase) (rd, d))) :
    Grown (rd, d) (record (.left j (outcome r)) (endState r)) := by
  have hreader : .run j ∈ beginners ((.entered j .ready, rd) :: d.memo) := List.mem_cons_self
  -- The reading is still ready when the run is entered, and reading before anything else happens.
  have Hbegun := H.begun hphase
  rw [hj] at Hbegun
  have Hend := deliver_grown hx (rd.left.toNat + 1) Hbegun hreader
  have hsuffix := (List.suffix_cons _ d.memo).trans Hend.suffix
  have hreader' := beginners_subset Hend.suffix hreader
  have hfresh : Reading.deliver link (historian.handing j x) (rd.left.toNat + 1) .fresh
      (record (.entered j rd.phase) (rd, d)) =
      Reading.deliver link (historian.handing j x) (rd.left.toNat + 1) .suspended
        ({ rd with phase := .reading }, { d with memo := (.entered j .ready, rd) :: d.memo }) := by
    rw [← hphase]
    exact Reading.deliver_fresh hphase
  generalize Reading.deliver link (historian.handing j x) (rd.left.toNat + 1) .suspended
    ({ rd with phase := .reading }, { d with memo := (.entered j .ready, rd) :: d.memo }) = r'
    at Hend hsuffix hreader' hfresh
  cases r' with
  | ok _ t =>
    obtain rfl : r = .ok t.1.shapeCount t := hr.trans (Reading.run_of_ok hfresh)
    have Hleft : Grown t (record (.left j (.ok t.1.shapeCount)) t) := by
      refine Hend.inv.left ⟨fun h => absurd hreader' h, fun n hn => ?_⟩
      cases hn
      exact Hend.inv.counted.trans (Hend.inv.lawful.countP_deliveries hreader').symm
    exact ⟨Hleft.inv, hsuffix.trans Hleft.suffix⟩
  | error f t =>
    obtain rfl : r = .error f ({ t.1 with phase := .failed }, t.2) :=
      hr.trans (Reading.run_of_error hfresh)
    have Hfailed : Inv ({ t.1 with phase := .failed }, t.2) :=
      Hend.inv.kept (.refl t.2) rfl fun _ => Phase.failed_ne_ready
    have Hleft : Grown _ (record (.left j (.error f)) ({ t.1 with phase := .failed }, t.2)) :=
      Hfailed.left ⟨fun h => absurd hreader' h, nofun⟩
    exact ⟨Hleft.inv, hsuffix.trans Hleft.suffix⟩

/-- A run that is refused leaves the reading failed, whoever goes on reading. -/
theorem Inv.run_refused (x : Shape → Action σ History Bool) {rd : Reading} {d : Desk σ History}
    (H : Inv (rd, d)) (hphase : rd.phase ≠ .ready) {j : Nat} (hj : runCount d.memo = j)
    {r : EStateM.Result Fault (Reading × Desk σ History) Nat}
    (hr : r = Desk.run (historian.handing j x) (record (.entered j rd.phase) (rd, d))) :
    Grown (rd, d) (record (.left j (outcome r)) (endState r)) := by
  have Hentered := H.entered hphase
  rw [hj] at Hentered
  have Hfailed : Grown (rd, d) ({ rd with phase := .failed },
      { d with memo := (.entered j rd.phase, rd) :: d.memo }) :=
    Hentered.kept (.refl _) rfl fun _ => Phase.failed_ne_ready
  obtain rfl : r = .error (.alreadyRead rd.phase) ({ rd with phase := .failed },
      { d with memo := (.entered j rd.phase, rd) :: d.memo }) :=
    hr.trans (Reading.run_of_error (Reading.deliver_refused hphase))
  exact Hfailed.trans (Hfailed.inv.left ⟨fun _ => ⟨rd.phase, rfl⟩, nofun⟩)

theorem historian_keeps :
    (historian (σ := σ)).Keeps fun s t => Inv s → Grown s t where
  trans h h' H := (h H).trans (h' (h H).inv)
  meanwhile _ H := .refl H
  made _ H := H.made
  asked i _ H := H.asked i
  closed i _ H := H.closed i
  skipped n _ H := H.skip n
  ran x hx := by
    rintro ⟨rd, d⟩ j r hj hr H
    by_cases hphase : rd.phase = .ready
    · exact H.run_ready hx hphase hj.symm hr
    · exact H.run_refused x hphase hj.symm hr

theorem Client.exec_safe (c : Client) : Safe (σ := σ) (c.exec historian) :=
  c.exec_keeps historian_keeps

/-- Records are read once, by one reader, and each is delivered once and in order. Every other
reader is refused, and the count is right at all times. -/
theorem read_once (source : σ) (budget : Int) (warns : Bool) (c : Client) :
    let s := endState (c.exec historian (.start budget warns, .init source []))
    let h := s.2.memo
    (beginners h).length ≤ 1 ∧
    (∀ reader shape, (reader, shape) ∈ deliveries h → reader ∈ beginners h) ∧
    (deliveries h).map (·.2.objectId) = (List.range s.1.shapeCount).map (↑·) ∧
    ∀ later e rd earlier, h = later ++ (e, rd) :: earlier →
      rd.shapeCount = (deliveries ((e, rd) :: earlier)).length ∧
      (∀ i phase o, e = .asked i phase o → isFresh i earlier = true →
        .iterator i ∉ beginners h → o = .error (.alreadyRead phase)) ∧
      (∀ j phase, e = .entered j phase → j = runCount earlier) ∧
      (∀ j o, e = .left j o → .run j ∉ beginners h → ∃ phase, o = .error (.alreadyRead phase)) ∧
      ∀ j n, e = .left j (.ok n) → n = (deliveries earlier).countP (·.1 = .run j) := by
  intro s h
  have H : Inv s := (c.exec_safe _ (inv_init source budget warns)).inv
  refine ⟨H.lawful.length_beginners, fun _ _ => H.lawful.mem_beginners, ?_, ?_⟩
  · rw [H.counted]
    exact H.lawful.objectIds
  · intro later e rd earlier heq
    have He := H.lawful later e rd earlier heq
    have hsubset : beginners ((e, rd) :: earlier) ⊆ beginners h :=
      beginners_subset ⟨later, heq.symm⟩
    refine ⟨He.counted, ?_, ?_, ?_, ?_⟩
    · rintro i phase o rfl hfresh hi
      refine He.due hfresh fun hphase => hi (hsubset ?_)
      rw [beginners_cons, hphase, Event.beginner?, if_pos hfresh]
      exact List.mem_cons_self
    · rintro j phase rfl
      exact He.due
    · rintro j o rfl hj
      exact He.due.1 fun hj' => hj (hsubset (List.mem_append_right _ hj'))
    · rintro j n rfl
      exact He.due.2 n rfl

end Shapefile.Desk
