import Shapefile.Proofs.ClientSteps
import Shapefile.Source.Scripted

/-! # Why a reading is done

The minutes of a client tell what its consumers answer, besides the events. They give a reason
whenever a reading got done (`Desk.done_has_reason`): the budget was used up, a consumer wanted no
more, an iterator was closed while it waited, or the source failed in a way that a reading does not
take for its own failure, with an iterator that was asked. The last is no end that a consumer or
the budget asks for (`Desk.broken_read_ends_done`). A run ends failed whatever the fault. -/

namespace Shapefile.Desk

variable {σ : Type}

inductive Item where
  | event (e : Event)
  /-- The consumer of a run answered whether it wants more. -/
  | answered (j : Nat) (more : Bool)

/-- The events and answers so far, the latest first, each with the view right after it. -/
abbrev Minutes (σ : Type) := List (Item × View σ)

/-- The last view of minutes that start with the view `start`. -/
def lastView (start : View σ) : Minutes σ → View σ
  | [] => start
  | (_, v) :: _ => v

/-- The history in the minutes. -/
def told (m : Minutes σ) : History :=
  m.filterMap fun
    | (.event e, v) => some (e, v.1)
    | (.answered .., _) => none

def minute (item : Item) (s : Reading × Desk σ (Minutes σ)) : Reading × Desk σ (Minutes σ) :=
  (s.1, { s.2 with memo := (item, view s) :: s.2.memo })

/-- The setting in which the minutes are recorded. -/
def secretary : Setting σ (Minutes σ) where
  history := told
  event e v memo := (.event e, v) :: memo
  answer j more v memo := (.answered j more, v) :: memo

/-- Why a reading gets done with an item, where `before` is the view that the earlier minutes end
with and `after` the view right after the item. -/
inductive Reason (before after : View σ) (earlier : Minutes σ) : Item → Prop where
  | iteratorUsedUp (i : Nat) (phase : Phase) (left : after.1.left ≤ 0) :
    Reason before after earlier (.event (.asked i phase (.ok none)))
  | runUsedUp (j n : Nat) (left : after.1.left ≤ 0) :
    Reason before after earlier (.event (.left j (.ok n)))
  /-- The consumer has just answered that it wants no more. -/
  | enough (j n : Nat) (v : View σ) (rest : Minutes σ)
      (answer : earlier = (.answered j false, v) :: rest) :
    Reason before after earlier (.event (.left j (.ok n)))
  | closed (i : Nat) (waiting : before.2.iterator i = .suspended) :
    Reason before after earlier (.event (.closed i))
  /-- An iterator that was asked let a fault pass that no reading fails with. -/
  | broke (i : Nat) (phase : Phase) (f : Fault) (ends : Reading.endsFailed f = false) :
    Reason before after earlier (.event (.asked i phase (.error f)))

/-- What becomes of the phase when a fault leaves a run, or an iterator that may read. -/
def PhaseDue (before after : View σ) : Item → Prop
  | .event (.left _ (.error _)) => after.1.phase = .failed
  | .event (.asked i phase (.error f)) =>
    before.2.iterator i = .suspended ∨ phase = .ready →
      (after.1.phase = .failed ↔ Reading.endsFailed f = true ∨ before.1.phase = .failed)
  | _ => True

/-- What holds of an item, as in `Reason`. -/
structure Explained (before after : View σ) (earlier : Minutes σ) (item : Item) : Prop where
  reason : after.1.phase = .done → before.1.phase ≠ .done → Reason before after earlier item
  due : PhaseDue before after item

/-- Every item of the minutes is explained, and they tell how things stand. -/
structure InMinutes (start : View σ) (s : Reading × Desk σ (Minutes σ)) : Prop where
  here : view s = lastView start s.2.memo
  past : ∀ later item v earlier, s.2.memo = later ++ (item, v) :: earlier →
    Explained (lastView start earlier) v earlier item

/-- The reading did not get done, and nothing was taken down. -/
structure Undone (s t : Reading × Desk σ (Minutes σ)) : Prop where
  memo : t.2.memo = s.2.memo
  phase : t.1.phase = .done → s.1.phase = .done

namespace Undone

variable {s t u : Reading × Desk σ (Minutes σ)}

theorem refl (s : Reading × Desk σ (Minutes σ)) : Undone s s := ⟨rfl, id⟩

theorem trans (h : Undone s t) (h' : Undone t u) : Undone s u :=
  ⟨h'.memo.trans h.memo, fun hdone => h.phase (h'.phase hdone)⟩

theorem setIterator (h : Undone s t) (i : Nat) (it : Reading.Iterator) :
    Undone s (setIterator i it t) := ⟨h.memo, h.phase⟩

end Undone

section
variable {start : View σ} {s t : Reading × Desk σ (Minutes σ)} {item : Item}

theorem InMinutes.minute (H : InMinutes start s) (hmemo : t.2.memo = s.2.memo)
    (h : Explained (view s) (view t) s.2.memo item) : InMinutes start (minute item t) := by
  refine ⟨rfl, fun later item' v earlier hsplit => ?_⟩
  rw [Desk.minute, hmemo] at hsplit
  cases later with
  | nil =>
    cases hsplit
    exact H.here ▸ h
  | cons moment later =>
    rw [List.cons_append, List.cons.injEq] at hsplit
    exact H.past later item' v earlier hsplit.2

/-- An item with which the reading does not get done, and no fault passes. -/
theorem InMinutes.quiet (H : InMinutes start s) (h : Undone s t)
    (hdue : PhaseDue (view s) (view t) item) : InMinutes start (Desk.minute item t) :=
  H.minute h.memo ⟨fun hdone hbefore => absurd (h.phase hdone) hbefore, hdue⟩

theorem begun_undone (s : Reading × Desk σ (Minutes σ)) : Undone s (begun s) := by
  obtain ⟨rd, d⟩ := s
  by_cases h : rd.phase = .ready
  · rw [begun_of_ready h]
    exact ⟨rfl, nofun⟩
  · rw [begun_of_ne h]
    exact .refl _

end

section
variable [Source σ] {start : View σ} {s t : Reading × Desk σ (Minutes σ)}

theorem settle_left (s : Reading × Desk σ (Minutes σ)) :
    (Reading.settle link s).1.left = s.1.left := by
  obtain ⟨rd, d⟩ := s
  simp only [Reading.settle]
  split <;> rfl

/-- What comes of reading on. -/
theorem advance_undone (s : Reading × Desk σ (Minutes σ)) :
    match Reading.advance link s with
    | .ok (some _) t => Undone s t
    | .ok none t => t.2.memo = s.2.memo ∧ t.1.left ≤ 0
    | .error f t => t.2.memo = s.2.memo ∧
        (t.1.phase = .failed ↔ Reading.endsFailed f = true ∨ s.1.phase = .failed) := by
  obtain ⟨rd, d⟩ := s
  have hs := advance_continued rd d
  generalize Reading.advance link (rd, d) = r at hs
  cases hs with
  | @gave record meter source left read =>
    obtain ⟨log, hwarn⟩ := warn_keeps rd record { d with source }
    exact ⟨by rw [hwarn], id⟩
  | ended left => exact ⟨(settle_onward (rd, d)).memo, by rwa [settle_left]⟩
  | @failed f meter source left ends => exact ⟨rfl, iff_of_true rfl (.inl ends)⟩
  | @broke f meter source left ends =>
    refine ⟨(settle_onward _).memo, ?_⟩
    simp only [Reading.settle, ends]
    split
    · rename_i h
      simp [h]
    · simp

/-! ## Events -/

namespace InMinutes

theorem asked (H : InMinutes start s) (i : Nat) :
    InMinutes start (Desk.minute (.event (.asked i s.1.phase (outcome (Desk.next i s))))
      (endState (Desk.next i s))) := by
  obtain ⟨rd, d⟩ := s
  -- An iterator that reads does so from `u`, which is the reading as it was or as it begins.
  have hreads (u : Reading × Desk σ (Minutes σ)) (hu : Undone (rd, d) u)
      (hfailed : u.1.phase = .failed ↔ rd.phase = .failed)
      (hnext : (d.iterator i).next link (rd, d) = Reading.advance link u) :
      InMinutes start (Desk.minute (.event (.asked i rd.phase (outcome (Desk.next i (rd, d)))))
        (endState (Desk.next i (rd, d)))) := by
    have hadvance := advance_undone u
    simp only [Desk.next, hnext]
    cases hr : Reading.advance link u with
    | error f t =>
      rw [hr] at hadvance
      refine H.minute (hadvance.1.trans hu.memo) ⟨fun hdone _ => ?_, fun _ => ?_⟩
      · refine .broke i rd.phase f (Bool.not_eq_true _ ▸ fun hends => ?_)
        have hphase : t.1.phase = .failed := hadvance.2.mpr (.inl hends)
        cases hphase.symm.trans hdone
      · exact hadvance.2.trans (or_congr_right hfailed)
    | ok shape? t =>
      rw [hr] at hadvance
      cases shape? with
      | none =>
        exact H.minute (hadvance.1.trans hu.memo)
          ⟨fun _ _ => .iteratorUsedUp i rd.phase hadvance.2, trivial⟩
      | some shape =>
        exact H.quiet (hu.trans ⟨hadvance.memo, hadvance.phase⟩) trivial
  cases hit : d.iterator i with
  | finished =>
    simp only [Desk.next, hit]
    exact H.quiet ((Undone.refl (rd, d)).setIterator i .finished) trivial
  | suspended => exact hreads (rd, d) (.refl _) .rfl (by rw [hit]; rfl)
  | fresh =>
    by_cases hphase : rd.phase = .ready
    · refine hreads ({ rd with phase := .reading }, d) ⟨rfl, fun h => by cases h⟩ ?_ ?_
      · simp [hphase]
      · rw [hit]
        exact if_pos hphase
    · have hnext : Reading.Iterator.fresh.next link (rd, d) =
          .error (.alreadyRead rd.phase) (rd, d) := if_neg hphase
      simp only [Desk.next, hit, hnext]
      refine H.quiet ((Undone.refl (rd, d)).setIterator i .finished) ?_
      rintro (h | h)
      · cases hit.symm.trans h
      · exact absurd h hphase

theorem closed (H : InMinutes start s) (i : Nat) :
    InMinutes start (Desk.minute (.event (.closed i)) (endState (Desk.close i s))) := by
  simp only [Desk.close, endState]
  cases hit : s.2.iterator i with
  | suspended =>
    exact H.minute (settle_onward s).memo ⟨fun _ _ => .closed i hit, trivial⟩
  | fresh | finished => exact H.quiet ((Undone.refl s).setIterator i .finished) trivial

theorem skipped (H : InMinutes start s) (n : Int) :
    InMinutes start (Desk.minute (.event (.skipped (outcome (Desk.skip n s))))
      (endState (Desk.skip n s))) := by
  obtain ⟨meter, source, hskip, -⟩ := skip_keeps n s
  rw [hskip]
  exact H.quiet ⟨rfl, id⟩ trivial

end InMinutes

/-! ## Runs -/

/-- A computation after which every item is explained if all were before. -/
def Minuted {α : Type} (x : Action σ (Minutes σ) α) : Prop :=
  ∀ ⦃start s⦄, InMinutes start s → InMinutes start (endState (x s))

/-- The rest of a run that reads on in the state `t`, where `s` is the state that the minutes end
with. -/
theorem deliver_inMinutes {x : Shape → Action σ (Minutes σ) Bool} (hx : ∀ shape, Minuted (x shape))
    {j : Nat} (fuel : Nat) (H : InMinutes start s) (h : Undone s t)
    {r : EStateM.Result Fault (Reading × Desk σ (Minutes σ)) Nat}
    (hr : r = concluded (Reading.deliver link (secretary.handing j x) fuel .suspended t)) :
    InMinutes start (minute (.event (.left j (outcome r))) (endState r)) := by
  induction fuel generalizing s t with
  | zero =>
    subst hr
    exact H.quiet h trivial
  | succ fuel ih =>
    have hadvance := advance_undone t
    cases hadv : Reading.advance link t with
    | error f u =>
      rw [hadv] at hadvance
      rw [Reading.deliver_of_error hadv] at hr
      subst hr
      exact H.minute (hadvance.1.trans h.memo) ⟨nofun, rfl⟩
    | ok shape? u =>
      rw [hadv] at hadvance
      cases shape? with
      | none =>
        rw [Reading.deliver_of_end hadv] at hr
        subst hr
        exact H.minute (hadvance.1.trans h.memo) ⟨fun _ _ => .runUsedUp j _ hadvance.2, trivial⟩
      | some shape =>
        have Hhanded : InMinutes start (minute (.event (.handed j shape)) u) :=
          H.quiet (h.trans hadvance) trivial
        have Hx := hx shape Hhanded
        cases hconsumer : x shape (minute (.event (.handed j shape)) u) with
        | error f v =>
          rw [hconsumer] at Hx
          have hfault : secretary.handing j x shape u = .error f v :=
            Setting.handing_error hconsumer
          rw [Reading.deliver_of_fault hadv hfault] at hr
          subst hr
          exact Hx.minute rfl ⟨nofun, rfl⟩
        | ok more v =>
          rw [hconsumer] at Hx
          have Hanswered : InMinutes start (minute (.answered j more) v) :=
            Hx.quiet (.refl v) trivial
          have hanswer : secretary.handing j x shape u = .ok more (minute (.answered j more) v) :=
            Setting.handing_ok hconsumer
          cases more with
          | true =>
            rw [Reading.deliver_of_more hadv hanswer] at hr
            exact ih Hanswered (.refl _) hr
          | false =>
            rw [Reading.deliver_of_enough hadv hanswer] at hr
            subst hr
            refine Hanswered.minute ?_ ⟨fun _ _ => .enough j _ _ _ rfl, trivial⟩
            exact (settle_onward (minute (.answered j false) v)).memo

theorem run_inMinutes {x : Shape → Action σ (Minutes σ) Bool} (hx : ∀ shape, Minuted (x shape))
    (H : InMinutes start s) {j : Nat} {r : EStateM.Result Fault (Reading × Desk σ (Minutes σ)) Nat}
    (hr : r = Desk.run (secretary.handing j x) (minute (.event (.entered j s.1.phase)) s)) :
    InMinutes start (minute (.event (.left j (outcome r))) (endState r)) := by
  have Hentered : InMinutes start (minute (.event (.entered j s.1.phase)) s) :=
    H.quiet (.refl s) trivial
  generalize minute (.event (.entered j s.1.phase)) s = t at Hentered hr
  rw [run_eq_concluded] at hr
  by_cases hphase : t.1.phase = .ready
  · rw [deliver_fresh_begun _ _ hphase] at hr
    exact deliver_inMinutes hx _ Hentered (begun_undone t) hr
  · rw [show t = (t.1, t.2) from rfl, Reading.deliver_refused hphase] at hr
    subst hr
    exact Hentered.minute rfl ⟨nofun, rfl⟩

/-! ## Clients -/

theorem secretary_keeps :
    (secretary (σ := σ)).Keeps fun s t => ∀ ⦃start⦄, InMinutes start s → InMinutes start t where
  trans h h' _ H := h' (h H)
  meanwhile _ _ H := H
  made _ _ H := H.quiet ⟨rfl, id⟩ trivial
  asked i _ _ H := H.asked i
  closed i _ _ H := H.closed i
  skipped n _ _ H := H.skipped n
  ran _ hx _ _ _ _ hr _ H := run_inMinutes (fun shape _ _ H => hx shape _ H) H hr

theorem Client.exec_minuted (c : Client) : Minuted (σ := σ) (c.exec secretary) :=
  fun _ s H => c.exec_keeps secretary_keeps s H

end

/-- If the reading is done at the end of minutes that start with a view that is not, then it got
done with one of the items, which is explained. -/
theorem exists_reason {start : View σ} (hstart : start.1.phase ≠ .done) {m : Minutes σ}
    (H : ∀ later item v earlier, m = later ++ (item, v) :: earlier →
      Explained (lastView start earlier) v earlier item)
    (h : (lastView start m).1.phase = .done) :
    ∃ later item v earlier, m = later ++ (item, v) :: earlier ∧
      (lastView start earlier).1.phase ≠ .done ∧ v.1.phase = .done ∧
      Reason (lastView start earlier) v earlier item := by
  induction m with
  | nil => exact absurd h hstart
  | cons moment m ih =>
    obtain ⟨item, v⟩ := moment
    by_cases hbefore : (lastView start m).1.phase = .done
    · obtain ⟨later, item', v', earlier, hsplit, hreason⟩ := ih
        (fun later item' v' earlier hsplit =>
          H ((item, v) :: later) item' v' earlier (congrArg _ hsplit)) hbefore
      exact ⟨(item, v) :: later, item', v', earlier, congrArg _ hsplit, hreason⟩
    · exact ⟨[], item, v, m, rfl, hbefore, h, (H [] item v m rfl).reason h hbefore⟩

/-- Whatever a client does, whenever the reading is done it got done for a reason: the budget was
used up, a consumer wanted no more, an iterator was closed while it waited, or one that was asked
let a fault pass that no reading fails with. A fault that leaves a run leaves the reading failed,
and one that leaves an iterator does so if readings fail with it. -/
theorem done_has_reason [Source σ] (source : σ) (budget : Int) (warns : Bool) (c : Client) :
    let start : View σ := (.start budget warns, .init source ())
    let s := endState (c.exec secretary (.start budget warns, .init source []))
    view s = lastView start s.2.memo ∧
      (∀ m, m <:+ s.2.memo → (lastView start m).1.phase = .done →
        ∃ later item v earlier, m = later ++ (item, v) :: earlier ∧
          (lastView start earlier).1.phase ≠ .done ∧ v.1.phase = .done ∧
          Reason (lastView start earlier) v earlier item) ∧
      ∀ later item v earlier, s.2.memo = later ++ (item, v) :: earlier →
        PhaseDue (lastView start earlier) v item := by
  intro start s
  have hstart : InMinutes start (.start budget warns, .init source []) :=
    ⟨rfl, fun later item v earlier h => by cases later <;> cases h⟩
  have hend : InMinutes start s := c.exec_minuted hstart
  refine ⟨hend.here, ?_, fun later item v earlier h => (hend.past later item v earlier h).due⟩
  rintro m ⟨latest, hm⟩ hdone
  refine exists_reason (show Phase.ready ≠ .done by decide) (fun later item v earlier h => ?_) hdone
  rw [h, ← List.append_assoc] at hm
  exact hend.past (latest ++ later) item v earlier hm.symm

def askOnce : Client := .iterate fun i => .next i fun _ => .answer true

/-- A source that is closed while it is read. -/
def closedSource : Scripted := .ofBytes [] none 0 (some ⟨1, .closedFile⟩)

/-- The first read fails, and yet the reading is done: all of its twelve bytes are left, there was
no consumer to answer, and the iterator was not closed. -/
theorem broken_read_ends_done :
    let s := endState (askOnce.exec secretary (.start 12 true, .init closedSource []))
    s.1.phase = .done ∧ s.1.left = 12 ∧
      s.2.memo.map (·.1) = [.event (.asked 0 .ready (.error .closedFile)), .event (.made 0)] :=
  ⟨rfl, rfl, rfl⟩

end Shapefile.Desk
