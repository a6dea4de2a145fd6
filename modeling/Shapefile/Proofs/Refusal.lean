import Shapefile.Proofs.PhaseCourse

/-! # Refused attempts

Whoever comes to read a reading that is not ready is refused: no consumer is called, nothing is read
and nothing is counted. An iterator that is refused leaves the reading as it was, but a run marks it
as failed (`Desk.refused_run_marks_failed`). Whoever reads the records goes on all the same, and all
that differs in the end is the mark, and the line of the log that tells what a reading came to
(`Desk.refused_attempts`). -/

namespace Shapefile

/-- What a fault tells one who does not look at phases. -/
def Fault.unphased : Fault → Fault
  | alreadyRead _ => alreadyRead .failed
  | f => f

namespace Desk

variable {σ χ α : Type}

def unphased : EStateM.Result Fault (Reading × Desk σ χ) α →
    EStateM.Result Fault (Reading × Desk σ χ) α
  | .ok a s => .ok a s
  | .error f s => .error f.unphased s

/-! ## Refusals -/

section
variable [Source σ] {s : Reading × Desk σ χ}

theorem run_refused (h : s.1.phase ≠ .ready) (consumer : Consumer σ χ) :
    Desk.run consumer s = .error (.alreadyRead s.1.phase) (failed s) :=
  Reading.run_of_error (Reading.deliver_refused h)

theorem fresh_refused (h : s.1.phase ≠ .ready) :
    Reading.Iterator.fresh.next link s = .error (.alreadyRead s.1.phase) s := if_neg h

theorem next_refused (h : s.1.phase ≠ .ready) {i : Nat} (hi : s.2.iterator i = .fresh) :
    Desk.next i s = .error (.alreadyRead s.1.phase) (setIterator i .finished s) := by
  simp only [Desk.next, hi, fresh_refused h]
  rfl

/-- A run that is refused marks a reading as failed that is done, and one that goes on, which then
does not get done any more. -/
theorem refused_run_marks_failed :
    let start : Reading × Desk Plain Unit :=
      (.start 12 true, .init ⟨[0, 0, 0, 1, 0, 2, 0, 0, 0, 0, 0, 0]⟩ ())
    let s := endState (Desk.next 0 (endState (Desk.iterate start)))
    let refused := endState ∘ Desk.run Reading.wantAll
    s.1.phase = .reading ∧ (refused s).1.phase = .failed ∧
      (endState (Desk.next 0 s)).1.phase = .done ∧
      (endState (Desk.next 0 (refused s))).1.phase = .failed ∧
      (refused (endState (Desk.next 0 s))).1.phase = .failed := by
  decide +kernel

end

/-! ## Visitors -/

/-- An attempt to read: by a further iterator that is asked for a shape, or by a run. -/
inductive Attempt (σ χ : Type) where
  | iterator
  | run (consumer : Consumer σ χ)

/-- One who comes by and makes attempts to read. -/
abbrev Visitor (σ χ : Type) := Reading × Desk σ χ → Option (Attempt σ χ)

/-- An event as it shows to one who does not look at phases. -/
def Event.unphased : Event → Event
  | asked i _ o => asked i .failed o
  | entered j _ => entered j .failed
  | e => e

section
variable [Source σ]

def Attempt.made : Attempt σ χ → Reading × Desk σ χ → Reading × Desk σ χ
  | iterator, s => endState (Reading.Iterator.fresh.next link s)
  | run consumer, s => endState (Desk.run consumer s)

/-- The visitor comes by, and does nothing if the reading is ready. -/
def visited (visitor : Visitor σ χ) (s : Reading × Desk σ χ) : Reading × Desk σ χ :=
  match visitor s with
  | none => s
  | some attempt => if s.1.phase = .ready then s else attempt.made s

/-- The setting in which the history is recorded of a client that does not look at phases, while a
visitor comes by before each of its steps and answers. -/
def amid (visitor : Visitor σ History) : Setting σ History where
  history := id
  event e v memo := (e.unphased, { v.1 with phase := .failed }) :: memo
  meanwhile := visited visitor
  hears := .mapError Fault.unphased

end

/-! ## Marked readings -/

/-- Desks that differ in nothing but the lines that tell what the reading came to. -/
structure SameDesk (d d' : Desk σ χ) : Prop where
  source : d'.source = d.source
  iterators : d'.iterators = d.iterators
  memo : d'.memo = d.memo
  log : d'.log.filter (!·.isTotals) = d.log.filter (!·.isTotals)

/-- The second reading is the first, but it may be marked as failed. -/
structure Marked (s t : Reading × Desk σ χ) : Prop where
  reading : t.1 = { s.1 with phase := t.1.phase }
  phase : t.1.phase = s.1.phase ∨ s.1.phase ≠ .ready ∧ t.1.phase = .failed
  desk : SameDesk s.2 t.2

theorem unphased_alike {R : Reading × Desk σ χ → Reading × Desk σ χ → Prop}
    {r r' : EStateM.Result Fault (Reading × Desk σ χ) α} (H : Alike R r r') :
    Alike R (unphased r) (unphased r') := by
  cases H with
  | ok h => exact .ok h
  | error h => exact .error h

theorem outcome_unphased (r : EStateM.Result Fault (Reading × Desk σ χ) α) :
    outcome (unphased r) = (outcome r).mapError Fault.unphased := by
  cases r <;> rfl

theorem endState_unphased (r : EStateM.Result Fault (Reading × Desk σ χ) α) :
    endState (unphased r) = endState r := by
  cases r <;> rfl

theorem SameDesk.refl (d : Desk σ χ) : SameDesk d d := ⟨rfl, rfl, rfl, rfl⟩

namespace Marked

variable {s t : Reading × Desk σ χ}

theorem refl (s : Reading × Desk σ χ) : Marked s s := ⟨rfl, .inl rfl, .refl s.2⟩

theorem ready_iff (H : Marked s t) : t.1.phase = .ready ↔ s.1.phase = .ready := by
  rcases H.phase with h | ⟨hs, ht⟩
  · rw [h]
  · rw [ht]
    exact iff_of_false nofun hs

theorem failed_right (H : Marked s t) (h : s.1.phase ≠ .ready) : Marked s (failed t) :=
  ⟨congrArg (fun rd : Reading => { rd with phase := .failed }) H.reading, .inr ⟨h, rfl⟩, H.desk⟩

theorem failed_both (H : Marked s t) : Marked (failed s) (failed t) :=
  ⟨congrArg (fun rd : Reading => { rd with phase := .failed }) H.reading, .inl rfl, H.desk⟩

theorem begun (H : Marked s t) :
    Marked ({ s.1 with phase := .reading }, s.2) ({ t.1 with phase := .reading }, t.2) :=
  ⟨congrArg (fun rd : Reading => { rd with phase := .reading }) H.reading, .inl rfl, H.desk⟩

theorem setIterator (H : Marked s t) (i : Nat) (it : Reading.Iterator) :
    Marked (setIterator i it s) (setIterator i it t) :=
  ⟨H.reading, H.phase, { H.desk with
    iterators := congrArg (fun its : List Reading.Iterator => its.set i it) H.desk.iterators }⟩

theorem iterator (H : Marked s t) (i : Nat) : t.2.iterator i = s.2.iterator i := by
  rw [Desk.iterator, Desk.iterator, H.desk.iterators]

end Marked

section
variable [Source σ] {s t : Reading × Desk σ χ}

theorem link_same : Link.Simulates (SameDesk (σ := σ) (χ := χ)) link link where
  feed n := by
    intro d d' H
    simp only [link, feed, H.source]
    cases Source.read n d.source with
    | ok data source => exact .ok { H with source := rfl }
    | error f source => exact .error { H with source := rfl }
  log entry _ := by
    intro d d' H
    refine { H with log := ?_ }
    simp only [link, List.filter_cons, H.log]

/-- The line that a reading that is marked does not write is not looked at. -/
theorem settle_marked (H : Marked s t) :
    Marked (Reading.settle link s) (Reading.settle link t) := by
  obtain ⟨rd, d⟩ := s
  obtain ⟨⟨meter, phase, shapeCount, warns⟩, d'⟩ := t
  obtain ⟨hreading, hphase, hdesk⟩ := H
  cases hreading
  have htold (entry : Entry) (h : entry.isTotals = true) (log : List Entry) :
      (entry :: log).filter (!·.isTotals) = log.filter (!·.isTotals) :=
    List.filter_cons_of_neg (by simp [h])
  by_cases hreads : rd.phase = .reading
  · rcases hphase with hsame | ⟨hbegun, hfailed⟩
    · cases hsame
      simp only [Reading.settle, if_pos hreads]
      exact ⟨rfl, .inl rfl, link_same.log (.totals rd.shapeCount rd.left) rfl hdesk⟩
    · cases hfailed
      simp only [Reading.settle, if_pos hreads]
      exact ⟨rfl, .inr ⟨Phase.done_ne_ready, rfl⟩,
        { hdesk with log := hdesk.log.trans (htold _ rfl d.log).symm }⟩
  · have hsettled : phase ≠ .reading := by
      rcases hphase with hsame | ⟨_, hfailed⟩
      · exact fun h => hreads (hsame.symm.trans h)
      · exact fun h => by cases hfailed.symm.trans h
    simp only [Reading.settle, if_neg hreads, if_neg hsettled]
    exact ⟨rfl, hphase, hdesk⟩

theorem warn_same (rd : Reading) (phase : Phase) (record : Record) {d d' : Desk σ χ}
    (H : SameDesk d d') :
    SameDesk (Reading.warn link rd record d)
      (Reading.warn link { rd with phase } record d') :=
  Reading.warn_simulates link_same rd record H

theorem advance_marked :
    Simulates (Marked (σ := σ) (χ := χ)) (Reading.advance link) (Reading.advance link) := by
  rintro ⟨rd, d⟩ ⟨⟨meter, phase, shapeCount, warns⟩, d'⟩ ⟨hreading, hphase, hdesk⟩
  cases hreading
  have hread := Record.read_simulates link_same.feed rd.shapeCount (s := (rd.meter, d))
    (t := (rd.meter, d')) ⟨rfl, hdesk⟩
  by_cases hleft : rd.left ≤ 0
  · have hleft' : ({ rd with phase } : Reading).left ≤ 0 := hleft
    rw [Reading.advance_of_left hleft, Reading.advance_of_left hleft']
    exact .ok (settle_marked ⟨rfl, hphase, hdesk⟩)
  · have hleft' : ¬ ({ rd with phase } : Reading).left ≤ 0 := hleft
    simp only [Reading.advance, if_neg hleft, if_neg hleft']
    generalize Record.read (link : Link (Desk σ χ)).feed rd.shapeCount (rd.meter, d) = r
      at hread ⊢
    generalize Record.read (link : Link (Desk σ χ)).feed rd.shapeCount (rd.meter, d') = r'
      at hread ⊢
    cases hread with
    | @ok record u u' h =>
      obtain ⟨m, e⟩ := u
      obtain ⟨m', e'⟩ := u'
      obtain ⟨hmeter, hdesk⟩ := h
      cases hmeter
      exact .ok ⟨rfl, hphase, warn_same rd phase record hdesk⟩
    | @error f u u' h =>
      obtain ⟨m, e⟩ := u
      obtain ⟨m', e'⟩ := u'
      obtain ⟨hmeter, hdesk⟩ := h
      cases hmeter
      simp only
      split
      · exact .error ⟨rfl, .inl rfl, hdesk⟩
      · exact .error (settle_marked ⟨rfl, hphase, hdesk⟩)

/-- Two iterators that are not refused give the same. -/
theorem asked_marked (i : Nat)
    (H : Alike Marked ((s.2.iterator i).next link s) ((t.2.iterator i).next link t)) :
    Alike Marked (Desk.next i s) (Desk.next i t) := by
  simp only [Desk.next]
  generalize (s.2.iterator i).next link s = r at H ⊢
  generalize (t.2.iterator i).next link t = r' at H ⊢
  cases H with
  | @ok shape? u u' h => cases shape? <;> exact .ok (h.setIterator i _)
  | error h => exact .error (h.setIterator i _)

theorem next_marked (i : Nat) (H : Marked s t) :
    Alike Marked (unphased (Desk.next i s)) (unphased (Desk.next i t)) := by
  have hit := H.iterator i
  cases h : s.2.iterator i with
  | finished =>
    rw [h] at hit
    exact unphased_alike (asked_marked i (by rw [h, hit]; exact .ok H))
  | suspended =>
    rw [h] at hit
    exact unphased_alike (asked_marked i (by rw [h, hit]; exact advance_marked H))
  | fresh =>
    rw [h] at hit
    by_cases hready : s.1.phase = .ready
    · refine unphased_alike (asked_marked i ?_)
      rw [h, hit]
      simp only [Reading.Iterator.next, if_pos hready, if_pos (H.ready_iff.mpr hready)]
      exact advance_marked H.begun
    · rw [next_refused hready h, next_refused (mt H.ready_iff.mp hready) hit]
      exact .error (H.setIterator i .finished)

theorem close_marked (i : Nat) (H : Marked s t) :
    Marked (endState (Desk.close i s)) (endState (Desk.close i t)) := by
  have hclose : Marked ((s.2.iterator i).close link s) ((t.2.iterator i).close link t) := by
    rw [H.iterator i]
    cases s.2.iterator i with
    | suspended => exact settle_marked H
    | fresh | finished => exact H
  exact hclose.setIterator i .finished

theorem skip_marked (n : Int) :
    Simulates (Marked (σ := σ) (χ := χ)) (Desk.skip n) (Desk.skip n) := by
  rintro ⟨rd, d⟩ ⟨⟨meter, phase, shapeCount, warns⟩, d'⟩ ⟨hreading, hphase, hdesk⟩
  cases hreading
  have hread := Meter.read_simulates link_same.feed n (s := (rd.meter, d)) (t := (rd.meter, d'))
    ⟨rfl, hdesk⟩
  simp only [Desk.skip, Reading.skip]
  generalize Meter.read (link : Link (Desk σ χ)).feed n (rd.meter, d) = r at hread ⊢
  generalize Meter.read (link : Link (Desk σ χ)).feed n (rd.meter, d') = r' at hread ⊢
  cases hread with
  | @ok data u u' h =>
    obtain ⟨m, e⟩ := u
    obtain ⟨m', e'⟩ := u'
    obtain ⟨hmeter, hdesk⟩ := h
    cases hmeter
    exact .ok ⟨rfl, hphase, hdesk⟩
  | @error f u u' h =>
    obtain ⟨m, e⟩ := u
    obtain ⟨m', e'⟩ := u'
    obtain ⟨hmeter, hdesk⟩ := h
    cases hmeter
    exact .error ⟨rfl, hphase, hdesk⟩

section
variable {consumer consumer' : Consumer σ χ}
  (C : ∀ shape, Simulates Marked (consumer shape) (consumer' shape))
include C

/-- A consumer that is not refused is handed the same shapes. -/
theorem deliver_marked (fuel : Nat) (it : Reading.Iterator) (H : Marked s t)
    (hnext : Alike Marked (it.next link s) (it.next link t)) :
    Alike Marked (Reading.deliver link consumer fuel it s)
      (Reading.deliver link consumer' fuel it t) := by
  induction fuel generalizing it s t with
  | zero => exact .ok H
  | succ fuel ih =>
    simp only [Reading.deliver]
    generalize it.next link s = r at hnext ⊢
    generalize it.next link t = r' at hnext ⊢
    cases hnext with
    | error h => exact .error h
    | @ok shape? s t h =>
      cases shape? with
      | none => exact .ok h
      | some shape =>
        have hc := C shape h
        simp only
        generalize consumer shape s = c at hc ⊢
        generalize consumer' shape t = c' at hc ⊢
        cases hc with
        | error h => exact .error h
        | @ok more s t h =>
          cases more with
          | true => exact ih .suspended h (advance_marked h)
          | false => exact .ok (settle_marked h)

theorem run_marked (H : Marked s t) :
    Alike Marked (unphased (Desk.run consumer s)) (unphased (Desk.run consumer' t)) := by
  by_cases hready : s.1.phase = .ready
  · have hfuel : t.1.left = s.1.left := by rw [H.reading]; rfl
    have hnext : Alike Marked (Reading.Iterator.fresh.next link s)
        (Reading.Iterator.fresh.next link t) := by
      simp only [Reading.Iterator.next, if_pos hready, if_pos (H.ready_iff.mpr hready)]
      exact advance_marked H.begun
    have hdeliver := deliver_marked C (s.1.left.toNat + 1) .fresh H hnext
    refine unphased_alike ?_
    simp only [Desk.run, Reading.run, hfuel]
    generalize Reading.deliver link consumer (s.1.left.toNat + 1) .fresh s = r at hdeliver ⊢
    generalize Reading.deliver link consumer' (s.1.left.toNat + 1) .fresh t = r' at hdeliver ⊢
    cases hdeliver with
    | @ok _ u u' h =>
      have hcount : u'.1.shapeCount = u.1.shapeCount := by rw [h.reading]
      simp only [hcount]
      exact .ok h
    | error h => exact .error h.failed_both
  · rw [run_refused hready, run_refused (mt H.ready_iff.mp hready)]
    exact .error H.failed_both

end

/-! ## Visited readings -/

theorem attempt_refused (h : s.1.phase ≠ .ready) (attempt : Attempt σ χ) :
    attempt.made s = match attempt with | .iterator => s | .run _ => failed s := by
  cases attempt with
  | iterator => rw [Attempt.made, fresh_refused h]; rfl
  | run consumer => rw [Attempt.made, run_refused h]; rfl

theorem visited_marked (visitor : Visitor σ χ) (H : Marked s t) :
    Marked s (visited visitor t) := by
  unfold visited
  split
  · exact H
  · rename_i attempt _
    split
    · exact H
    · rename_i hbegun
      rw [attempt_refused hbegun]
      cases attempt with
      | iterator => exact H
      | run consumer => exact H.failed_right (mt H.ready_iff.mpr hbegun)

end

section
variable [Source σ] {visitor visitor' : Visitor σ History} {s t : Reading × Desk σ History}

theorem note_marked {e e' : Event} (he : e'.unphased = e.unphased) (H : Marked s t) :
    Marked ((amid visitor).note e s) ((amid visitor').note e' t) := by
  obtain ⟨rd, d⟩ := s
  obtain ⟨⟨meter, phase, shapeCount, warns⟩, d'⟩ := t
  obtain ⟨hreading, hphase, hdesk⟩ := H
  cases hreading
  refine ⟨rfl, hphase, { hdesk with memo := ?_ }⟩
  exact congrArg₂ (fun e memo => (e, ({ rd with phase := .failed } : Reading)) :: memo) he
    hdesk.memo

/-- A client goes on alike after what it cannot tell apart. -/
theorem continue_marked {r r' : EStateM.Result Fault (Reading × Desk σ History) α}
    (h : Alike Marked (unphased r) (unphased r')) {k : Except Fault α → Client}
    (ih : ∀ o, Simulates Marked ((k o).exec (amid visitor)) ((k o).exec (amid visitor')))
    {e e' : Except Fault α → Event} (he : ∀ o, (e' o).unphased = (e o).unphased) :
    let o := (outcome r).mapError Fault.unphased
    let o' := (outcome r').mapError Fault.unphased
    Alike Marked ((k o).exec (amid visitor) ((amid visitor).note (e o) (endState r)))
      ((k o').exec (amid visitor') ((amid visitor').note (e' o') (endState r'))) := by
  have ho := outcome_alike h
  have hs := endState_alike h
  rw [outcome_unphased, outcome_unphased] at ho
  rw [endState_unphased, endState_unphased] at hs
  intro o o'
  rw [show o' = o from ho]
  exact ih o (note_marked (he o) hs)

theorem amid_marked (visitor : Visitor σ History) (c : Client) :
    Simulates Marked (c.exec (amid fun _ => none)) (c.exec (amid visitor)) := by
  induction c with
  | answer more => exact fun s t H => .ok (visited_marked visitor H)
  | fail f => exact fun s t H => .error (visited_marked visitor H)
  | remember k ih =>
    intro s t H
    simp only [Client.exec, H.desk.memo]
    exact ih _ H
  | iterate k ih =>
    intro s t H
    have hvisited : Marked ((amid fun _ => none).meanwhile s) ((amid visitor).meanwhile t) :=
      visited_marked visitor H
    simp only [Client.exec, Desk.iterate, hvisited.desk.iterators]
    refine ih _ (note_marked rfl ⟨hvisited.reading, hvisited.phase, ?_⟩)
    exact { hvisited.desk with iterators := rfl }
  | next i k ih =>
    intro s t H
    exact continue_marked (next_marked i (visited_marked visitor H)) ih fun _ => rfl
  | close i k ih =>
    intro s t H
    exact ih (note_marked rfl (close_marked i (visited_marked visitor H)))
  | skip n k ih =>
    intro s t H
    have hskip : Alike Marked (Desk.skip n ((amid fun _ => none).meanwhile s))
        (Desk.skip n ((amid visitor).meanwhile t)) := skip_marked n (visited_marked visitor H)
    simp only [Client.exec, outcome_alike hskip]
    exact ih _ (note_marked rfl (endState_alike hskip))
  | run consumer k ihc ihk =>
    intro s t H
    have hvisited : Marked ((amid fun _ => none).meanwhile s) ((amid visitor).meanwhile t) :=
      visited_marked visitor H
    simp only [Client.exec, hvisited.desk.memo]
    generalize (amid fun _ => none).meanwhile s = s at hvisited ⊢
    generalize (amid visitor).meanwhile t = t at hvisited ⊢
    have hentered : Marked ((amid fun _ => none).note (.entered (runCount s.2.memo) s.1.phase) s)
        ((amid visitor).note (.entered (runCount s.2.memo) t.1.phase) t) := note_marked rfl hvisited
    refine continue_marked (run_marked (fun shape u v h => ?_) hentered) ihk fun _ => rfl
    rw [Setting.handing_of_silent fun _ _ _ _ => rfl, Setting.handing_of_silent fun _ _ _ _ => rfl]
    exact ihc shape (note_marked rfl h)

/-- An iterator that is refused was as good as never made. -/
theorem amid_iterators (h : ∀ s consumer, visitor s ≠ some (.run consumer)) :
    amid visitor = amid fun _ => none := by
  have hvisited : visited visitor = visited fun _ => none := by
    funext s
    simp only [visited]
    split
    · rfl
    · rename_i attempt hattempt
      split
      · rfl
      · rename_i hbegun
        cases attempt with
        | iterator => exact attempt_refused hbegun _
        | run consumer => exact absurd hattempt (h s consumer)
  rw [amid, amid, hvisited]

end

/-- Whoever comes to a reading that is not ready is refused, and nothing is read or counted; but a
run marks the reading as failed. So whatever a client does amid refused attempts, it gets the same
and leaves the same behind but for the mark, and without that if no run is among them. -/
theorem refused_attempts [Source σ] {s : Reading × Desk σ χ} (h : s.1.phase ≠ .ready) (source : σ)
    (budget : Int) (warns : Bool) (visitor : Visitor σ History) (c : Client) :
    let start : Reading × Desk σ History := (.start budget warns, .init source [])
    (Fault.alreadyRead s.1.phase).kind = .shapefile ∧
      (∀ consumer, Desk.run consumer s =
        .error (.alreadyRead s.1.phase) ({ s.1 with phase := .failed }, s.2)) ∧
      (∀ i, s.2.iterator i = .fresh → Desk.next i s =
        .error (.alreadyRead s.1.phase)
          (s.1, { s.2 with iterators := s.2.iterators.set i .finished })) ∧
      Alike Marked (c.exec (amid fun _ => none) start) (c.exec (amid visitor) start) ∧
      ((∀ s consumer, visitor s ≠ some (.run consumer)) →
        c.exec (amid visitor) start = c.exec (amid fun _ => none) start) := by
  refine ⟨rfl, run_refused h, fun i hi => next_refused h hi, ?_, fun hvisitor => ?_⟩
  · exact amid_marked visitor c (.refl _)
  · rw [amid_iterators hvisitor]

/-- An iterator reads a record while runs are refused. -/
theorem refused_attempts_midway :
    let s : Reading × Desk Plain Unit :=
      ({ Reading.start 12 true with phase := .reading }, .init ⟨[]⟩ ())
    let start : Reading × Desk Plain History :=
      (.start 12 true, .init ⟨[0, 0, 0, 1, 0, 2, 0, 0, 0, 0, 0, 0]⟩ [])
    let visitor : Visitor Plain History := fun _ => some (.run Reading.wantAll)
    let c : Client := .iterate fun i => .next i fun _ => .next i fun _ => .answer true
    s.1.phase ≠ .ready ∧
      Desk.run Reading.wantAll s = .error (.alreadyRead .reading) (failed s) ∧
      Alike Marked (c.exec (amid fun _ => none) start) (c.exec (amid visitor) start) ∧
      (endState (c.exec (amid fun _ => none) start)).1.phase = .done ∧
      (endState (c.exec (amid visitor) start)).1.phase = .failed :=
  have h := refused_attempts (s := ({ Reading.start 12 true with phase := .reading },
    (.init ⟨[]⟩ () : Desk Plain Unit))) nofun _ 12 true _ _
  ⟨nofun, h.2.1 _, h.2.2.2.1, by decide +kernel, by decide +kernel⟩

end Desk
end Shapefile
