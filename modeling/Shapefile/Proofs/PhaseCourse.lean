import Shapefile.Proofs.ClientSteps

/-! # The course of a reading

Whatever its clients do, a reading goes from ready to reading and from there to done or to failed,
and what was done may fail. While it reads there is one reader that has begun and not ended, and
none before and after it (`Desk.phase_course`). -/

namespace Shapefile

def Entry.isTotals : Entry → Bool
  | totals .. => true
  | _ => false

namespace Desk

open Relation

variable {σ χ : Type}

/-- How often the log tells what the reading came to. -/
def totalsCount (log : List Entry) : Nat := log.countP Entry.isTotals

/-- What a reading does at its desk. Records are read only before the log tells what the reading
came to, and it tells that when the reading gets done. -/
inductive Move : View σ → View σ → Prop where
  | begin (rd : Reading) (d : Desk σ Unit) (phase : rd.phase = .ready) :
    Move (rd, d) ({ rd with phase := .reading }, d)
  /-- Reads on. A reading that failed may still have a reader. -/
  | work {rd rd' : Reading} {d d' : Desk σ Unit} (busy : rd.phase = .reading ∨ rd.phase = .failed)
      (untold : totalsCount d.log = 0) (phase : rd'.phase = rd.phase)
      (log : totalsCount d'.log = 0) (iterators : d'.iterators = d.iterators) :
    Move (rd, d) (rd', d')
  | finish (rd : Reading) (d : Desk σ Unit) (phase : rd.phase = .reading) :
    Move (rd, d)
      ({ rd with phase := .done }, { d with log := .totals rd.shapeCount rd.left :: d.log })
  | fail (rd : Reading) (d : Desk σ Unit) (phase : rd.phase = .reading ∨ rd.phase = .done) :
    Move (rd, d) ({ rd with phase := .failed }, d)
  | turn (rd : Reading) (d : Desk σ Unit) (iterators : List Reading.Iterator) :
    Move (rd, d) (rd, { d with iterators })

/-- How the phase, the number of lines in the log that tell what the reading came to and the readers
that have begun and not ended go together. -/
inductive Course : Phase → (totals : Nat) → (readers : List Reader) → Prop where
  | ready : Course .ready 0 []
  | reading (reader : Reader) : Course .reading 0 [reader]
  | done : Course .done 1 []
  | failed : Course .failed 0 []
  | failedOnceDone : Course .failed 1 []
  | failedMidway (reader : Reader) : Course .failed 0 [reader]

/-- Nothing but the budget and the source is touched. -/
def Skipped (before after : View σ) : Prop :=
  ∃ meter source, after = ({ before.1 with meter }, { before.2 with source })

/-- What holds of an event right after which the view is `v`. -/
structure Orderly (start : View σ) (e : Event) (v : View σ) (earlier : Chronicle σ) : Prop where
  moves : e.isSkip = false → ReflTransGen Move (latest start earlier) v
  skipped : e.isSkip = true → Skipped (latest start earlier) v
  course : Course v.1.phase (totalsCount v.2.log) (active ((e, v) :: earlier))
  suspended : ∀ i, v.2.iterator i = .suspended ↔ .iterator i ∈ active ((e, v) :: earlier)

/-- What is known of a reading and its desk from the chronicle. -/
structure InOrder (start : View σ) (s : State σ) : Prop where
  here : view s = latest start s.2.memo
  past : ∀ later e v earlier, s.2.memo = later ++ (e, v) :: earlier → Orderly start e v earlier
  course : Course s.1.phase (totalsCount s.2.log) (active s.2.memo)
  suspended : ∀ i, s.2.iterator i = .suspended ↔ .iterator i ∈ active s.2.memo

/-! ## Moves -/

namespace Course

variable {phase : Phase} {n : Nat} {readers : List Reader} {reader : Reader}

theorem readers_of_mem (H : Course phase n readers) (h : reader ∈ readers) :
    readers = [reader] := by
  cases H with
  | reading reader' | failedMidway reader' => rw [List.mem_singleton.mp h]
  | _ => cases h

theorem readers_of_ready (H : Course .ready n readers) : readers = [] := by
  cases H
  rfl

theorem begin (H : Course .ready n readers) (reader : Reader) : Course .reading n [reader] := by
  cases H
  exact .reading reader

theorem busy (H : Course phase n [reader]) : (phase = .reading ∨ phase = .failed) ∧ n = 0 := by
  cases H with
  | reading => exact ⟨.inl rfl, rfl⟩
  | failedMidway => exact ⟨.inr rfl, rfl⟩

theorem ne_ready (H : Course phase n [reader]) : phase ≠ .ready := by
  cases H with
  | reading => exact Phase.reading_ne_ready
  | failedMidway => exact Phase.failed_ne_ready

theorem ne_ready_of_mem (H : Course phase n readers) (h : reader ∈ readers) : phase ≠ .ready :=
  (H.readers_of_mem h ▸ H).ne_ready

theorem fail (H : Course phase n readers) (h : phase ≠ .ready) (p : Reader → Bool) :
    Course .failed n (readers.filter p) := by
  cases H with
  | ready => exact absurd rfl h
  | reading reader | failedMidway reader =>
    by_cases hp : p reader = true
    · rw [List.filter_cons_of_pos hp]
      exact .failedMidway reader
    · rw [List.filter_cons_of_neg hp]
      exact .failed
  | done | failedOnceDone => exact .failedOnceDone
  | failed => exact .failed

end Course

/-- By moves from `s` to `t`, where the readers are the ones that have begun and not ended. -/
structure Brought (s t : Reading × Desk σ χ) (readers : List Reader) : Prop where
  moves : ReflTransGen Move (view s) (view t)
  course : Course t.1.phase (totalsCount t.2.log) readers
  iterators : t.2.iterators = s.2.iterators

namespace Brought

variable {s t u : Reading × Desk σ χ} {readers readers' : List Reader}

theorem trans (H : Brought s t readers) (H' : Brought t u readers') : Brought s u readers' :=
  ⟨H.moves.trans H'.moves, H'.course, H'.iterators.trans H.iterators⟩

theorem refl (h : Course s.1.phase (totalsCount s.2.log) readers) : Brought s s readers :=
  ⟨.refl, h, rfl⟩

end Brought

section
variable {s : Reading × Desk σ χ} {readers : List Reader} {reader : Reader}

theorem begun_brought (H : Course s.1.phase (totalsCount s.2.log) readers)
    (h : s.1.phase = .ready ∨ reader ∈ readers) : Brought s (begun s) [reader] := by
  obtain ⟨rd, d⟩ := s
  by_cases hphase : rd.phase = .ready
  · rw [begun_of_ready hphase]
    simp only [hphase] at H
    exact ⟨.single (.begin rd _ hphase), H.begin reader, rfl⟩
  · rw [begun_of_ne hphase]
    exact .refl (H.readers_of_mem (h.resolve_left hphase) ▸ H)

theorem failed_brought (H : Course s.1.phase (totalsCount s.2.log) readers)
    (h : s.1.phase ≠ .ready) (p : Reader → Bool) : Brought s (failed s) (readers.filter p) := by
  obtain ⟨rd, d⟩ := s
  refine ⟨?_, H.fail h p, rfl⟩
  cases hphase : rd.phase with
  | ready => exact absurd hphase h
  | reading => exact .single (.fail rd _ (.inl hphase))
  | done => exact .single (.fail rd _ (.inr hphase))
  | failed =>
    rw [show failed (rd, d) = (rd, d) by simp only [failed, ← hphase]]

theorem work_brought {rd rd' : Reading} {d d' : Desk σ χ}
    (H : Course rd.phase (totalsCount d.log) [reader]) (hphase : rd'.phase = rd.phase)
    (hlog : totalsCount d'.log = totalsCount d.log) (hiterators : d'.iterators = d.iterators) :
    Brought (rd, d) (rd', d') [reader] := by
  obtain ⟨hbusy, hn⟩ := H.busy
  refine ⟨.single (.work hbusy hn hphase (hlog.trans hn) hiterators), ?_, hiterators⟩
  simp only [hphase, hlog]
  exact H

variable [Source σ]

theorem settle_brought (H : Course s.1.phase (totalsCount s.2.log) [reader]) :
    Brought s (Reading.settle link s) [] := by
  obtain ⟨rd, d⟩ := s
  obtain ⟨hphase | hphase, hlog⟩ := H.busy
  · rw [Reading.settle, if_pos hphase]
    refine ⟨.single (.finish rd _ hphase), ?_, rfl⟩
    have hcount : totalsCount (.totals rd.shapeCount rd.left :: d.log) = 1 := by
      rw [totalsCount, List.countP_cons, show d.log.countP Entry.isTotals = 0 from hlog]
      rfl
    exact hcount ▸ .done
  · rw [Reading.settle, if_neg (by rw [hphase]; decide)]
    refine .refl ?_
    rw [hlog, hphase]
    exact .failed

theorem totalsCount_warn (rd : Reading) (record : Record) (d : Desk σ χ) :
    totalsCount (Reading.warn link rd record d).log = totalsCount d.log := by
  unfold Reading.warn
  split
  · exact List.countP_cons_of_neg Bool.false_ne_true
  · rfl

/-- A reader that reads on goes on reading or comes to its end. -/
theorem advance_brought (H : Course s.1.phase (totalsCount s.2.log) [reader]) :
    match Reading.advance link s with
    | .ok (some _) t => Brought s t [reader]
    | .ok none t | .error _ t => Brought s t [] := by
  obtain ⟨rd, d⟩ := s
  have hs := advance_continued rd d
  generalize Reading.advance link (rd, d) = r at hs
  cases hs with
  | @gave record meter source left read =>
    obtain ⟨log, hwarn⟩ := warn_keeps rd record { d with source }
    refine work_brought H rfl (totalsCount_warn rd record _) ?_
    rw [hwarn]
  | ended => exact settle_brought H
  | @failed f meter source =>
    have hread : Brought (rd, d) ({ rd with meter }, { d with source }) [reader] :=
      work_brought H rfl rfl rfl
    exact hread.trans (failed_brought hread.course H.ne_ready fun _ => false)
  | @broke f meter source =>
    have hread : Brought (rd, d) ({ rd with meter }, { d with source }) [reader] :=
      work_brought H rfl rfl rfl
    exact hread.trans (settle_brought hread.course)

end

/-! ## Steps -/

section
variable {start : View σ} {s t : State σ} {e : Event} {reader : Reader}

theorem Course.active_of_reads (H : Course s.1.phase (totalsCount s.2.log) (active s.2.memo))
    (hreads : Reads reader s) : active s.2.memo = [] ∨ active s.2.memo = [reader] := by
  rcases hreads with hphase | hmem
  · exact .inl (hphase ▸ H).readers_of_ready
  · exact .inr (H.readers_of_mem hmem)

theorem active_ended (H : Course s.1.phase (totalsCount s.2.log) (active s.2.memo))
    (hreads : Reads reader s) (hreader : e.reader? = some reader) (hdelivery : e.delivery? = none)
    (v : View σ) : active ((e, v) :: s.2.memo) = [] := by
  rcases H.active_of_reads hreads with h | h <;> simp [active_cons, h, hreader, hdelivery]

theorem active_gave (H : Course s.1.phase (totalsCount s.2.log) (active s.2.memo))
    (hreads : Reads reader s) (hreader : e.reader? = some reader) {shape : Shape}
    (hdelivery : e.delivery? = some (reader, shape)) (v : View σ) :
    active ((e, v) :: s.2.memo) = [reader] := by
  rcases H.active_of_reads hreads with h | h <;> simp [active_cons, h, hreader, hdelivery]

theorem active_of_notMem {h : Chronicle σ} (hreader : ∀ r, e.reader? = some r → r ∉ active h)
    (hdelivery : e.delivery? = none) (v : View σ) : active ((e, v) :: h) = active h := by
  rw [active_cons, hdelivery]
  exact List.filter_eq_self.mpr fun r hr => bne_iff_ne.mpr fun he => hreader r he hr

namespace InOrder

theorem note (H : InOrder start s) (hmemo : t.2.memo = s.2.memo)
    (hmoves : e.isSkip = false → ReflTransGen Move (view s) (view t))
    (hskipped : e.isSkip = true → Skipped (view s) (view t))
    (hcourse : Course t.1.phase (totalsCount t.2.log) (active ((e, view t) :: s.2.memo)))
    (hsuspended : ∀ i, t.2.iterator i = .suspended ↔
      .iterator i ∈ active ((e, view t) :: s.2.memo)) : InOrder start (Desk.note e t) := by
  have hnote : (Desk.note e t).2.memo = (e, view t) :: s.2.memo := by rw [note_memo, hmemo]
  refine ⟨rfl, ?_, by rw [hnote]; exact hcourse, by rw [hnote]; exact hsuspended⟩
  intro later e' v earlier h
  rw [hnote] at h
  cases later with
  | nil =>
    cases h
    exact ⟨H.here ▸ hmoves, H.here ▸ hskipped, hcourse, hsuspended⟩
  | cons moment later =>
    rw [List.cons_append, List.cons.injEq] at h
    exact H.past later e' v earlier h.2

/-- An event that no iterator is about. -/
theorem passed (H : InOrder start s) (hmemo : t.2.memo = s.2.memo) (he : e.isSkip = false)
    (hother : ∀ i, e.reader? ≠ some (.iterator i) ∧
      ∀ shape, e.delivery? ≠ some (.iterator i, shape))
    (hbrought : Brought s t (active ((e, view t) :: s.2.memo))) :
    InOrder start (Desk.note e t) := by
  refine H.note hmemo (fun _ => hbrought.moves) (fun h => nomatch he ▸ h) hbrought.course ?_
  intro i
  rw [mem_active_cons (hother i).1 (hother i).2, ← H.suspended i, Desk.iterator, Desk.iterator,
    hbrought.iterators]

/-- An event that an iterator is about. -/
theorem turned (H : InOrder start s) (hmemo : t.2.memo = s.2.memo) (he : e.isSkip = false) {i : Nat}
    (hother : ∀ k, i ≠ k → e.reader? ≠ some (.iterator k) ∧
      ∀ shape, e.delivery? ≠ some (.iterator k, shape)) {it : Reading.Iterator}
    (hbrought : Brought s t (active ((e, view (setIterator i it t)) :: s.2.memo)))
    (hit : (setIterator i it t).2.iterator i = .suspended ↔
      .iterator i ∈ active ((e, view (setIterator i it t)) :: s.2.memo)) :
    InOrder start (Desk.note e (setIterator i it t)) := by
  have hmoves : ReflTransGen Move (view s) (view (setIterator i it t)) :=
    hbrought.moves.tail (.turn ..)
  refine H.note hmemo (fun _ => hmoves) (fun h => nomatch he ▸ h) hbrought.course ?_
  intro k
  by_cases hk : i = k
  · subst hk
    exact hit
  · rw [mem_active_cons (hother k hk).1 (hother k hk).2, ← H.suspended k]
    have hset : (setIterator i it t).2.iterator k = t.2.iterator k := iterator_set_ne t.2 hk it
    rw [hset, Desk.iterator, Desk.iterator, hbrought.iterators]

end InOrder

theorem setIterator_finished (s : Reading × Desk σ χ) (i : Nat) :
    (setIterator i .finished s).2.iterator i ≠ .suspended := by
  intro h
  rcases iterator_set_self s.2 i .finished with hset | hset <;> cases hset.symm.trans h

theorem setIterator_suspended {s : Reading × Desk σ χ} {i : Nat} (h : s.2.iterator i ≠ .finished) :
    (setIterator i .suspended s).2.iterator i = .suspended := by
  have hmem : i < s.2.iterators.length := by
    refine Nat.lt_of_not_le fun hle => h ?_
    rw [iterator, List.getD_eq_getElem?_getD, List.getElem?_eq_none hle]
    rfl
  simp [setIterator, iterator, hmem]

namespace InOrder

/-- An iterator that does not wait for anything is finished. -/
theorem idle (H : InOrder start s) {i : Nat} (hidle : s.2.iterator i ≠ .suspended)
    (hreader : e.reader? = some (.iterator i)) (hdelivery : e.delivery? = none)
    (hskip : e.isSkip = false) : InOrder start (Desk.note e (setIterator i .finished s)) := by
  have hactive (v : View σ) : active ((e, v) :: s.2.memo) = active s.2.memo := by
    refine active_of_notMem (fun r hr => ?_) hdelivery v
    rw [hreader] at hr
    cases hr
    exact fun hmem => hidle ((H.suspended i).mpr hmem)
  refine H.turned rfl hskip (fun k hk => ⟨?_, ?_⟩) (.refl (hactive _ ▸ H.course)) ?_
  · simpa [hreader] using hk
  · simp [hdelivery]
  · rw [hactive, ← H.suspended i]
    exact iff_of_false (setIterator_finished s i) hidle

/-- An iterator comes to its end. -/
theorem ended (H : InOrder start s) {i : Nat} (hreads : Reads (.iterator i) s)
    (hreader : e.reader? = some (.iterator i)) (hdelivery : e.delivery? = none)
    (hskip : e.isSkip = false) (hmemo : t.2.memo = s.2.memo) (hbrought : Brought s t []) :
    InOrder start (Desk.note e (setIterator i .finished t)) := by
  have hactive := active_ended H.course hreads hreader hdelivery (view (setIterator i .finished t))
  refine H.turned hmemo hskip (fun k hk => ⟨?_, ?_⟩) (hactive ▸ hbrought) ?_
  · simpa [hreader] using hk
  · simp [hdelivery]
  · rw [hactive]
    exact iff_of_false (setIterator_finished t i) List.not_mem_nil

/-- An iterator gives a shape. -/
theorem gave (H : InOrder start s) {i : Nat} (hreads : Reads (.iterator i) s)
    (hit : s.2.iterator i ≠ .finished) (phase : Phase) (shape : Shape)
    (hmemo : t.2.memo = s.2.memo) (hbrought : Brought s t [.iterator i]) :
    InOrder start
      (Desk.note (.asked i phase (.ok (some shape))) (setIterator i .suspended t)) := by
  have hactive := active_gave (e := .asked i phase (.ok (some shape))) H.course hreads rfl rfl
    (view (setIterator i .suspended t))
  refine H.turned hmemo rfl (fun k hk => ⟨?_, ?_⟩) (hactive ▸ hbrought) ?_
  · simpa [Event.reader?] using hk
  · simp [Event.delivery?, hk]
  · rw [hactive]
    have hit' : t.2.iterator i ≠ .finished := by
      rwa [iterator, hbrought.iterators]
    exact iff_of_true (setIterator_suspended hit') (List.mem_singleton_self _)

theorem made {rd : Reading} {d : Desk σ (Chronicle σ)} (H : InOrder start (rd, d)) :
    InOrder start (Desk.note (.made d.iterators.length)
      (rd, { d with iterators := d.iterators ++ [.fresh] })) := by
  have hactive (v : View σ) :=
    active_of_notMem (e := .made d.iterators.length) (h := d.memo) nofun rfl v
  refine H.note rfl (fun _ => .single (.turn ..)) nofun ?_ fun i => ?_
  · rw [hactive]
    exact H.course
  · rw [hactive, ← H.suspended i, iterator_append]
    split
    · rename_i hi
      have hnone : d.iterator i = .finished := by
        rw [iterator, List.getD_eq_getElem?_getD, List.getElem?_eq_none (Nat.le_of_eq hi)]
        rfl
      simp [hnone]
    · rfl

end InOrder

end

section
variable [Source σ]

/-- What comes of asking an iterator for a shape: it reads on, or it is over or refused. -/
inductive Asked (i : Nat) (s : State σ) :
    EStateM.Result Fault (State σ) (Option Shape) → Prop where
  | gave {shape : Shape} {t : State σ} (reads : Reads (.iterator i) s)
      (unfinished : s.2.iterator i ≠ .finished)
      (advance : Reading.advance link (begun s) = .ok (some shape) t) :
      Asked i s (.ok (some shape) (setIterator i .suspended t))
  | ended {t : State σ} (reads : Reads (.iterator i) s)
      (advance : Reading.advance link (begun s) = .ok none t) :
      Asked i s (.ok none (setIterator i .finished t))
  | fell {f : Fault} {t : State σ} (reads : Reads (.iterator i) s)
      (advance : Reading.advance link (begun s) = .error f t) :
      Asked i s (.error f (setIterator i .finished t))
  | nothing (idle : s.2.iterator i ≠ .suspended) : Asked i s (.ok none (setIterator i .finished s))
  | refused {f : Fault} (idle : s.2.iterator i ≠ .suspended) :
      Asked i s (.error f (setIterator i .finished s))

variable {start : View σ} {s t : State σ}

theorem asked_of_reads {i : Nat} (hreads : Reads (.iterator i) s)
    (hunfinished : s.2.iterator i ≠ .finished)
    (hnext : (s.2.iterator i).next link s = Reading.advance link (begun s)) :
    Asked i s (Desk.next i s) := by
  simp only [Desk.next, hnext]
  cases hadvance : Reading.advance link (begun s) with
  | error f t => exact .fell hreads hadvance
  | ok shape? t =>
    cases shape? with
    | none => exact .ended hreads hadvance
    | some shape => exact .gave hreads hunfinished hadvance

theorem InOrder.asked_cases (H : InOrder start s) (i : Nat) : Asked i s (Desk.next i s) := by
  cases hit : s.2.iterator i with
  | finished =>
    simp only [Desk.next, hit]
    exact .nothing (by rw [hit]; decide)
  | suspended =>
    have hmem := (H.suspended i).mp hit
    refine asked_of_reads (.inr hmem) (by rw [hit]; decide) ?_
    rw [hit, begun_of_ne (H.course.ne_ready_of_mem hmem)]
    rfl
  | fresh =>
    obtain ⟨rd, d⟩ := s
    simp only at hit
    by_cases hphase : rd.phase = .ready
    · refine asked_of_reads (.inl hphase) (by simp [hit]) ?_
      simp only [hit, Reading.Iterator.next, if_pos hphase, begun_of_ready hphase]
    · simp only [Desk.next, hit, Reading.Iterator.next, if_neg hphase]
      exact .refused (by simp [hit])

/-- A reader that begins or goes on. -/
theorem InOrder.advance (H : InOrder start s) {reader : Reader} (reads : Reads reader s) :
    match Reading.advance link (begun s) with
    | .ok (some _) t => t.2.memo = s.2.memo ∧ Brought s t [reader]
    | .ok none t | .error _ t => t.2.memo = s.2.memo ∧ Brought s t [] := by
  have hbegun := begun_brought H.course reads
  have hadvance := advance_brought hbegun.course
  have hmemo := ((begun_onward s).trans (advance_onward (begun s))).memo
  cases hr : Reading.advance link (begun s) with
  | error f t =>
    rw [hr] at hadvance hmemo
    exact ⟨hmemo, hbegun.trans hadvance⟩
  | ok shape? t =>
    rw [hr] at hadvance hmemo
    cases shape? <;> exact ⟨hmemo, hbegun.trans hadvance⟩

theorem InOrder.asked (H : InOrder start s) (i : Nat) :
    InOrder start (Desk.note (.asked i s.1.phase (outcome (Desk.next i s)))
      (endState (Desk.next i s))) := by
  have hasked := H.asked_cases i
  generalize Desk.next i s = r at hasked
  cases hasked with
  | gave reads unfinished advance =>
    have hadvance := H.advance reads
    rw [advance] at hadvance
    exact H.gave reads unfinished _ _ hadvance.1 hadvance.2
  | ended reads advance | fell reads advance =>
    have hadvance := H.advance reads
    rw [advance] at hadvance
    exact H.ended reads rfl rfl rfl hadvance.1 hadvance.2
  | nothing idle | refused idle => exact H.idle idle rfl rfl rfl

theorem InOrder.closed (H : InOrder start s) (i : Nat) :
    InOrder start (Desk.note (.closed i) (endState (Desk.close i s))) := by
  simp only [Desk.close, endState]
  cases hit : s.2.iterator i with
  | fresh | finished =>
    exact H.idle (by rw [hit]; decide) rfl rfl rfl
  | suspended =>
    have hmem := (H.suspended i).mp hit
    have hcourse := H.course.readers_of_mem hmem ▸ H.course
    exact H.ended (.inr hmem) rfl rfl rfl (settle_onward s).memo (settle_brought hcourse)

theorem InOrder.skipped (H : InOrder start s) (n : Int) :
    InOrder start (Desk.note (.skipped (outcome (Desk.skip n s))) (endState (Desk.skip n s))) := by
  obtain ⟨meter, source, hskip, -⟩ := skip_keeps n s
  have hactive (v : View σ) :=
    active_of_notMem (e := .skipped (outcome (Desk.skip n s))) (h := s.2.memo) nofun rfl v
  rw [hskip]
  refine H.note rfl nofun (fun _ => ⟨meter, source, rfl⟩) ?_ fun i => ?_
  · rw [hactive]
    exact H.course
  · rw [hactive]
    exact H.suspended i

theorem Step.inOrder (h : Step s t) (H : InOrder start s) : InOrder start t := by
  cases h with
  | made => exact H.made
  | asked i => exact H.asked i
  | closed i => exact H.closed i
  | skipped n => exact H.skipped n
  | entered j =>
    refine H.passed rfl rfl (fun i => ⟨nofun, nofun⟩) (.refl ?_)
    rw [active_of_notMem (e := .entered j s.1.phase) (h := s.2.memo) nofun rfl]
    exact H.course
  | handed reads advance =>
    have hadvance := H.advance reads
    rw [advance] at hadvance
    refine H.passed hadvance.1 rfl (fun i => ⟨nofun, nofun⟩) ?_
    rw [active_gave H.course reads rfl rfl]
    exact hadvance.2
  | ended reads advance =>
    have hadvance := H.advance reads
    rw [advance] at hadvance
    refine H.passed hadvance.1 rfl (fun i => ⟨nofun, nofun⟩) ?_
    rw [active_ended H.course reads rfl rfl]
    exact hadvance.2
  | fell reads advance =>
    have hadvance := H.advance reads
    have hreading := (advance_onward (begun s)).phase (begun_ne_ready s)
    rw [advance] at hadvance hreading
    refine H.passed hadvance.1 rfl (fun i => ⟨nofun, nofun⟩) ?_
    rw [active_ended H.course reads rfl rfl]
    exact hadvance.2.trans (failed_brought hadvance.2.course hreading fun _ => false)
  | enough reads =>
    have hcourse := H.course.readers_of_mem reads ▸ H.course
    refine H.passed (settle_onward s).memo rfl (fun i => ⟨nofun, nofun⟩) ?_
    rw [active_ended H.course (.inr reads) rfl rfl]
    exact settle_brought hcourse
  | stopped j f begun =>
    exact H.passed rfl rfl (fun i => ⟨nofun, nofun⟩) (failed_brought H.course begun _)

/-! ## Clients -/

theorem steps_inOrder (h : ReflTransGen Step s t) (H : InOrder start s) : InOrder start t := by
  induction h with
  | refl => exact H
  | tail _ hstep ih => exact hstep.inOrder ih

end

theorem start_inOrder (source : σ) (budget : Int) (warns : Bool) :
    InOrder (.start budget warns, .init source ())
      (.start budget warns, .init source ([] : Chronicle σ)) where
  here := rfl
  past later e v earlier h := by cases later <;> cases h
  course := .ready
  suspended i := iff_of_false nofun nofun

section
variable {start v w : View σ} {e : Event} {earlier : Chronicle σ}

theorem moves_ne_ready (H : ReflTransGen Move v w) (h : v.1.phase ≠ .ready) :
    w.1.phase ≠ .ready := by
  induction H with
  | refl => exact h
  | tail _ hmove ih =>
    cases hmove with
    | begin => exact Phase.reading_ne_ready
    | work _ _ phase => exact phase ▸ ih
    | finish => exact Phase.done_ne_ready
    | fail => exact Phase.failed_ne_ready
    | turn => exact ih

theorem moves_failed (H : ReflTransGen Move v w) (h : v.1.phase = .failed) :
    w.1.phase = .failed := by
  induction H with
  | refl => exact h
  | tail _ hmove ih =>
    cases hmove with
    | begin _ _ phase | finish _ _ phase => cases phase.symm.trans ih
    | work _ _ phase => exact phase.trans ih
    | fail => rfl
    | turn => exact ih

/-- Once the log tells what the reading came to, nothing is read any more. -/
theorem moves_over (H : ReflTransGen Move v w) (h : totalsCount v.2.log ≠ 0) :
    totalsCount w.2.log ≠ 0 ∧ w.2.source = v.2.source := by
  induction H with
  | refl => exact ⟨h, rfl⟩
  | tail _ hmove ih =>
    cases hmove with
    | begin | fail | turn => exact ih
    | work _ hopen => exact absurd hopen ih.1
    | finish => exact ⟨by simp [totalsCount, Entry.isTotals], ih.2⟩

theorem Orderly.phases (H : Orderly start e v earlier) :
    ((latest start earlier).1.phase ≠ .ready → v.1.phase ≠ .ready) ∧
      ((latest start earlier).1.phase = .failed → v.1.phase = .failed) := by
  cases hskip : e.isSkip with
  | false => exact ⟨moves_ne_ready (H.moves hskip), moves_failed (H.moves hskip)⟩
  | true =>
    obtain ⟨meter, source, rfl⟩ := H.skipped hskip
    exact ⟨id, id⟩

theorem Orderly.told (H : Orderly start e v earlier)
    (h : totalsCount (latest start earlier).2.log ≠ 0) :
    e.delivery? = none ∧
      (e.isSkip = false → v.2.source = (latest start earlier).2.source) := by
  refine ⟨?_, fun hskip => (moves_over (H.moves hskip) h).2⟩
  cases hdelivery : e.delivery? with
  | none => rfl
  | some delivery =>
    have hskip : e.isSkip = false := by
      cases e with
      | skipped => cases hdelivery
      | _ => rfl
    have hmem : delivery.1 ∈ active ((e, v) :: earlier) := by simp [active_cons, hdelivery]
    have hbusy := (H.course.readers_of_mem hmem ▸ H.course).busy
    exact absurd hbusy.2 (moves_over (H.moves hskip) h).1

end

/-- Whatever a client does, at all times the reading is on its course. No phase is left but by a
move, so failed readings remain failed, and none gets ready again. Once the log tells what the
reading came to, no reader is given anything, and nothing but skipped bytes is read. -/
theorem phase_course [Source σ] (source : σ) (budget : Int) (warns : Bool) (c : Client) :
    let start : View σ := (.start budget warns, .init source ())
    let s := endState (c.exec chronicler (.start budget warns, .init source []))
    view s = latest start s.2.memo ∧
      ∀ later e v earlier, s.2.memo = later ++ (e, v) :: earlier →
        let before := latest start earlier
        Orderly start e v earlier ∧
          (before.1.phase ≠ .ready → v.1.phase ≠ .ready) ∧
          (before.1.phase = .failed → v.1.phase = .failed) ∧
          (totalsCount before.2.log ≠ 0 → e.delivery? = none ∧
            (e.isSkip = false → v.2.source = before.2.source)) := by
  have hend := steps_inOrder (c.exec_used _).steps (start_inOrder source budget warns)
  refine ⟨hend.here, fun later e v earlier h => ?_⟩
  have horderly := hend.past later e v earlier h
  exact ⟨horderly, horderly.phases.1, horderly.phases.2, horderly.told⟩

end Desk
end Shapefile
