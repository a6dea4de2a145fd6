import Shapefile.Proofs.PhaseCourse
import Shapefile.Proofs.RoundTrip

/-! # Beyond the length that the header tells

What is left of the budget bounds the length that a record declares, not the bytes that the record
takes. So the last record may go beyond the end that the file header tells, but only if it declares
less than it has, which is logged, and by twenty bytes at most (`Desk.overrun_bounded`). -/

namespace Shapefile.Desk

variable {σ χ : Type}

/-- A shape is delivered, or a run comes to a good end. -/
def Event.Succeeds (e : Event) : Prop := e.delivery? ≠ none ∨ ∃ j n, e = .left j (.ok n)

/-- No client took bytes out of the middle. -/
def noSkip (h : Chronicle σ) : Bool := h.all fun moment => !moment.1.isSkip

/-- Nothing is read from one view to the other. -/
structure Unread (v w : View σ) : Prop where
  meter : w.1.meter = v.1.meter
  source : w.2.source = v.2.source
  shapeCount : w.1.shapeCount = v.1.shapeCount
  warns : w.1.warns = v.1.warns
  log : ∀ entry ∈ v.2.log, entry ∈ w.2.log

theorem Unread.refl (v : View σ) : Unread v v := ⟨rfl, rfl, rfl, rfl, fun _ => id⟩

theorem Unread.trans {u v w : View σ} (H : Unread u v) (H' : Unread v w) : Unread u w :=
  ⟨H'.meter.trans H.meter, H'.source.trans H.source, H'.shapeCount.trans H.shapeCount,
    H'.warns.trans H.warns, fun entry h => H'.log entry (H.log entry h)⟩

theorem begun_unread (s : Reading × Desk σ χ) : Unread (view s) (view (begun s)) := by
  obtain ⟨rd, d⟩ := s
  by_cases h : rd.phase = .ready
  · rw [begun_of_ready h]
    exact ⟨rfl, rfl, rfl, rfl, fun _ => id⟩
  · rw [begun_of_ne h]
    exact .refl _

section
variable {e : Event}

theorem noSkip_cons {v : View σ} {h : Chronicle σ} :
    noSkip ((e, v) :: h) = true ↔ e.isSkip = false ∧ noSkip h = true := by
  simp [noSkip]

theorem mem_active_of_silent {h : Chronicle σ} {v : View σ} {reader : Reader}
    (hdelivery : e.delivery? = none) (hmem : reader ∈ active ((e, v) :: h)) :
    reader ∈ active h := by
  rw [active_cons, hdelivery] at hmem
  exact (List.mem_filter.mp hmem).1

theorem deliveries_of_silent (hdelivery : e.delivery? = none) (v : View σ) (h : Chronicle σ) :
    deliveries (history ((e, v) :: h)) = deliveries (history h) := by
  rw [history_cons, deliveries_cons, hdelivery]
  exact List.append_nil _

theorem getLast?_deliveries {delivery : Reader × Shape} (hdelivery : e.delivery? = some delivery)
    (v : View σ) (h : Chronicle σ) :
    (deliveries (history ((e, v) :: h))).getLast? = some delivery := by
  rw [history_cons, deliveries_cons, hdelivery]
  exact List.getLast?_concat

end

variable [Source σ]

/-- Nothing beyond the budget was taken, or the record of the last delivery, after which nothing was
read, declares less than it has. -/
inductive Covered (h : Chronicle σ) (v : View σ) : Prop where
  | within (left : 0 ≤ v.1.left)
  | overrun {objectId : Nat} {before : Meter × σ} {record : Record} {reader : Reader}
      (read : Record.read Source.read objectId before = .ok record (v.1.meter, v.2.source))
      (count : v.1.shapeCount = objectId + 1)
      (last : (deliveries (history h)).getLast? = some (reader, record.shape))
      (nonneg : 0 ≤ record.header.contentLength)
      (less : record.header.contentLength < record.decoded) (few : record.decoded ≤ 20)
      (left : record.header.contentLength - record.decoded ≤ v.1.left)
      (logged : v.1.warns = true → .lengthMismatch record.header.number
        record.header.contentLength record.decoded ∈ v.2.log)

/-- What is known of the budget from the chronicle. -/
structure Fits (s : State σ) : Prop where
  reads : noSkip s.2.memo = true → ∀ reader, Reads reader s → Covered s.2.memo (view s)
  past : ∀ later e v earlier, s.2.memo = later ++ (e, v) :: earlier →
    noSkip ((e, v) :: earlier) = true → e.Succeeds → Covered ((e, v) :: earlier) v

theorem Covered.mono {h k : Chronicle σ} {v w : View σ} (H : Covered h v) (hunread : Unread v w)
    (hlast : deliveries (history k) = deliveries (history h)) : Covered k w := by
  have hleft : w.1.left = v.1.left := congrArg Meter.left hunread.meter
  cases H with
  | within left => exact .within (hleft ▸ left)
  | @overrun objectId before record _ read count last nonneg less few left logged =>
    have hread : Record.read Source.read objectId before = .ok record (w.1.meter, w.2.source) := by
      rw [hunread.meter, hunread.source]
      exact read
    exact .overrun hread (hunread.shapeCount.trans count) (hlast ▸ last) nonneg less few
      (hleft ▸ left) fun h => hunread.log _ (logged (hunread.warns ▸ h))

section
variable {s t : Reading × Desk σ χ}

theorem settle_unread (s : Reading × Desk σ χ) :
    Unread (view s) (view (Reading.settle link s)) := by
  obtain ⟨rd, d⟩ := s
  by_cases h : rd.phase = .reading
  · rw [Reading.settle, if_pos h]
    exact ⟨rfl, rfl, rfl, rfl, fun _ => List.mem_cons_of_mem _⟩
  · rw [Reading.settle, if_neg h]
    exact .refl _

theorem ended_unread (h : Reading.advance link s = .ok none t) :
    Unread (view s) (view t) := by
  obtain ⟨rd, d⟩ := s
  have hs := advance_continued rd d
  rw [h] at hs
  cases hs with
  | ended => exact settle_unread (rd, d)

/-- A record that goes beyond the budget declares less than it has, for what it declares fits. -/
theorem gave_covered {shape : Shape} (h : Reading.advance link s = .ok (some shape) t)
    {k : Chronicle σ} {reader : Reader}
    (hlast : (deliveries (history k)).getLast? = some (reader, shape)) : Covered k (view t) := by
  obtain ⟨rd, d⟩ := s
  have hs := advance_continued rd d
  rw [h] at hs
  cases hs with
  | @gave record meter source left read =>
    obtain ⟨-, hdecoded, hnonneg, hfits⟩ := Record.read_takes read
    have hleft : meter.left = rd.left - (8 + record.decoded) := left_of_read left read
    have hbudget : record.header.contentLength ≤ rd.left - 8 :=
      Meter.left_count_of_pos left 8 ▸ hfits
    by_cases hin : 0 ≤ meter.left
    · exact .within hin
    have hcovers : record.header.contentLength - record.decoded ≤ meter.left := by omega
    have hless : record.header.contentLength < record.decoded := by omega
    have hread : Record.read Source.read rd.shapeCount (rd.meter, d.source) = .ok record
        (meter, (Reading.warn link rd record { d with source }).source) := by
      obtain ⟨log, hwarn⟩ := warn_keeps rd record { d with source }
      rwa [hwarn]
    refine .overrun hread rfl hlast hnonneg hless (by omega) hcovers fun hwarns => ?_
    have hmis : record.isMisdeclared = true := bne_iff_ne.mpr (Int.ne_of_gt hless)
    have hwarn : (rd.warns && record.isMisdeclared) = true := by
      rw [hmis, Bool.and_true]
      exact hwarns
    simp only [view, Reading.warn, hwarn, if_true]
    exact List.mem_cons_self

end

/-! ## Steps -/

section
variable {start : View σ} {s t : State σ} {e : Event}

namespace Fits

theorem note (F : Fits s) (hmemo : t.2.memo = s.2.memo)
    (hreads : e.isSkip = false → (∀ reader, Reads reader s → Covered s.2.memo (view s)) →
      ∀ reader, Reads reader (Desk.note e t) → Covered ((e, view t) :: s.2.memo) (view t))
    (hsucceeds : e.isSkip = false → (∀ reader, Reads reader s → Covered s.2.memo (view s)) →
      e.Succeeds → Covered ((e, view t) :: s.2.memo) (view t)) : Fits (Desk.note e t) := by
  have hnote : (Desk.note e t).2.memo = (e, view t) :: s.2.memo := by rw [note_memo, hmemo]
  refine ⟨fun hskip => ?_, fun later e' v earlier h hskip => ?_⟩
  · rw [hnote, noSkip_cons] at hskip
    rw [hnote]
    exact hreads hskip.1 (F.reads hskip.2)
  · rw [hnote] at h
    cases later with
    | nil =>
      cases h
      rw [noSkip_cons] at hskip
      exact hsucceeds hskip.1 (F.reads hskip.2)
    | cons moment later =>
      rw [List.cons_append, List.cons.injEq] at h
      exact F.past later e' v earlier h.2 hskip

/-- A record is read and delivered. -/
theorem gave (F : Fits s) (hmemo : t.2.memo = s.2.memo)
    (hcovered : Covered ((e, view t) :: s.2.memo) (view t)) : Fits (Desk.note e t) :=
  F.note hmemo (fun _ _ _ _ => hcovered) fun _ _ _ => hcovered

/-- An event at which nothing is read and nobody gets anything. -/
theorem quiet (F : Fits s) (hmemo : t.2.memo = s.2.memo) (hdelivery : e.delivery? = none)
    (hleft : ∀ j n, e ≠ .left j (.ok n)) (hphase : t.1.phase = .ready → s.1.phase = .ready)
    (hunread : Unread (view s) (view t)) : Fits (Desk.note e t) := by
  refine F.note hmemo (fun _ hs reader hreads => ?_) fun _ _ hsucceeds => ?_
  · refine (hs reader (hreads.imp hphase fun hmem => ?_)).mono hunread
      (deliveries_of_silent hdelivery _ _)
    rw [note_memo, hmemo] at hmem
    exact mem_active_of_silent hdelivery hmem
  · rcases hsucceeds with h | ⟨j, n, rfl⟩
    · exact absurd hdelivery h
    · exact absurd rfl (hleft j n)

/-- A reader comes to its end. -/
theorem ended (F : Fits s) (H : InOrder start s) (hmemo : t.2.memo = s.2.memo) {reader : Reader}
    (hreads : Reads reader s) (hreader : e.reader? = some reader) (hdelivery : e.delivery? = none)
    (hphase : t.1.phase ≠ .ready)
    (hunread : (∃ j n, e = .left j (.ok n)) → Unread (view s) (view t)) :
    Fits (Desk.note e t) := by
  refine F.note hmemo (fun _ _ reader' h => ?_) fun _ hs hsucceeds => ?_
  · refine absurd (h.resolve_left hphase) ?_
    rw [note_memo, hmemo, active_ended H.course hreads hreader hdelivery]
    exact List.not_mem_nil
  · exact (hs reader hreads).mono (hunread (hsucceeds.resolve_left fun h => h hdelivery))
      (deliveries_of_silent hdelivery _ _)

end Fits

end

section
variable {start : View σ} {s t : State σ}

theorem Fits.asked (F : Fits s) (H : InOrder start s) (i : Nat) :
    Fits (Desk.note (.asked i s.1.phase (outcome (Desk.next i s))) (endState (Desk.next i s))) := by
  have hasked := H.asked_cases i
  generalize Desk.next i s = r at hasked
  have hreading := (advance_onward (begun s)).phase (begun_ne_ready s)
  cases hasked with
  | gave reads _ advance =>
    have hadvance := H.advance reads
    rw [advance] at hadvance
    exact F.gave hadvance.1 ((gave_covered advance (getLast?_deliveries rfl _ _)).mono
      ⟨rfl, rfl, rfl, rfl, fun _ => id⟩ rfl)
  | ended reads advance | fell reads advance =>
    have hadvance := H.advance reads
    rw [advance] at hadvance hreading
    exact F.ended H hadvance.1 reads rfl rfl hreading nofun
  | nothing | refused => exact F.quiet rfl rfl nofun id ⟨rfl, rfl, rfl, rfl, fun _ => id⟩

theorem Fits.closed (F : Fits s) (H : InOrder start s) (i : Nat) :
    Fits (Desk.note (.closed i) (endState (Desk.close i s))) := by
  have hleft : ∀ j n, Event.closed i ≠ .left j (.ok n) := by
    intro j n h
    cases h
  simp only [Desk.close, endState]
  cases hit : s.2.iterator i with
  | fresh | finished => exact F.quiet rfl rfl hleft id ⟨rfl, rfl, rfl, rfl, fun _ => id⟩
  | suspended =>
    have hmem := (H.suspended i).mp hit
    have hphase := (settle_onward s).phase (H.course.ne_ready_of_mem hmem)
    refine F.ended H (settle_onward s).memo (.inr hmem) rfl rfl hphase ?_
    rintro ⟨j, n, h⟩
    exact absurd h (hleft j n)

theorem Step.fits (h : Step s t) (H : InOrder start s) (F : Fits s) : Fits t := by
  have hreading := (advance_onward (begun s)).phase (begun_ne_ready s)
  cases h with
  | made | entered => exact F.quiet rfl rfl nofun id ⟨rfl, rfl, rfl, rfl, fun _ => id⟩
  | asked i => exact F.asked H i
  | closed i => exact F.closed H i
  | skipped n => exact F.note (skip_onward n s).memo nofun nofun
  | handed reads advance =>
    have hadvance := H.advance reads
    rw [advance] at hadvance
    exact F.gave hadvance.1 (gave_covered advance (getLast?_deliveries rfl _ _))
  | ended reads advance =>
    have hadvance := H.advance reads
    rw [advance] at hadvance hreading
    exact F.ended H hadvance.1 reads rfl rfl hreading
      fun _ => (begun_unread s).trans (ended_unread advance)
  | fell reads advance =>
    have hadvance := H.advance reads
    rw [advance] at hadvance
    exact F.ended H hadvance.1 reads rfl rfl Phase.failed_ne_ready nofun
  | enough reads =>
    have hphase := (settle_onward s).phase (H.course.ne_ready_of_mem reads)
    exact F.ended H (settle_onward s).memo (.inr reads) rfl rfl hphase fun _ => settle_unread s
  | stopped => exact F.quiet rfl rfl nofun nofun ⟨rfl, rfl, rfl, rfl, fun _ => id⟩

theorem steps_fits (h : Relation.ReflTransGen Step s t) (H : InOrder start s) (F : Fits s) :
    Fits t := by
  induction h with
  | refl => exact F
  | tail hsteps hstep ih => exact hstep.fits (steps_inOrder hsteps H) ih

end

/-- Whenever a shape was delivered or a run has come to a good end, nothing beyond the length that
the file header tells was taken, unless the record of the last delivery declares less than it has.
-/
theorem overrun_bounded {ε : Type} {feed : Feed ε} {e₀ rest : ε} {header : Header}
    (hheader : Header.read feed e₀ = .ok header rest) (source : σ) (warns : Bool) (c : Client) :
    let s := endState (c.exec chronicler (.start header.contentLength warns, .init source []))
    ∀ later e v earlier, s.2.memo = later ++ (e, v) :: earlier →
      noSkip ((e, v) :: earlier) = true → e.Succeeds → Covered ((e, v) :: earlier) v := by
  have hstart : Fits (.start header.contentLength warns, .init source ([] : Chronicle σ)) :=
    ⟨fun _ _ _ => .within (Header.contentLength_nonneg hheader),
      fun later e v earlier h => by cases later <;> cases h⟩
  exact (steps_fits (c.exec_used _).steps (start_inOrder source _ warns) hstart).past

/-- The header of a file that ends with the four bytes that `shortRecord` declares. -/
def shortHeader : Header := { sampleHeader with fileLength := 112 }

/-- A point takes twenty bytes, but this one declares four. -/
def shortRecord : StoredRecord := ⟨1, 2, .point ⟨⟨3⟩, ⟨4⟩⟩⟩

def wantAll : Client := .run (fun _ => .answer true) fun _ => .answer true

theorem shortHeader_read :
    Header.read Plain.read ⟨shortHeader.encode (List.replicate 20 0) ++ shortRecord.encode⟩ =
      .ok shortHeader ⟨shortRecord.encode⟩ :=
  Header.read_append _ ⟨by decide, by decide, by decide, by decide, by decide⟩ (by decide) rfl

/-- The point is delivered, and the run ends, sixteen bytes beyond the end of the file. -/
theorem wantAll_overruns :
    let s := endState (wantAll.exec chronicler
      (.start shortHeader.contentLength true, .init (⟨shortRecord.encode⟩ : Plain) []))
    s.2.memo.map (fun moment => (moment.1, moment.2.1.left)) =
      [(.left 0 (.ok 1), -16),
        (.handed 0 (.point ⟨⟨3⟩, ⟨4⟩⟩ (some 0) (some 1)), -16),
        (.entered 0 .ready, 12)] := rfl

theorem overrun_bounded_wantAll :
    ∃ h, ∃ v : View Plain, v.1.left = -16 ∧ Covered h v :=
  ⟨_, _, rfl, overrun_bounded shortHeader_read (⟨shortRecord.encode⟩ : Plain) true wantAll
    [] (.left 0 (.ok 1)) _ _ rfl rfl (.inr ⟨0, 1, rfl⟩)⟩

end Shapefile.Desk
