import Shapefile.Proofs.Asking
import Shapefile.Proofs.Overrun
import Shapefile.Proofs.RecordFailure

/-! # The account of the budget

As long as no client takes bytes out of the middle, what a reading has taken is what the delivered
records have, whatever they declare, and once the budget is used up nothing is read any more
(`Desk.budget_accounted`). How far the last record goes beyond the budget depends on where the
reading noticed: the loop looks before a record, and the declared length is looked at after its
header. -/

namespace Shapefile

namespace Desk

variable {σ χ : Type}

/-- The fault with which a reader comes to its end. -/
def Event.fault? : Event → Option Fault
  | asked _ _ (.error f) | left _ (.error f) => some f
  | _ => none

/-- How many shapes of a type were delivered. -/
def deliveredOf (type : ShapeType) (h : Chronicle σ) : Nat :=
  (deliveries (history h)).countP fun delivery => delivery.2.type? = some type

/-- What the delivered records have, their headers included. -/
def sizeDelivered (h : Chronicle σ) : Nat :=
  12 * deliveredOf .null h + 28 * deliveredOf .point h

/-- Nothing more is to be read: the budget is used up, or nobody is left who reads. -/
inductive Over (start : View σ) (h : Chronicle σ) : Prop where
  | spent (left : (latest start h).1.left ≤ 0)
  | deserted (begun : (latest start h).1.phase ≠ .ready) (active : active h = [])

/-- What an event does to the budget and the source. -/
inductive Turn [Source σ] (start : View σ) (earlier : Chronicle σ) (e : Event) (v : View σ) :
    Prop where
  /-- Nothing is read. -/
  | still (delivery : e.delivery? = none) (meter : v.1.meter = (latest start earlier).1.meter)
      (source : v.2.source = (latest start earlier).2.source)
  /-- A record is read and delivered. If it goes beyond the budget, it declares less than it has. -/
  | gave {before : View σ} {reader : Reader} {record : Record}
      (here : latest start earlier = before) (left : 0 < before.1.left)
      (delivery : e.delivery? = some (reader, record.shape))
      (read : Record.read feed before.1.shapeCount (before.1.meter, before.2) =
        .ok record (v.1.meter, { before.2 with source := v.2.source }))
      (overrun : v.1.left < 0 → record.header.contentLength < record.decoded ∧
        record.isMisdeclared = true)
  /-- A record fails, which is the last that is read. Before its shape type is read it goes beyond
  the budget by seven bytes at most. -/
  | fell {before : View σ} {f : Fault} {typeCode? : Option Int}
      (here : latest start earlier = before) (left : 0 < before.1.left)
      (delivery : e.delivery? = none) (fault : e.fault? = some f)
      (read : Record.Fails feed before.1.shapeCount (before.1.meter, before.2) typeCode? f
        (v.1.meter, { before.2 with source := v.2.source }))
      (early : typeCode? = none → -7 ≤ v.1.left) (ended : Over start ((e, v) :: earlier))

/-- What holds of an event right after which the view is `v`. -/
structure Accounted [Source σ] (budget : Int) (start : View σ) (e : Event) (v : View σ)
    (earlier : Chronicle σ) : Prop where
  turn : Turn start earlier e v
  remaining : v.1.meter.remaining = some (budget - v.1.meter.consumed)
  delivered : e.delivery? ≠ none → v.1.meter.consumed = sizeDelivered ((e, v) :: earlier)
  bounded : 0 < budget → -20 ≤ v.1.left
  /-- Nothing was read or delivered since a moment, be it the start, after which nothing is to be
  read. So something was left of the budget at every moment before a delivery. -/
  ended : ∀ h, h <:+ earlier → Over start h → e.delivery? = none ∧
    v.1.meter = (latest start h).1.meter ∧ v.2.source = (latest start h).2.source

/-- Nothing is left to read, or nobody to read it. -/
def Idle (s : State σ) : Prop := s.1.left ≤ 0 ∨ ∀ reader, ¬ Reads reader s

/-- What is known of the budget while no client takes bytes out of the middle. -/
structure Tally (budget : Int) (start : View σ) (s : State σ) : Prop where
  remaining : s.1.meter.remaining = some (budget - s.1.meter.consumed)
  taken : ∀ reader, Reads reader s → s.1.meter.consumed = sizeDelivered s.2.memo
  bounded : 0 < budget → -20 ≤ s.1.left
  ended : ∀ h, h <:+ s.2.memo → Over start h → Idle s ∧
    s.1.meter = (latest start h).1.meter ∧ s.2.source = (latest start h).2.source

structure Ledger [Source σ] (budget : Int) (start : View σ) (s : State σ) : Prop where
  now : noSkip s.2.memo = true → Tally budget start s
  past : ∀ later e v earlier, s.2.memo = later ++ (e, v) :: earlier →
    noSkip ((e, v) :: earlier) = true → Accounted budget start e v earlier

/-! ## Reading a record -/

theorem left_of_remaining {rd : Reading} {left : Int} (h : rd.meter.remaining = some left) :
    rd.left = left := by
  rw [Reading.left, Meter.left, h, Option.getD_some]

theorem begun_keeps (s : Reading × Desk σ χ) :
    ∃ phase, begun s = ({ s.1 with phase }, s.2) := by
  obtain ⟨rd, d⟩ := s
  by_cases h : rd.phase = .ready
  · exact ⟨_, begun_of_ready h⟩
  · exact ⟨rd.phase, begun_of_ne h⟩

section
variable [Source σ] {s t : Reading × Desk σ χ}

theorem settle_keeps (s : Reading × Desk σ χ) :
    (Reading.settle link s).1.meter = s.1.meter ∧
      (Reading.settle link s).2.source = s.2.source := by
  obtain ⟨rd, d⟩ := s
  simp only [Reading.settle]
  split <;> exact ⟨rfl, rfl⟩

/-- A record is read alike whatever the consumers have in mind, and of the desk only the source is
touched. -/
theorem read_view (s : Reading × Desk σ χ) (objectId : Nat) :
    Record.read feed objectId (s.1.meter, (view s).2) =
      mapState (fun t => (t.1, { (view s).2 with source := t.2.source }))
        (Record.read feed objectId (s.1.meter, s.2)) := by
  have hsource : (view s).2.source = s.2.source := rfl
  rw [read_at_desk, read_at_desk, hsource]
  cases Record.read Source.read objectId (s.1.meter, s.2.source) <;> rfl

theorem read_of_gave {shape : Shape}
    (h : Reading.advance link (begun s) = .ok (some shape) t) :
    0 < s.1.left ∧ ∃ record, shape = record.shape ∧
      Record.read feed s.1.shapeCount (s.1.meter, (view s).2) =
        .ok record (t.1.meter, { (view s).2 with source := t.2.source }) := by
  obtain ⟨phase, hbegun⟩ := begun_keeps s
  rw [hbegun] at h
  have hleft := (Reading.gave_of_advance h).left
  have hs := advance_continued { s.1 with phase } s.2
  rw [h] at hs
  cases hs with
  | @gave record meter source left read =>
    obtain ⟨log, hwarn⟩ := warn_keeps { s.1 with phase } record { s.2 with source }
    refine ⟨hleft, record, rfl, ?_⟩
    refine (read_at_desk _ _ _).trans ((congrArg (mapState _) read).trans ?_)
    rw [hwarn]
    rfl

theorem read_of_fell {f : Fault} (h : Reading.advance link (begun s) = .error f t) :
    0 < s.1.left ∧ ∃ typeCode?,
      Record.Fails feed s.1.shapeCount (s.1.meter, (view s).2) typeCode? f
        (t.1.meter, { (view s).2 with source := t.2.source }) := by
  obtain ⟨phase, hbegun⟩ := begun_keeps s
  rw [hbegun] at h
  obtain ⟨hleft, meter, e, hread, rfl⟩ := Reading.failure_of_advance h
  refine ⟨hleft, Record.fails_of_read ?_⟩
  rw [read_view]
  refine (congrArg (mapState _) hread).trans ?_
  by_cases hends : Reading.endsFailed f = true
  · rw [if_pos hends]
    rfl
  · obtain ⟨hmeter, hsource⟩ := settle_keeps ({ s.1 with phase, meter }, e)
    rw [if_neg hends, hmeter, hsource]
    rfl

theorem ended_still (h : Reading.advance link (begun s) = .ok none t) :
    t.1.meter = s.1.meter ∧ t.2.source = s.2.source := by
  obtain ⟨phase, hbegun⟩ := begun_keeps s
  rw [hbegun] at h
  rw [Reading.settle_of_advance h]
  exact settle_keeps ({ s.1 with phase }, s.2)

end

/-! ## Turns -/

namespace Turn

variable [Source σ] {start v : View σ} {earlier : Chronicle σ} {e : Event} {s t : State σ}

theorem of_gave {shape : Shape} {reader : Reader} (hhere : view s = latest start earlier)
    (h : Reading.advance link (begun s) = .ok (some shape) t)
    (hdelivery : e.delivery? = some (reader, shape)) (hmeter : v.1.meter = t.1.meter)
    (hsource : v.2.source = t.2.source) : Turn start earlier e v := by
  obtain ⟨hleft, record, rfl, hread⟩ := read_of_gave h
  rw [← hmeter, ← hsource] at hread
  refine .gave hhere.symm hleft hdelivery hread fun hended => ?_
  obtain ⟨hcount, -, -, hfits⟩ := Record.read_takes hread
  have hpos : 0 < s.1.meter.left := hleft
  have hended : v.1.meter.left < 0 := hended
  rw [show v.1.meter = _ from hcount, Meter.left_count_of_pos hpos] at hended
  rw [Meter.left_count_of_pos hpos] at hfits
  have hless : record.header.contentLength < record.decoded := by omega
  exact ⟨hless, bne_iff_ne.mpr (Int.ne_of_gt hless)⟩

theorem of_fell {f : Fault} (hhere : view s = latest start earlier)
    (h : Reading.advance link (begun s) = .error f t) (hdelivery : e.delivery? = none)
    (hfault : e.fault? = some f) (hmeter : v.1.meter = t.1.meter)
    (hsource : v.2.source = t.2.source) (hended : Over start ((e, v) :: earlier)) :
    Turn start earlier e v := by
  obtain ⟨hleft, typeCode?, hfails⟩ := read_of_fell h
  rw [← hmeter, ← hsource] at hfails
  refine .fell hhere.symm hleft hdelivery hfault hfails ?_ hended
  rintro rfl
  obtain ⟨n, hn, hcount⟩ := hfails.took
  have hpos : 0 < s.1.meter.left := hleft
  have hn : n ≤ 8 := by
    simp only [Option.isNone_none, if_true, List.mem_cons, List.not_mem_nil, or_false] at hn
    omega
  have hleft' : v.1.left = s.1.meter.left - n := by
    rw [Reading.left, show v.1.meter = _ from hcount, Meter.left_count_of_pos hpos]
  omega

/-- Whatever is read is taken off the budget. Of a budget that is not used up, it leaves twenty
bytes too few at worst. -/
theorem counts (H : Turn start earlier e v) :
    ∃ n : Nat, v.1.meter = (latest start earlier).1.meter.count n ∧
      (n = 0 ∨ 0 < (latest start earlier).1.left ∧ -20 ≤ (latest start earlier).1.left - n) := by
  cases H with
  | still _ meter => exact ⟨0, by rw [meter, Meter.count_zero], .inl rfl⟩
  | @gave before _ record here left _ read =>
    obtain ⟨hmeter, hdecoded, hfits⟩ := Record.read_takes read
    have hroom : 0 ≤ before.1.meter.left - 8 :=
      Int.le_trans hfits.1 (Meter.left_count_of_pos left 8 ▸ hfits.2)
    have hleft : -20 ≤ before.1.left - (8 + record.decoded : Nat) := by
      simp only [Reading.left]
      omega
    exact here ▸ ⟨_, hmeter, .inr ⟨left, hleft⟩⟩
  | @fell before _ _ here left _ _ read =>
    obtain ⟨n, hn, hmeter⟩ := read.took
    have hleft : -20 ≤ before.1.left - n := by
      split at hn <;> simp only [List.mem_cons, List.not_mem_nil, or_false] at hn <;> omega
    exact here ▸ ⟨n, hmeter, .inr ⟨left, hleft⟩⟩

end Turn

/-! ## Steps -/

section
variable {e : Event} {v : View σ} {h : Chronicle σ}

theorem sizeDelivered_of_silent (hdelivery : e.delivery? = none) :
    sizeDelivered ((e, v) :: h) = sizeDelivered h := by
  simp only [sizeDelivered, deliveredOf, history_cons, deliveries_cons, hdelivery,
    Option.toList_none, List.append_nil]

theorem sizeDelivered_of_delivery {reader : Reader} {c : Content} {objectId number : Option Int}
    (hdelivery : e.delivery? = some (reader, c.shape objectId number)) :
    sizeDelivered ((e, v) :: h) = sizeDelivered h + (8 + c.size) := by
  simp only [sizeDelivered, deliveredOf, history_cons, deliveries_cons, hdelivery,
    Option.toList_some, List.countP_append, List.countP_singleton, Content.type?_shape]
  cases c <;> simp [Content.type, Content.size] <;> omega

end

/-- A turn of the reading, and who reads before and after it: a reader that reads on after an event
at which nothing was delivered did so before, and nothing was read at the event. -/
structure Turned [Source σ] (start : View σ) (s : State σ) (e : Event) (t : State σ) : Prop where
  turn : Turn start s.2.memo e (view t)
  reads : (∃ reader, Reads reader s) ∨
    e.delivery? = none ∧ t.1.meter = s.1.meter ∧ t.2.source = s.2.source
  silent : e.delivery? = none → ∀ reader, Reads reader (note e t) →
    Reads reader s ∧ t.1.meter = s.1.meter

section
variable [Source σ] {budget : Int} {start : View σ} {s t : State σ} {e : Event}

/-- Where nothing is left to read or nobody to read it, it remains so. -/
theorem Turned.idle (h : Turned start s e t) (hhere : view s = latest start s.2.memo)
    (H : Idle s) : Idle (note e t) ∧
      e.delivery? = none ∧ t.1.meter = s.1.meter ∧ t.2.source = s.2.source := by
  have hstill : e.delivery? = none ∧ t.1.meter = s.1.meter ∧ t.2.source = s.2.source := by
    rcases h.reads with ⟨reader, hreads⟩ | hstill
    · have hleft : (latest start s.2.memo).1.left ≤ 0 :=
        hhere ▸ H.resolve_right fun h => h reader hreads
      cases h.turn with
      | still delivery meter source =>
        rw [← hhere] at meter source
        exact ⟨delivery, meter, source⟩
      | gave here left | fell here left =>
        rw [here] at hleft
        omega
    · exact hstill
  refine ⟨H.imp (fun hleft => ?_) fun hnone reader hreads => ?_, hstill⟩
  · rw [← show t.1.left = s.1.left from congrArg Meter.left hstill.2.1] at hleft
    exact hleft
  · exact hnone reader (h.silent hstill.1 reader hreads).1

namespace Tally

/-- A reader that is to read on has left nothing that was read undelivered. -/
theorem delivered (T : Tally budget start s) (hhere : view s = latest start s.2.memo)
    (h : Turned start s e t) (hdelivery : e.delivery? ≠ none) :
    t.1.meter.consumed = sizeDelivered ((e, view t) :: s.2.memo) := by
  obtain ⟨reader, hreads⟩ := h.reads.resolve_right fun hstill => hdelivery hstill.1
  cases h.turn with
  | still delivery | fell _ _ delivery => exact absurd delivery hdelivery
  | @gave _ _ record here left delivery read =>
    obtain ⟨c, hshape, -, hmeter⟩ := Record.read_content read
    rw [hshape] at delivery
    rw [← here, ← hhere] at hmeter
    rw [sizeDelivered_of_delivery delivery, ← T.taken reader hreads,
      show t.1.meter = _ from hmeter]
    rfl

theorem over_turn (T : Tally budget start s) (hhere : view s = latest start s.2.memo)
    (h : Turned start s e t) {h' : Chronicle σ} (hsuffix : h' <:+ s.2.memo)
    (hended : Over start h') : Idle (Desk.note e t) ∧ e.delivery? = none ∧
      t.1.meter = (latest start h').1.meter ∧ t.2.source = (latest start h').2.source := by
  obtain ⟨hidle, hmeter, hsource⟩ := T.ended h' hsuffix hended
  obtain ⟨hidle', hdelivery, hmeter', hsource'⟩ := h.idle hhere hidle
  exact ⟨hidle', hdelivery, hmeter'.trans hmeter, hsource'.trans hsource⟩

theorem note (T : Tally budget start s) (hhere : view s = latest start s.2.memo)
    (h : Turned start s e t) (hmemo : t.2.memo = s.2.memo) :
    Tally budget start (Desk.note e t) := by
  have hnote : (Desk.note e t).2.memo = (e, view t) :: s.2.memo := by rw [note_memo, hmemo]
  have hdelivered := T.delivered hhere h
  obtain ⟨n, hmeter, hn⟩ := h.turn.counts
  rw [← hhere] at hmeter hn
  have hconsumed : t.1.meter.consumed = s.1.meter.consumed + n := congrArg Meter.consumed hmeter
  have hremaining : t.1.meter.remaining = some (budget - t.1.meter.consumed) := by
    rw [hconsumed, show t.1.meter = _ from hmeter, Meter.count, show (view s).1 = s.1 from rfl,
      T.remaining, Option.map_some, Int.natCast_add, Int.sub_sub]
  refine ⟨hremaining, fun reader hreads => ?_, fun hbudget => ?_, fun h' hsuffix hended => ?_⟩
  · rw [hnote]
    by_cases hdelivery : e.delivery? = none
    · obtain ⟨hreads, hmeter⟩ := h.silent hdelivery reader hreads
      rw [sizeDelivered_of_silent hdelivery, ← T.taken reader hreads, ← hmeter]
      rfl
    · exact hdelivered hdelivery
  · have hbounded := T.bounded hbudget
    have hleft : (Desk.note e t).1.left = budget - t.1.meter.consumed :=
      left_of_remaining hremaining
    have hbefore : (view s).1.left = budget - s.1.meter.consumed := left_of_remaining T.remaining
    rw [left_of_remaining T.remaining] at hbounded
    omega
  · rw [hnote] at hsuffix
    rcases List.suffix_cons_iff.mp hsuffix with rfl | hsuffix
    · refine ⟨?_, rfl, rfl⟩
      cases hended with
      | spent left => exact .inl left
      | deserted begun active =>
        refine .inr fun reader hreads => ?_
        have hmem := hreads.resolve_left begun
        rw [hnote, active] at hmem
        cases hmem
    · obtain ⟨hidle, -, hsame⟩ := T.over_turn hhere h hsuffix hended
      exact ⟨hidle, hsame⟩

end Tally

namespace Ledger

theorem note (L : Ledger budget start s) (H : InOrder start s) (hmemo : t.2.memo = s.2.memo)
    (hturned : e.isSkip = false → Turned start s e t) :
    Ledger budget start (Desk.note e t) := by
  have hnote : (Desk.note e t).2.memo = (e, view t) :: s.2.memo := by rw [note_memo, hmemo]
  refine ⟨fun hskip => ?_, fun later e' v earlier h hskip => ?_⟩
  · rw [hnote, noSkip_cons] at hskip
    exact (L.now hskip.2).note H.here (hturned hskip.1) hmemo
  · rw [hnote] at h
    cases later with
    | nil =>
      cases h
      rw [noSkip_cons] at hskip
      have T := L.now hskip.2
      have h := hturned hskip.1
      have T' := T.note H.here h hmemo
      exact ⟨h.turn, T'.remaining, T.delivered H.here h, T'.bounded,
        fun h' hsuffix hended => (T.over_turn H.here h hsuffix hended).2⟩
    | cons moment later =>
      rw [List.cons_append, List.cons.injEq] at h
      exact L.past later e' v earlier h.2 hskip

/-- An event at which nothing is read and nobody comes to an end. -/
theorem quiet (L : Ledger budget start s) (H : InOrder start s) (hmemo : t.2.memo = s.2.memo)
    (hdelivery : e.delivery? = none) (hphase : t.1.phase = .ready → s.1.phase = .ready)
    (hmeter : t.1.meter = s.1.meter) (hsource : t.2.source = s.2.source) :
    Ledger budget start (Desk.note e t) := by
  refine L.note H hmemo fun _ =>
    ⟨.still hdelivery ?_ ?_, .inr ⟨hdelivery, hmeter, hsource⟩, fun _ reader hreads => ?_⟩
  · exact H.here ▸ hmeter
  · exact H.here ▸ hsource
  · refine ⟨hreads.imp hphase fun hmem => ?_, hmeter⟩
    rw [note_memo, hmemo] at hmem
    exact mem_active_of_silent hdelivery hmem

/-- A reader comes to its end. -/
theorem ended (L : Ledger budget start s) (H : InOrder start s) (hmemo : t.2.memo = s.2.memo)
    {reader : Reader} (hreads : Reads reader s) (hreader : e.reader? = some reader)
    (hdelivery : e.delivery? = none) (hphase : t.1.phase ≠ .ready)
    (hturn : Over start ((e, view t) :: s.2.memo) → Turn start s.2.memo e (view t)) :
    Ledger budget start (Desk.note e t) := by
  have hactive := active_ended H.course hreads hreader hdelivery (view t)
  refine L.note H hmemo fun _ =>
    ⟨hturn (.deserted hphase hactive), .inl ⟨reader, hreads⟩, fun _ reader' h => ?_⟩
  refine absurd (h.resolve_left hphase) ?_
  rw [note_memo, hmemo, hactive]
  exact List.not_mem_nil

/-- A reader is given a shape. -/
theorem gave (L : Ledger budget start s) (H : InOrder start s) (hmemo : t.2.memo = s.2.memo)
    {reader : Reader} {shape : Shape} (hreads : Reads reader s)
    (hdelivery : e.delivery? = some (reader, shape)) (hturn : Turn start s.2.memo e (view t)) :
    Ledger budget start (Desk.note e t) := by
  refine L.note H hmemo fun _ => ⟨hturn, .inl ⟨reader, hreads⟩, fun h => ?_⟩
  rw [hdelivery] at h
  cases h

/-- A reader comes to its end without anything being read. -/
theorem settled (L : Ledger budget start s) (H : InOrder start s) (hmemo : t.2.memo = s.2.memo)
    {reader : Reader} (hreads : Reads reader s) (hreader : e.reader? = some reader)
    (hdelivery : e.delivery? = none) (hphase : t.1.phase ≠ .ready)
    (hstill : t.1.meter = s.1.meter ∧ t.2.source = s.2.source) :
    Ledger budget start (Desk.note e t) :=
  L.ended H hmemo hreads hreader hdelivery hphase fun _ =>
    .still hdelivery (H.here ▸ hstill.1) (H.here ▸ hstill.2)

end Ledger
end

section
variable [Source σ] {budget : Int} {start : View σ} {s t : State σ}

theorem Ledger.asked (L : Ledger budget start s) (H : InOrder start s) (i : Nat) :
    Ledger budget start
      (Desk.note (.asked i s.1.phase (outcome (Desk.next i s))) (endState (Desk.next i s))) := by
  have hasked := H.asked_cases i
  generalize Desk.next i s = r at hasked
  have hreading := (advance_onward (begun s)).phase (begun_ne_ready s)
  cases hasked with
  | gave reads _ advance =>
    have hadvance := H.advance reads
    rw [advance] at hadvance
    exact L.gave H hadvance.1 reads rfl (.of_gave H.here advance rfl rfl rfl)
  | ended reads advance =>
    have hadvance := H.advance reads
    rw [advance] at hadvance hreading
    obtain ⟨hmeter, hsource⟩ := ended_still advance
    exact L.settled H hadvance.1 reads rfl rfl hreading ⟨hmeter, hsource⟩
  | fell reads advance =>
    have hadvance := H.advance reads
    rw [advance] at hadvance hreading
    exact L.ended H hadvance.1 reads rfl rfl hreading (.of_fell H.here advance rfl rfl rfl rfl)
  | nothing | refused => exact L.quiet H rfl rfl id rfl rfl

theorem Ledger.closed (L : Ledger budget start s) (H : InOrder start s) (i : Nat) :
    Ledger budget start (Desk.note (.closed i) (endState (Desk.close i s))) := by
  simp only [Desk.close, endState]
  cases hit : s.2.iterator i with
  | fresh | finished => exact L.quiet H rfl rfl id rfl rfl
  | suspended =>
    have hmem := (H.suspended i).mp hit
    have hphase := (settle_onward s).phase (H.course.ne_ready_of_mem hmem)
    exact L.settled H (settle_onward s).memo (.inr hmem) rfl rfl hphase (settle_keeps s)

theorem Step.ledger (h : Step s t) (H : InOrder start s) (L : Ledger budget start s) :
    Ledger budget start t := by
  have hreading := (advance_onward (begun s)).phase (begun_ne_ready s)
  cases h with
  | made | entered => exact L.quiet H rfl rfl id rfl rfl
  | asked i => exact L.asked H i
  | closed i => exact L.closed H i
  | skipped n => exact L.note H (skip_onward n s).memo nofun
  | handed reads advance =>
    have hadvance := H.advance reads
    rw [advance] at hadvance
    exact L.gave H hadvance.1 reads rfl (.of_gave H.here advance rfl rfl rfl)
  | ended reads advance =>
    have hadvance := H.advance reads
    rw [advance] at hadvance hreading
    exact L.settled H hadvance.1 reads rfl rfl hreading (ended_still advance)
  | fell reads advance =>
    have hadvance := H.advance reads
    rw [advance] at hadvance
    exact L.ended H hadvance.1 reads rfl rfl Phase.failed_ne_ready
      (.of_fell H.here advance rfl rfl rfl rfl)
  | enough reads =>
    have hphase := (settle_onward s).phase (H.course.ne_ready_of_mem reads)
    exact L.settled H (settle_onward s).memo (.inr reads) rfl rfl hphase (settle_keeps s)
  | stopped => exact L.quiet H rfl rfl nofun rfl rfl

theorem steps_ledger (h : Relation.ReflTransGen Step s t) (H : InOrder start s)
    (L : Ledger budget start s) : Ledger budget start t := by
  induction h with
  | refl => exact L
  | tail hsteps hstep ih => exact hstep.ledger (steps_inOrder hsteps H) ih

theorem start_ledger (source : σ) (budget : Int) (warns : Bool) :
    Ledger budget (.start budget warns, .init source ())
      (.start budget warns, .init source ([] : Chronicle σ)) := by
  have hleft : (Reading.start budget warns).left = budget := left_of_remaining rfl
  refine ⟨fun _ => ⟨?_, fun _ _ => rfl, fun hbudget => ?_, fun h hsuffix hended => ?_⟩,
    fun later e v earlier h => by cases later <;> cases h⟩
  · exact congrArg some (Int.sub_zero budget).symm
  · rw [hleft]
    omega
  · obtain rfl := List.suffix_nil.mp hsuffix
    refine ⟨?_, rfl, rfl⟩
    cases hended with
    | spent left => exact .inl left
    | deserted begun => exact absurd rfl begun

end

/-- A reading of a budget that is used up from the start is done once it is asked for shapes. -/
theorem advance_of_empty [Source σ] {budget : Int} (h : budget ≤ 0) (warns : Bool) (d : Desk σ χ) :
    Reading.advance link ({ Reading.start budget warns with phase := .reading }, d) =
      .ok none ({ Reading.start budget warns with phase := .done },
        { d with log := .totals 0 budget :: d.log }) := Reading.advance_of_left h

/-- Whatever clients do that take no bytes out of the middle, every event is accounted for. Of a
budget that is used up from the start a run makes nothing, and so does an iterator. That a budget
is overdrawn by twenty bytes, which is the most there can be, does happen. -/
theorem budget_accounted [Source σ] (source : σ) (budget : Int) (warns : Bool) (c : Client) :
    let start : View σ := (.start budget warns, .init source ())
    let s := endState (c.exec chronicler (.start budget warns, .init source []))
    (∀ later e v earlier, s.2.memo = later ++ (e, v) :: earlier →
      noSkip ((e, v) :: earlier) = true → Accounted budget start e v earlier) ∧
    (budget ≤ 0 → ∀ (consumer : Consumer σ χ) (d : Desk σ χ),
      let done := ({ Reading.start budget warns with phase := .done },
        { d with log := .totals 0 budget :: d.log })
      Desk.run consumer (.start budget warns, d) = .ok 0 done ∧
        Reading.Iterator.fresh.next link (.start budget warns, d) = .ok none done) ∧
    ∃ bytes : Bytes,
      (endState (Desk.run Reading.wantAll
        (.start 8 warns, .init (⟨bytes⟩ : Plain) ()))).1.left = -20 := by
  refine ⟨?_, fun hbudget consumer d => ⟨?_, ?_⟩, ?_⟩
  · exact (steps_ledger (c.exec_used _).steps (start_inOrder source _ warns)
      (start_ledger source budget warns)).past
  · have hend : Reading.deliver link consumer (budget.toNat + 1) .fresh
        (.start budget warns, d) = .ok () _ :=
      (Reading.deliver_fresh rfl).trans
        (Reading.deliver_of_end (advance_of_empty hbudget warns d))
    exact Reading.run_of_ok hend
  · exact advance_of_empty hbudget warns d
  · exact ⟨StoredRecord.encode ⟨1, 0, .point ⟨⟨3⟩, ⟨4⟩⟩⟩, by cases warns <;> rfl⟩

end Desk
end Shapefile
