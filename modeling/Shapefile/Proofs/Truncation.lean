import Shapefile.Proofs.ClientSteps
import Shapefile.Proofs.Fieldwise
import Shapefile.Proofs.RoundTrip

/-! # Byte strings that are cut short

A reading of the first bytes of a byte string goes as the reading of all of it does, field by field,
until it needs a byte that is not there, and fails (`Desk.truncation_noticed`). Where fields end is
marked while all of the byte string is read. -/

namespace Shapefile

open Desk (outcome endState)

/-! ## Two runs of which one may run short -/

/-- The same fault, but for how many bytes there were in place of those that were asked for. -/
inductive Fault.SameKind : Fault → Fault → Prop where
  | refl (f : Fault) : SameKind f f
  | short (n : Int) (got got' : Nat) : SameKind (.wrongCount n got) (.wrongCount n got')

section
variable {τ α β : Type}

/-- What comes of the same with all the bytes and with the first ones: either goes on as the other
does, or the second has run short while the first has got ahead of it. -/
inductive Cut (InStep Ahead : τ → τ → Prop) :
    EStateM.Result Fault τ α → EStateM.Result Fault τ α → Prop where
  | ok {a : α} {s s' : τ} (step : InStep s s') : Cut InStep Ahead (.ok a s) (.ok a s')
  | error {f f' : Fault} {s s' : τ} (kind : f.SameKind f') (step : InStep s s') :
    Cut InStep Ahead (.error f s) (.error f' s')
  | short {r : EStateM.Result Fault τ α} {n : Int} {got : Nat} {s' : τ}
      (ahead : Ahead (endState r) s') : Cut InStep Ahead r (.error (.wrongCount n got) s')

/-- A computation that keeps in step until it runs short, and does not fall back once it is
ahead. -/
structure Truncates (InStep Ahead : τ → τ → Prop) (x : EStateM Fault τ α) : Prop where
  step : ∀ ⦃s s'⦄, InStep s s' → Cut InStep Ahead (x s) (x s')
  ahead : ∀ ⦃s s'⦄, Ahead s s' → Ahead (endState (x s)) s'

namespace Truncates

variable {InStep Ahead : τ → τ → Prop}

theorem pure (a : α) : Truncates InStep Ahead (pure a) := ⟨fun _ _ h => .ok h, fun _ _ h => h⟩

theorem throw (f : Fault) : Truncates InStep Ahead (throw f : EStateM Fault τ α) :=
  ⟨fun _ _ h => .error (.refl f) h, fun _ _ h => h⟩

theorem bind {x : EStateM Fault τ α} {f : α → EStateM Fault τ β} (hx : Truncates InStep Ahead x)
    (hf : ∀ a, Truncates InStep Ahead (f a)) : Truncates InStep Ahead (x >>= f) := by
  have hahead {s s' : τ} (h : Ahead (endState (x s)) s') : Ahead (endState ((x >>= f) s)) s' := by
    cases hxs : x s with
    | ok a t =>
      rw [hxs] at h
      rw [bind_of_ok hxs]
      exact (hf a).ahead h
    | error e t =>
      rw [hxs] at h
      rw [bind_of_error hxs]
      exact h
  refine ⟨fun s s' h => ?_, fun s s' h => hahead (hx.ahead h)⟩
  have hs := hx.step h
  cases hxs' : x s' with
  | ok a t' =>
    rw [hxs'] at hs
    rw [bind_of_ok hxs']
    cases hxs : x s with
    | ok a t =>
      rw [hxs] at hs
      cases hs with
      | ok step =>
        rw [bind_of_ok hxs]
        exact (hf _).step step
    | error e t =>
      rw [hxs] at hs
      cases hs
  | error e' t' =>
    rw [hxs'] at hs
    rw [bind_of_error hxs']
    generalize hr : x s = r at hs
    cases hs with
    | error kind step =>
      rw [bind_of_error hr]
      exact .error kind step
    | short ahead =>
      refine .short (hahead ?_)
      rw [hr]
      exact ahead

end Truncates
end

/-! ## Marking where fields end -/

/-- A source with the places where its fields end, the latest first: an answer that has as many
bytes as it was asked for is a field. -/
structure Tracked (σ : Type) where
  source : σ
  marks : List Nat

namespace Tracked

variable {σ : Type} [Source σ]

/-- Begins to mark where the source is. -/
def start (source : σ) : Tracked σ := ⟨source, [0]⟩

def read : Feed (Tracked σ) := fun n s =>
  match Source.read n s.source with
  | .ok data source =>
    .ok data ⟨source,
      if data.length = n then (s.marks.headD 0 + data.length) :: s.marks else s.marks⟩
  | .error f source => .error f { s with source }

instance : Source (Tracked σ) := ⟨read⟩

end Tracked

namespace Desk

variable {χ : Type}

/-- What is left of all the bytes at a desk. -/
def bytesLeft (d : Desk (Tracked Plain) χ) : Bytes := d.source.source.rest

/-- The desk with all the bytes and the one with the first `t` of them are at the same place. -/
structure InStep (t : Nat) (s s' : Meter × Desk (Tracked Plain) χ) : Prop where
  same : s' = (s.1, { s.2 with
    source := { s.2.source with source := ⟨s.2.bytesLeft.take (t - s.1.consumed)⟩ } })
  within : s.1.consumed ≤ t
  mark : s.2.source.marks.head? = some s.1.consumed
  marked : ∀ place ∈ s.2.source.marks, place ≤ s.1.consumed

/-- With the first `t` bytes the reading has stopped where the last field ends that lies within
them. With all the bytes it is beyond. -/
structure Ahead (t : Nat) (s s' : Meter × Desk (Tracked Plain) χ) : Prop where
  beyond : t < s.1.consumed
  mark : s.2.source.marks.head? = some s.1.consumed
  within : s'.1.consumed ≤ t
  boundary : s'.1.consumed ∈ s.2.source.marks
  greatest : ∀ place ∈ s.2.source.marks, place ≤ t → place ≤ s'.1.consumed

section
variable {m : Meter} {d : Desk (Tracked Plain) χ} {n t : Nat}

theorem read_enough (hmark : d.source.marks.head? = some m.consumed)
    (h : n ≤ d.bytesLeft.length) :
    Meter.read feed n (m, d) = .ok (d.bytesLeft.take n) (m.count n,
      { d with source := ⟨⟨d.bytesLeft.drop n⟩, (m.count n).consumed :: d.source.marks⟩ }) := by
  obtain ⟨⟨⟨bytes⟩, marks⟩, iterators, log, memo⟩ := d
  obtain ⟨a, rest, rfl, rfl⟩ := Bytes.exists_append h
  have hhead : marks.head?.getD 0 = m.consumed := congrArg (·.getD 0) hmark
  simp [Meter.read, feed, Source.read, Tracked.read, Plain.read, Bytes.cut_length_append, bytesLeft,
    hhead]

theorem read_tooShort (h : d.bytesLeft.length < n) :
    Meter.read feed n (m, d) = .error (.wrongCount n d.bytesLeft.length)
      (m, { d with source := { d.source with source := ⟨[]⟩ } }) := by
  obtain ⟨⟨⟨bytes⟩, marks⟩, iterators, log, memo⟩ := d
  have h : bytes.length < n := h
  have hn : ¬ ((bytes.length : Int) = n) := by omega
  simp [Meter.read, feed, Source.read, Tracked.read, Plain.read, Bytes.cut_short h, bytesLeft, hn]

/-- The desk that has only the first `t` bytes. -/
def shortened (t : Nat) (m : Meter) (d : Desk (Tracked Plain) χ) : Desk (Tracked Plain) χ :=
  { d with source := { d.source with source := ⟨d.bytesLeft.take (t - m.consumed)⟩ } }

/-- A field that lies within the first bytes is read alike. In any other the first bytes run
short. -/
theorem read_step {s' : Meter × Desk (Tracked Plain) χ} (H : InStep t (m, d) s') :
    Cut (InStep t) (Ahead t) (Meter.read feed n (m, d)) (Meter.read feed n s') := by
  have hwithin : m.consumed ≤ t := H.within
  have hmark : d.source.marks.head? = some m.consumed := H.mark
  have hmarked : ∀ place ∈ d.source.marks, place ≤ m.consumed := H.marked
  obtain rfl : s' = (m, shortened t m d) := H.same
  have hlength : (shortened t m d).bytesLeft.length = min (t - m.consumed) d.bytesLeft.length :=
    List.length_take
  by_cases hall : n ≤ d.bytesLeft.length
  · rw [read_enough hmark hall]
    by_cases hfits : m.consumed + n ≤ t
    · have hcut : Meter.read feed n (m, shortened t m d) = .ok (d.bytesLeft.take n)
          (m.count n, shortened t (m.count n) { d with
            source := ⟨⟨d.bytesLeft.drop n⟩, (m.count n).consumed :: d.source.marks⟩ }) := by
        refine (read_enough (d := shortened t m d) hmark (by omega)).trans ?_
        simp only [shortened, bytesLeft, List.take_take, List.drop_take, Nat.sub_sub,
          Nat.min_eq_left (show n ≤ t - m.consumed by omega), Meter.count_consumed]
      refine hcut ▸ .ok ⟨rfl, hfits, rfl, fun place hplace => ?_⟩
      rcases List.mem_cons.mp hplace with rfl | hplace
      · exact Nat.le_refl _
      · exact Nat.le_trans (hmarked place hplace) (Nat.le_add_right _ _)
    · have hcut := read_tooShort (m := m) (d := shortened t m d) (n := n) (by omega)
      refine hcut ▸ .short ⟨Nat.lt_of_not_le hfits, rfl, hwithin, ?_, fun place hplace hle => ?_⟩
      · exact List.mem_cons_of_mem _ (List.mem_of_mem_head? hmark)
      · rcases List.mem_cons.mp hplace with rfl | hplace
        · exact absurd hle hfits
        · exact hmarked place hplace
  · have hcut := read_tooShort (m := m) (d := shortened t m d) (n := n) (by omega)
    rw [read_tooShort (Nat.lt_of_not_le hall)]
    refine hcut ▸ .error (.short _ _ _) ⟨?_, hwithin, hmark, hmarked⟩
    simp [shortened, bytesLeft]

theorem read_ahead {s' : Meter × Desk (Tracked Plain) χ} (H : Ahead t (m, d) s') :
    Ahead t (endState (Meter.read feed n (m, d))) s' := by
  have hbeyond : t < m.consumed := H.beyond
  have hmark : d.source.marks.head? = some m.consumed := H.mark
  by_cases hall : n ≤ d.bytesLeft.length
  · rw [read_enough hmark hall]
    have hbeyond' : t < m.consumed + n := Nat.lt_of_lt_of_le hbeyond (Nat.le_add_right _ _)
    refine ⟨hbeyond', rfl, H.within, List.mem_cons_of_mem _ H.boundary, fun place hplace hle => ?_⟩
    rcases List.mem_cons.mp hplace with rfl | hplace
    · exact absurd hle (Nat.not_le_of_lt hbeyond')
    · exact H.greatest place hplace hle
  · rw [read_tooShort (Nat.lt_of_not_le hall)]
    exact ⟨hbeyond, hmark, H.within, H.boundary, H.greatest⟩

theorem truncates_of_fieldwise {α : Type} {x y : Metered (Desk (Tracked Plain) χ) α}
    (H : Fieldwise feed feed x y) (t : Nat) : Truncates (InStep t) (Ahead t) x := by
  induction H with
  | pure a => exact .pure a
  | throw f => exact .throw f
  | read n => exact ⟨fun _ _ => read_step, fun _ _ => read_ahead⟩
  | bind _ _ ihx ihf => exact ihx.bind ihf
  | @look α x _ _ ih =>
    refine ⟨fun s s' h => ?_, fun s s' h => (ih s.1).ahead h⟩
    have hmeter : s'.1 = s.1 := by rw [h.same]
    have hs' : (get >>= fun s => x s.1) s' = x s.1 s' := congrArg (fun m => x m s') hmeter
    exact hs' ▸ (ih s.1).step h

theorem record_read_truncates (objectId t : Nat) :
    Truncates (InStep t) (Ahead t) (Record.read (feed : Feed (Desk (Tracked Plain) χ)) objectId) :=
  truncates_of_fieldwise (Record.read_fieldwise feed feed objectId) t

end

/-! ## Readings -/

/-- The shapes that were handed over, each with the place where its record ends, the latest
first. -/
abbrev Ends := List (Shape × Nat)

/-- Takes note of every shape and of where its record ends, and wants all of them. -/
def marking {σ : Type} : Consumer σ Ends := fun shape (rd, d) =>
  .ok true (rd, { d with memo := (shape, rd.meter.consumed) :: d.memo })

structure ReadsInStep (t : Nat) (s s' : Reading × Desk (Tracked Plain) Ends) : Prop where
  reading : s'.1 = s.1
  desk : InStep t (s.1.meter, s.2) (s.1.meter, s'.2)
  ends : ∀ entry ∈ s.2.memo, entry.2 ≤ s.1.meter.consumed

/-- The reading that has stopped has handed over the shapes of which the records end within the
first `t` bytes. -/
structure ReadsAhead (t : Nat) (s s' : Reading × Desk (Tracked Plain) Ends) : Prop where
  desk : Ahead t (s.1.meter, s.2) (s'.1.meter, s'.2)
  failed : s'.1.phase = .failed
  kept : s'.2.memo = s.2.memo.filter fun entry => decide (entry.2 ≤ t)

section
variable {t : Nat}

theorem Ahead.congr {s u s' : Meter × Desk (Tracked Plain) χ} (H : Ahead t s s')
    (hmeter : u.1 = s.1) (hsource : u.2.source = s.2.source) : Ahead t u s' := by
  obtain ⟨hbeyond, hmark, hwithin, hboundary, hgreatest⟩ := H
  rw [← hmeter] at hbeyond hmark
  rw [← hsource] at hmark hboundary hgreatest
  exact ⟨hbeyond, hmark, hwithin, hboundary, hgreatest⟩

variable {s u s' : Reading × Desk (Tracked Plain) Ends}

theorem ReadsAhead.congr (H : ReadsAhead t s s') (hmeter : u.1.meter = s.1.meter)
    (hsource : u.2.source = s.2.source) (hmemo : u.2.memo = s.2.memo) : ReadsAhead t u s' :=
  ⟨H.desk.congr hmeter hsource, H.failed, hmemo ▸ H.kept⟩

/-- Reading a record leaves alone what the consumers have in mind. -/
theorem read_memo {σ χ : Type} [Source σ] (m : Meter) (d : Desk σ χ) (objectId : Nat) :
    (endState (Record.read feed objectId (m, d))).2.memo = d.memo := by
  rw [read_at_desk]
  cases Record.read Source.read objectId (m, d.source) <;> rfl

/-- What a reading comes to that reads a record. -/
theorem endState_advance {σ χ : Type} [Source σ] {rd : Reading} {d : Desk σ χ}
    (hleft : ¬ rd.left ≤ 0) :
    let e := endState (Reading.advance link (rd, d))
    let u := endState (Record.read feed rd.shapeCount (rd.meter, d))
    e.1.meter = u.1 ∧ e.2.source = u.2.source ∧ e.2.memo = d.memo := by
  rw [read_at_desk]
  cases hread : Record.read Source.read rd.shapeCount (rd.meter, d.source) with
  | ok record u =>
    rw [advance_of_read (Int.not_le.mp hleft) hread]
    exact ⟨rfl, rfl, rfl⟩
  | error f u =>
    rw [advance_of_fault (Int.not_le.mp hleft) hread]
    simp only [endState, mapState, Reading.settle]
    split
    · exact ⟨rfl, rfl, rfl⟩
    · split <;> exact ⟨rfl, rfl, rfl⟩

theorem marking_truncates (t : Nat) (shape : Shape) :
    Truncates (ReadsInStep t) (ReadsAhead t) (marking shape) := by
  refine ⟨?_, ?_⟩
  · rintro ⟨rd, d⟩ ⟨rd', d'⟩ ⟨hreading, ⟨hsame, hwithin, hmark, hmarked⟩, hends⟩
    obtain rfl : rd' = rd := hreading
    obtain rfl : d' = shortened t rd'.meter d := (Prod.mk.inj hsame).2
    refine .ok ⟨rfl, ⟨rfl, hwithin, hmark, hmarked⟩, fun entry hentry => ?_⟩
    rcases List.mem_cons.mp hentry with rfl | hentry
    · exact Nat.le_refl _
    · exact hends entry hentry
  · rintro ⟨rd, d⟩ s' H
    refine ⟨H.desk.congr rfl rfl, H.failed, ?_⟩
    rw [H.kept]
    have hbeyond : ¬ rd.meter.consumed ≤ t := Nat.not_le_of_lt H.desk.beyond
    simp [marking, endState, hbeyond]

/-- Two readings that are in step. -/
theorem ReadsInStep.cases (H : ReadsInStep t s s') :
    s' = (s.1, shortened t s.1.meter s.2) :=
  Prod.ext H.reading (Prod.mk.inj H.desk.same).2

/-- Counting moves the place on behind the records that were handed over. -/
theorem ReadsInStep.ends_of_count (H : ReadsInStep t s s') {m : Meter} {n : Nat}
    {d : Desk (Tracked Plain) Ends} (hcount : m = s.1.meter.count n) (hmemo : d.memo = s.2.memo) :
    ∀ entry ∈ d.memo, entry.2 ≤ m.consumed := by
  rw [hcount, hmemo]
  exact fun entry hentry => Nat.le_trans (H.ends entry hentry) (Nat.le_add_right _ _)

theorem settle_truncates (t : Nat) {s s' : Reading × Desk (Tracked Plain) Ends}
    (H : ReadsInStep t s s') :
    ReadsInStep t (Reading.settle link s) (Reading.settle link s') := by
  obtain rfl := H.cases
  obtain ⟨rd, d⟩ := s
  obtain ⟨-, ⟨-, hwithin, hmark, hmarked⟩, hends⟩ := H
  by_cases hphase : rd.phase = .reading
  · simp only [Reading.settle, if_pos hphase]
    exact ⟨rfl, ⟨rfl, hwithin, hmark, hmarked⟩, hends⟩
  · simp only [Reading.settle, if_neg hphase]
    exact ⟨rfl, ⟨rfl, hwithin, hmark, hmarked⟩, hends⟩

theorem endsFailed_kind {f f' : Fault} (H : f.SameKind f') :
    Reading.endsFailed f' = Reading.endsFailed f := by
  cases H <;> rfl

theorem warn_shortened (rd : Reading) (record : Record) (m : Meter)
    (d : Desk (Tracked Plain) χ) :
    Reading.warn link rd record (shortened t m d) =
      shortened t m (Reading.warn link rd record d) := by
  unfold Reading.warn
  split <;> rfl

theorem advance_step (H : ReadsInStep t s s') :
    Cut (ReadsInStep t) (ReadsAhead t) (Reading.advance link s) (Reading.advance link s') := by
  have hsettle := settle_truncates t H
  obtain rfl := H.cases
  obtain ⟨rd, d⟩ := s
  simp only at hsettle ⊢
  by_cases hleft : rd.left ≤ 0
  · rw [Reading.advance_of_left hleft, Reading.advance_of_left hleft]
    exact .ok hsettle
  have hfeed : (link : Link (Desk (Tracked Plain) Ends)).feed = feed := rfl
  have hread := (record_read_truncates rd.shapeCount t).step H.desk
  obtain ⟨n, hcount⟩ := Record.read_onlyCounts (feed (σ := Tracked Plain) (χ := Ends))
    rd.shapeCount (rd.meter, d)
  have hmemo := read_memo rd.meter d rd.shapeCount
  have hmemo' := read_memo rd.meter (shortened t rd.meter d) rd.shapeCount
  have hfull := endState_advance (d := d) hleft
  simp only [Reading.advance, if_neg hleft, hfeed] at hfull ⊢
  generalize Record.read feed rd.shapeCount (rd.meter, d) = r at hread hcount hmemo hfull ⊢
  generalize Record.read feed rd.shapeCount (rd.meter, shortened t rd.meter d) = r'
    at hread hmemo' ⊢
  cases hread with
  | @ok record u u' step =>
    obtain ⟨m, e⟩ := u
    obtain rfl : u' = (m, shortened t m e) := step.same
    obtain ⟨log, hwarn⟩ := warn_keeps rd record e
    simp only [warn_shortened, hwarn]
    exact .ok ⟨rfl, ⟨rfl, step.within, step.mark, step.marked⟩, H.ends_of_count hcount hmemo⟩
  | @error f f' u u' kind step =>
    obtain ⟨m, e⟩ := u
    obtain rfl : u' = (m, shortened t m e) := step.same
    have hin : ReadsInStep t ({ rd with meter := m }, e)
        ({ rd with meter := m }, shortened t m e) :=
      ⟨rfl, ⟨rfl, step.within, step.mark, step.marked⟩, H.ends_of_count hcount hmemo⟩
    simp only [endsFailed_kind kind]
    split
    · exact .error kind ⟨rfl, hin.desk, hin.ends⟩
    · exact .error kind (settle_truncates t hin)
  | @short r n got u' ahead =>
    obtain ⟨hmeter, hsource, hmemoFull⟩ := hfull
    refine .short ⟨ahead.congr hmeter hsource, rfl, ?_⟩
    have hall : d.memo.filter (fun entry => decide (entry.2 ≤ t)) = d.memo := by
      rw [List.filter_eq_self]
      exact fun entry hentry => decide_eq_true (Nat.le_trans (H.ends entry hentry) H.desk.within)
    rw [hmemoFull, hall]
    exact hmemo'

theorem advance_ahead (H : ReadsAhead t s s') :
    ReadsAhead t (endState (Reading.advance link s)) s' := by
  obtain ⟨rd, d⟩ := s
  by_cases hleft : rd.left ≤ 0
  · rw [Reading.advance_of_left hleft]
    simp only [endState, Reading.settle]
    split <;> exact H.congr rfl rfl rfl
  · obtain ⟨hmeter, hsource, hmemo⟩ := endState_advance (d := d) hleft
    have hread := (record_read_truncates rd.shapeCount t).ahead H.desk
    exact ⟨hread.congr hmeter hsource, H.failed, hmemo ▸ H.kept⟩

theorem deliver_marking (fuel : Nat) :
    Reading.deliver link marking (fuel + 1) .suspended = (do
      match ← Reading.advance link with
      | none => pure ()
      | some shape => do
        let _ ← marking shape
        Reading.deliver link (marking (σ := Tracked Plain)) fuel .suspended) := by
  refine (Reading.deliver_eq_bind link marking fuel .suspended).trans
    (congrArg _ (funext fun shape? => ?_))
  cases shape? <;> rfl

theorem deliver_truncates (t fuel : Nat) :
    Truncates (ReadsInStep t) (ReadsAhead t)
      (Reading.deliver link marking fuel .suspended) := by
  induction fuel with
  | zero => exact .pure ()
  | succ fuel ih =>
    rw [deliver_marking]
    refine .bind ⟨fun _ _ => advance_step, fun _ _ => advance_ahead⟩ fun shape? => ?_
    cases shape? with
    | none => exact .pure ()
    | some shape => exact (marking_truncates t shape).bind fun _ => ih

theorem concluded_cut {r r' : EStateM.Result Fault (Reading × Desk (Tracked Plain) Ends) Unit}
    (H : Cut (ReadsInStep t) (ReadsAhead t) r r') :
    Cut (ReadsInStep t) (ReadsAhead t) (concluded r) (concluded r') := by
  cases H with
  | @ok _ u u' step =>
    rw [concluded, concluded, step.reading]
    exact .ok step
  | @error f f' u u' kind step =>
    obtain rfl := step.cases
    exact .error kind ⟨rfl, step.desk, step.ends⟩
  | short ahead =>
    refine .short ⟨?_, rfl, ?_⟩
    · cases r <;> exact ahead.desk
    · cases r <;> exact ahead.kept

end

/-- A desk with a byte string on which the ends of fields are marked. -/
def trackedDesk (bytes : Bytes) : Desk (Tracked Plain) Ends := .init (Tracked.start ⟨bytes⟩) []

/-- Before anything is read, the two are in step. -/
theorem trackedDesk_inStep (bytes : Bytes) (t : Nat) (remaining : Option Int) :
    InStep t (.start remaining, trackedDesk bytes)
      (.start remaining, trackedDesk (bytes.take t)) := by
  refine ⟨rfl, Nat.zero_le t, rfl, fun place hplace => ?_⟩
  rw [List.mem_singleton.mp hplace]
  exact Nat.le_refl 0

theorem run_cut (budget : Int) (warns : Bool) (bytes : Bytes) (t : Nat) :
    Cut (ReadsInStep t) (ReadsAhead t) (run marking (.start budget warns, trackedDesk bytes))
      (run marking (.start budget warns, trackedDesk (bytes.take t))) := by
  have hstart : ReadsInStep t
      ({ Reading.start budget warns with phase := .reading }, trackedDesk bytes)
      ({ Reading.start budget warns with phase := .reading }, trackedDesk (bytes.take t)) :=
    ⟨rfl, trackedDesk_inStep bytes t budget, nofun⟩
  rw [run_eq_concluded, run_eq_concluded, Reading.deliver_fresh rfl, Reading.deliver_fresh rfl]
  exact concluded_cut ((deliver_truncates t _).step hstart)

end Desk
end Shapefile
