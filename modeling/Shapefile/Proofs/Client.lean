import Shapefile.Proofs.Advance
import Shapefile.Proofs.History

/-! # Clients of a reading

A client uses a reading in every way there is: it makes iterators, asks and closes them, runs
consumers that are clients themselves, and takes bytes out of the middle. What is recorded of this
is up to the setting (`Client.exec`), and what every step keeps, every client keeps
(`Client.exec_keeps`). `Desk.Inv` is what is known of the reading from the history, and every event
keeps it. -/

namespace Shapefile.Desk

variable {σ χ : Type}

/-- Code that uses a reading. It goes on with what comes of each step, faults included, and knows
all that happened so far; a consumer ends with an answer or a fault. -/
inductive Client where
  | answer (more : Bool)
  | fail (f : Fault)
  | remember (k : History → Client)
  | iterate (k : Nat → Client)
  | next (i : Nat) (k : Except Fault (Option Shape) → Client)
  | close (i : Nat) (k : Client)
  | skip (n : Int) (k : Except Fault Bytes → Client)
  | run (consumer : Shape → Client) (k : Except Fault Nat → Client)

def outcome {τ α : Type} : EStateM.Result Fault τ α → Except Fault α
  | .ok a _ => .ok a
  | .error f _ => .error f

def endState {τ α : Type} : EStateM.Result Fault τ α → τ
  | .ok _ s => s
  | .error _ s => s

theorem outcome_alike {τ υ α : Type} {R : τ → υ → Prop} {r : EStateM.Result Fault τ α}
    {r' : EStateM.Result Fault υ α} (h : Alike R r r') : outcome r' = outcome r := by
  cases h <;> rfl

theorem endState_alike {τ υ α : Type} {R : τ → υ → Prop} {r : EStateM.Result Fault τ α}
    {r' : EStateM.Result Fault υ α} (h : Alike R r r') : R (endState r) (endState r') := by
  cases h <;> assumption

/-! ## Settings -/

/-- A reading and its desk, without what the consumers have in mind. -/
abbrev View (σ : Type) := Reading × Desk σ Unit

def view (s : Reading × Desk σ χ) : View σ := (s.1, { s.2 with memo := () })

/-- The setting in which a client uses a reading: what is put on record of it, and what else is
there between the client and the reading. -/
structure Setting (σ χ : Type) where
  /-- What the record tells the client. -/
  history : χ → History
  /-- Records an event, with the view right after it. -/
  event : Event → View σ → χ → χ
  /-- Records what the consumer of a run answers. -/
  answer : (j : Nat) → (more : Bool) → View σ → χ → χ := fun _ _ _ memo => memo
  /-- What comes to pass before each step and answer of the client. -/
  meanwhile : Reading × Desk σ χ → Reading × Desk σ χ := id
  /-- What the client is told of an iterator or a run. -/
  hears : {α : Type} → Except Fault α → Except Fault α := id

namespace Setting

variable (S : Setting σ χ)

def note (e : Event) (s : Reading × Desk σ χ) : Reading × Desk σ χ :=
  (s.1, { s.2 with memo := S.event e (view s) s.2.memo })

def answered (j : Nat) (more : Bool) (s : Reading × Desk σ χ) : Reading × Desk σ χ :=
  (s.1, { s.2 with memo := S.answer j more (view s) s.2.memo })

/-- Hands the shapes of a run to a consumer. -/
def handing (j : Nat) (x : Shape → Action σ χ Bool) : Consumer σ χ := fun shape s =>
  match x shape (S.note (.handed j shape) s) with
  | .ok more t => .ok more (S.answered j more t)
  | .error f t => .error f t

section
variable {S : Setting σ χ} {j : Nat} {x : Shape → Action σ χ Bool} {shape : Shape}
  {s t : Reading × Desk σ χ}

theorem handing_ok {more : Bool} (h : x shape (S.note (.handed j shape) s) = .ok more t) :
    S.handing j x shape s = .ok more (S.answered j more t) := by
  simp only [handing, h]

theorem handing_error {f : Fault} (h : x shape (S.note (.handed j shape) s) = .error f t) :
    S.handing j x shape s = .error f t := by
  simp only [handing, h]

/-- Where no answers are recorded, the consumer is handed the shapes and no more. -/
theorem handing_of_silent (h : ∀ j more v memo, S.answer j more v memo = memo) :
    S.handing j x shape s = x shape (S.note (.handed j shape) s) := by
  cases hx : x shape (S.note (.handed j shape) s) with
  | ok more t =>
    rw [handing_ok hx, answered, h]
  | error f t => exact handing_error hx

end

end Setting

/-- What a client does in a setting. -/
def Client.exec [Source σ] (S : Setting σ χ) : Client → Action σ χ Bool
  | answer more => fun s => .ok more (S.meanwhile s)
  | fail f => fun s => .error f (S.meanwhile s)
  | remember k => fun s => (k (S.history s.2.memo)).exec S s
  | iterate k => fun s =>
    match Desk.iterate (S.meanwhile s) with
    | .ok i t => (k i).exec S (S.note (.made i) t)
    | .error f t => .error f t
  | next i k => fun s =>
    let s := S.meanwhile s
    let r := Desk.next i s
    let o := S.hears (outcome r)
    (k o).exec S (S.note (.asked i s.1.phase o) (endState r))
  | close i k => fun s =>
    k.exec S (S.note (.closed i) (endState (Desk.close i (S.meanwhile s))))
  | skip n k => fun s =>
    let r := Desk.skip n (S.meanwhile s)
    (k (outcome r)).exec S (S.note (.skipped (outcome r)) (endState r))
  | run consumer k => fun s =>
    let s := S.meanwhile s
    let j := runCount (S.history s.2.memo)
    let r := Desk.run (S.handing j fun shape => (consumer shape).exec S)
      (S.note (.entered j s.1.phase) s)
    let o := S.hears (outcome r)
    (k o).exec S (S.note (.left j o) (endState r))

/-- A relation between the states before and after each kind of step of a client in a setting. -/
structure Setting.Keeps [Source σ] (S : Setting σ χ)
    (P : Reading × Desk σ χ → Reading × Desk σ χ → Prop) : Prop where
  trans : ∀ {s t u}, P s t → P t u → P s u
  meanwhile : ∀ s, P s (S.meanwhile s)
  made : ∀ s, P s (S.note (.made s.2.iterators.length) (endState (Desk.iterate s)))
  asked : ∀ i s, P s (S.note (.asked i s.1.phase (S.hears (outcome (Desk.next i s))))
    (endState (Desk.next i s)))
  closed : ∀ i s, P s (S.note (.closed i) (endState (Desk.close i s)))
  skipped : ∀ n s, P s (S.note (.skipped (outcome (Desk.skip n s))) (endState (Desk.skip n s)))
  /-- A run keeps it if its consumer does. -/
  ran : ∀ x : Shape → Action σ χ Bool, (∀ shape s, P s (endState (x shape s))) → ∀ s j r,
    j = runCount (S.history s.2.memo) →
    r = Desk.run (S.handing j x) (S.note (.entered j s.1.phase) s) →
    P s (S.note (.left j (S.hears (outcome r))) (endState r))

/-- What every step keeps, every client keeps. -/
theorem Client.exec_keeps [Source σ] {S : Setting σ χ}
    {P : Reading × Desk σ χ → Reading × Desk σ χ → Prop} (K : S.Keeps P) (c : Client)
    (s : Reading × Desk σ χ) : P s (endState (c.exec S s)) := by
  induction c generalizing s with
  | answer | fail => exact K.meanwhile s
  | remember k ih => exact ih _ s
  | iterate k ih => exact K.trans (K.meanwhile s) (K.trans (K.made _) (ih _ _))
  | next i k ih => exact K.trans (K.meanwhile s) (K.trans (K.asked i _) (ih _ _))
  | close i k ih => exact K.trans (K.meanwhile s) (K.trans (K.closed i _) (ih _))
  | skip n k ih => exact K.trans (K.meanwhile s) (K.trans (K.skipped n _) (ih _ _))
  | run consumer k ihc ih =>
    -- The consumer is a client too.
    exact K.trans (K.meanwhile s) (K.trans (K.ran _ ihc _ _ _ rfl rfl) (ih _ _))

/-! ## Histories -/

/-- The setting in which the history is recorded. -/
def historian : Setting σ History where
  history := id
  event e v memo := (e, v.1) :: memo

abbrev record (e : Event) : Reading × Desk σ History → Reading × Desk σ History := historian.note e

theorem record_eq (e : Event) (rd : Reading) (d : Desk σ History) :
    record e (rd, d) = (rd, { d with memo := (e, rd) :: d.memo }) := rfl

theorem historian_handing (j : Nat) (x : Shape → Action σ History Bool) (shape : Shape)
    (s : Reading × Desk σ History) :
    historian.handing j x shape s = x shape (record (.handed j shape) s) :=
  Setting.handing_of_silent fun _ _ _ _ => rfl

/-- What is known of a reading and its desk from the history. -/
structure Inv (s : Reading × Desk σ History) : Prop where
  lawful : LawfulHistory s.2.memo
  counted : s.1.shapeCount = (deliveries s.2.memo).length
  ready : s.1.phase = .ready → beginners s.2.memo = []
  fresh : ∀ i, s.2.iterator i = .fresh ↔ isFresh i s.2.memo = true
  suspended : ∀ i, s.2.iterator i = .suspended → .iterator i ∈ beginners s.2.memo

structure Grown (s t : Reading × Desk σ History) : Prop where
  inv : Inv t
  suffix : s.2.memo <:+ t.2.memo

section
variable {rd rd' : Reading} {d d' : Desk σ History} {i : Nat}

namespace Inv

theorem phase_ne_ready (H : Inv (rd, d)) {reader : Reader} (h : reader ∈ beginners d.memo) :
    rd.phase ≠ .ready := by
  intro hphase
  rw [H.ready hphase] at h
  cases h

theorem kept (H : Inv (rd, d)) (hkept : Kept d d') (hcount : rd'.shapeCount = rd.shapeCount)
    (hphase : rd.phase ≠ .ready → rd'.phase ≠ .ready) : Inv (rd', d') := by
  obtain ⟨hiterators, hmemo⟩ := hkept
  refine ⟨?_, ?_, ?_, ?_, ?_⟩
  · simpa only [hmemo] using H.lawful
  · simpa only [hmemo, hcount] using H.counted
  · intro h
    simp only [hmemo]
    exact H.ready (Decidable.of_not_not fun hne => hphase hne h)
  · simpa only [iterator, hiterators, hmemo] using H.fresh
  · simpa only [iterator, hiterators, hmemo] using H.suspended

theorem record_calm {e : Event} (H : Inv (rd, d)) (he : e.IsCalm) (hkept : Kept d d')
    (hphase : rd.phase ≠ .ready → rd'.phase ≠ .ready) (hlawful : Lawful e rd' d.memo) :
    Grown (rd, d) (record e (rd', d')) := by
  obtain ⟨hiterators, hmemo⟩ := hkept
  have hsuffix : d.memo <:+ (e, rd') :: d'.memo := hmemo ▸ List.suffix_cons _ _
  have hbeginners : beginners ((e, rd') :: d'.memo) = beginners d.memo := by
    rw [beginners_cons, he.beginner, hmemo]
    rfl
  refine ⟨⟨?_, ?_, ?_, ?_, ?_⟩, hsuffix⟩
  · exact lawfulHistory_cons.mpr ⟨hmemo ▸ hlawful, hmemo ▸ H.lawful⟩
  · simpa only [record_eq, hmemo] using hlawful.counted
  · intro h
    exact hbeginners.trans (H.ready (Decidable.of_not_not fun hne => hphase hne h))
  · intro i
    rw [record_eq, he.fresh, hmemo]
    simpa only [iterator, hiterators] using H.fresh i
  · intro i h
    rw [record_eq, hbeginners]
    exact H.suspended i (by simpa only [record_eq, iterator, hiterators] using h)

/-- The one that has begun to read is handed a shape. -/
theorem handed (H : Inv (rd, d)) {j : Nat} (hj : .run j ∈ beginners d.memo) {shape : Shape}
    (hid : shape.objectId = rd.shapeCount) (hcount : rd'.shapeCount = rd.shapeCount + 1)
    (hphase : rd'.phase = rd.phase) (hkept : Kept d d') :
    Grown (rd, d) (record (.handed j shape) (rd', d')) := by
  refine H.record_calm (Event.isCalm_handed j shape) hkept (fun h => hphase ▸ h) ?_
  rw [H.counted] at hcount hid
  exact .of_delivery hcount rfl hid (List.mem_append_right _ hj) nofun trivial

theorem skipped (H : Inv (rd, d)) (o : Except Fault Bytes) (hkept : Kept d d')
    (hcount : rd'.shapeCount = rd.shapeCount) (hphase : rd'.phase = rd.phase) :
    Grown (rd, d) (record (.skipped o) (rd', d')) := by
  refine H.record_calm (Event.isCalm_skipped o) hkept (fun h => hphase ▸ h) ?_
  exact .of_silent (hcount.trans H.counted) rfl nofun trivial

/-- A run that finds the reading not ready. -/
theorem entered (H : Inv (rd, d)) (hphase : rd.phase ≠ .ready) :
    Grown (rd, d) (record (.entered (runCount d.memo) rd.phase) (rd, d)) := by
  have hcalm := Event.isCalm_entered (runCount d.memo) hphase
  refine H.record_calm hcalm (.refl d) id (.of_silent H.counted rfl ?_ rfl)
  intro reader h
  rw [hcalm.beginner] at h
  cases h

/-- A run that finds the reading ready, and begins. -/
theorem begun (H : Inv (rd, d)) (hphase : rd.phase = .ready) :
    Inv ({ rd with phase := .reading },
      { d with memo := (.entered (runCount d.memo) .ready, rd) :: d.memo }) := by
  have hlawful : Lawful (.entered (runCount d.memo) .ready) rd d.memo :=
    .of_silent H.counted rfl (fun _ _ => H.ready hphase) rfl
  exact ⟨lawfulHistory_cons.mpr ⟨hlawful, H.lawful⟩, hlawful.counted, nofun, H.fresh,
    fun i h => List.mem_append_right _ (H.suspended i h)⟩

theorem left (H : Inv (rd, d)) {j : Nat} {o : Except Fault Nat}
    (hdue : (Event.left j o).IsDue d.memo) :
    Grown (rd, d) (record (.left j o) (rd, d)) :=
  H.record_calm (Event.isCalm_left j o) (.refl d) id (.of_silent H.counted rfl nofun hdue)

theorem made (H : Inv (rd, d)) :
    Grown (rd, d) (record (.made d.iterators.length)
      (rd, { d with iterators := d.iterators ++ [.fresh] })) := by
  have hlawful : Lawful (.made d.iterators.length) rd d.memo :=
    .of_silent H.counted rfl nofun trivial
  refine ⟨⟨lawfulHistory_cons.mpr ⟨hlawful, H.lawful⟩, hlawful.counted, H.ready, ?_, ?_⟩,
    List.suffix_cons _ _⟩
  · intro i
    have hiterator := iterator_append d .fresh i
    simp only [record_eq, isFresh, Bool.or_eq_true, beq_iff_eq, ← H.fresh i]
    refine Iff.trans (iff_of_eq (congrArg (· = _) hiterator)) ?_
    split <;> simp [*]
  · intro i h
    have hiterator := (iterator_append d .fresh i).symm.trans h
    split at hiterator
    · cases hiterator
    · exact H.suspended i hiterator

/-- An iterator is asked or closed. -/
theorem turned (H : Inv (rd, d)) {e : Event} {it : Reading.Iterator} (hkept : Kept d d')
    (hit : it ≠ .fresh)
    (he : ∀ j, isFresh j ((e, rd') :: d.memo) = (i != j && isFresh j d.memo))
    (hlawful : Lawful e rd' d.memo)
    (hready : rd'.phase = .ready → beginners ((e, rd') :: d.memo) = [])
    (hsuspended : it = .suspended → .iterator i ∈ beginners ((e, rd') :: d.memo)) :
    Grown (rd, d) (record e (setIterator i it (rd', d'))) := by
  obtain ⟨hiterators, hmemo⟩ := hkept
  have hsuffix : d.memo <:+ (e, rd') :: d'.memo := hmemo ▸ List.suffix_cons _ _
  have hset := iterator_set_self d' i it
  have hother (j : Nat) (hj : i ≠ j) :
      (record e (setIterator i it (rd', d'))).2.iterator j = d.iterator j := by
    refine (iterator_set_ne d' hj it).trans ?_
    simp only [iterator, hiterators]
  refine ⟨⟨?_, ?_, ?_, ?_, ?_⟩, hsuffix⟩
  · exact lawfulHistory_cons.mpr ⟨hmemo ▸ hlawful, hmemo ▸ H.lawful⟩
  · simpa only [record_eq, setIterator, hmemo] using hlawful.counted
  · simpa only [record_eq, setIterator, hmemo] using hready
  · intro j
    simp only [record_eq, setIterator, hmemo, he]
    by_cases hj : i = j
    · subst hj
      simp only [bne_self_eq_false, Bool.false_and, Bool.false_eq_true, iff_false]
      intro hfresh
      rcases hset with hset | hset
      · exact hit (hset.symm.trans hfresh)
      · cases hset.symm.trans hfresh
    · rw [bne_iff_ne.mpr hj, Bool.true_and, ← H.fresh j]
      exact iff_of_eq (congrArg (· = _) (hother j hj))
  · intro j hj
    simp only [record_eq, setIterator, hmemo]
    by_cases hij : i = j
    · subst hij
      rcases hset with hset | hset
      · exact hsuspended (hset.symm.trans hj)
      · cases hset.symm.trans hj
    · exact List.mem_append_right _ (H.suspended j ((hother j hij).symm.trans hj))

/-- An iterator is asked that has nothing to give any more, or that is refused. -/
theorem asked_in_vain (H : Inv (rd, d)) {o : Except Fault (Option Shape)}
    (ho : (Event.asked i rd.phase o).delivery? = none)
    (hfresh : isFresh i d.memo = true → rd.phase ≠ .ready ∧ o = .error (.alreadyRead rd.phase)) :
    Grown (rd, d) (record (.asked i rd.phase o) (setIterator i .finished (rd, d))) := by
  have hbeginner : (Event.asked i rd.phase o).beginner? d.memo = none := by
    cases hb : (Event.asked i rd.phase o).beginner? d.memo with
    | none => rfl
    | some reader =>
      obtain ⟨hphase, hi⟩ := Event.beginner?_asked hb
      exact absurd hphase (hfresh hi).1
  have hbeginners : beginners ((.asked i rd.phase o, rd) :: d.memo) = beginners d.memo := by
    rw [beginners_cons, hbeginner]
    rfl
  refine H.turned (.refl d) nofun (fun _ => rfl) (.of_silent H.counted ho ?_ ?_) ?_ nofun
  · intro reader h
    rw [hbeginner] at h
    cases h
  · intro hi _
    exact (hfresh hi).2
  · intro hphase
    rw [hbeginners, H.ready hphase]

/-- The one iterator that reads is asked, be it for the first time or not. -/
theorem asked_reader (H : Inv (rd, d)) {rd₁ : Reading}
    {r : EStateM.Result Fault (Reading × Desk σ History) (Option Shape)}
    (hr : Advanced rd₁ d r) (hcount : rd₁.shapeCount = rd.shapeCount) (hphase : rd₁.phase ≠ .ready)
    (hreader : ∀ o rd', .iterator i ∈ beginners ((.asked i rd.phase o, rd') :: d.memo))
    (hfresh : isFresh i d.memo = true → rd.phase = .ready) :
    Grown (rd, d)
      (record (.asked i rd.phase (outcome r)) (setIterator i (.after r) (endState r))) := by
  rw [H.counted] at hcount
  have hfirst (o : Except Fault (Option Shape)) (reader : Reader)
      (h : (Event.asked i rd.phase o).beginner? d.memo = some reader) : beginners d.memo = [] :=
    H.ready (Event.beginner?_asked h).1
  have hdue (o : Except Fault (Option Shape)) : (Event.asked i rd.phase o).IsDue d.memo :=
    fun hi hne => absurd (hfresh hi) hne
  cases hr with
  | gave id count phase kept =>
    rw [hcount] at id count
    exact H.turned kept nofun (fun _ => rfl)
      (.of_delivery count rfl id (hreader _ _) (hfirst _) (hdue _))
      (fun h => absurd (phase ▸ h) hphase) fun _ => hreader _ _
  | ended count phase kept =>
    rw [hcount] at count
    exact H.turned kept nofun (fun _ => rfl) (.of_silent count rfl (hfirst _) (hdue _))
      (fun h => absurd h (phase hphase)) nofun
  | failed count phase kept =>
    rw [hcount] at count
    exact H.turned kept nofun (fun _ => rfl) (.of_silent count rfl (hfirst _) (hdue _))
      (fun h => absurd h (phase hphase)) nofun

end Inv

namespace Grown

theorem refl {s : Reading × Desk σ History} (H : Inv s) : Grown s s := ⟨H, List.suffix_rfl⟩

theorem trans {s t u : Reading × Desk σ History} (H : Grown s t) (H' : Grown t u) : Grown s u :=
  ⟨H'.inv, H.suffix.trans H'.suffix⟩

theorem kept {s : Reading × Desk σ History} (H : Grown s (rd, d)) (hkept : Kept d d')
    (hcount : rd'.shapeCount = rd.shapeCount) (hphase : rd.phase ≠ .ready → rd'.phase ≠ .ready) :
    Grown s (rd', d') :=
  ⟨H.inv.kept hkept hcount hphase, hkept.memo ▸ H.suffix⟩

end Grown
end

end Shapefile.Desk
