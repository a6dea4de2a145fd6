import Shapefile.Proofs.Exchanges
import Shapefile.Proofs.Handles

/-! # Exchanges of a reading

A reading asks its stream for the fields of records and for nothing else, so it is fail-stop while
its shapes are handed to one who leaves the stream alone, in a run (`Desk.run_failStops`) or in a
loop over an iterator (`Desk.iterating_failStops`). -/

namespace Shapefile

open Desk (outcome endState)

/-! ## Readings -/

section
variable {κ ε ε' : Type}

/-- States of a reading. The same is made of the streams if the same has been counted. -/
abbrev Replay.reading (K : Replay κ ε ε') : Replay κ (Reading × ε) (Reading × ε') :=
  K.beside (fun rd rd' => rd'.meter = rd.meter ∧ rd'.shapeCount = rd.shapeCount)
    fun _ => ⟨rfl, rfl⟩

variable [DecidableEq κ]

/-- A reading of a stream is connected through `link`, and through `link'` where the stream is a
tape. -/
structure Replay.Links (K : Replay κ ε ε') (stream : κ) (link : Link ε) (link' : Link ε') :
    Prop where
  carries : K.Carries stream link.feed link'.feed
  logged : ∀ entry e, K.Hears e [] (link.log entry e)
  same : ∀ entry {e e'}, K.Same e e' → K.Same (link.log entry e) (link'.log entry e')
  leaves : ∀ entry e', K.tape (link'.log entry e') = K.tape e' ∧
    K.shapes' (link'.log entry e') = K.shapes' e'
  decoded : ∀ entry {e e'}, K.Decoded e e' →
    K.Decoded (link.log entry e) e' ∧ K.Decoded e (link'.log entry e')

namespace Reading

/-- A reading that ends with a fault. -/
def stopped (link : Link ε) (f : Fault) (s : Reading × ε) : Reading × ε :=
  if endsFailed f then ({ s.1 with phase := .failed }, s.2) else settle link s

/-- A reading that reads on, as the record that it reads. -/
theorem advance_eq_match {link : Link ε} {rd : Reading} {e : ε} (h : ¬ rd.left ≤ 0) :
    advance link (rd, e) =
      match Record.read link.feed rd.shapeCount (rd.meter, e) with
      | .ok record (meter, e) =>
        .ok (some record.shape)
          ({ rd with meter, shapeCount := rd.shapeCount + 1 }, warn link rd record e)
      | .error f (meter, e) => .error f (stopped link f ({ rd with meter }, e)) := by
  simp only [advance, if_neg h]
  cases Record.read link.feed rd.shapeCount (rd.meter, e) with
  | ok record t => rfl
  | error f t =>
    simp only [stopped]
    split <;> rfl

/-- What leaves the reading alone. -/
def beside (x : EStateM Fault ε Bool) : Action ε Bool
  | (rd, e) =>
    match x e with
    | .ok more e => .ok more (rd, e)
    | .error f e => .error f (rd, e)

theorem beside_failStops {K : Replay κ ε ε'} {x : EStateM Fault ε Bool}
    {y : EStateM Fault ε' Bool} (H : FailStops K x y) :
    FailStops K.reading (beside x) (beside y) := by
  rintro ⟨rd, e⟩
  have hx := H e
  simp only [beside]
  generalize x e = r at hx ⊢
  refine hx.wrap (fun h => ?_) ?_ rfl ?_
  · cases r <;> exact h
  · rintro f t rfl
    exact ⟨_, rfl⟩
  · rintro ⟨_, e'⟩ ⟨rfl, hsame⟩
    simp only [beside]
    refine ⟨e', hsame, rfl, fun halike => ?_, fun hy => ?_⟩
    · generalize y e' = r' at halike ⊢
      cases halike with
      | ok h => exact .ok ⟨⟨rfl, h.1⟩, h.2⟩
      | error h => exact .error ⟨⟨rfl, h.1⟩, h.2⟩
    · simp only [hy]
      refine ⟨_, rfl, rfl, rfl, ?_⟩
      rintro f t rfl h
      exact ⟨⟨rfl, rfl⟩, h⟩

theorem fresh_next_of_ready {link : Link ε} {rd : Reading} {e : ε} (h : rd.phase = .ready) :
    Iterator.fresh.next link (rd, e) = advance link ({ rd with phase := .reading }, e) := if_pos h

theorem fresh_next_of_ne {link : Link ε} {rd : Reading} {e : ε} (h : rd.phase ≠ .ready) :
    Iterator.fresh.next link (rd, e) = .error (.alreadyRead rd.phase) (rd, e) := if_neg h

variable {K : Replay κ ε ε'} {stream : κ} {link : Link ε} {link' : Link ε'}
  (L : K.Links stream link link')
include L

theorem settle_heard (s : Reading × ε) : K.reading.Hears s [] (settle link s) := by
  obtain ⟨rd, e⟩ := s
  by_cases h : rd.phase = .reading
  · rw [settle, if_pos h]
    exact L.logged _ e
  · rw [settle, if_neg h]
    exact K.nothing e

theorem settle_same {s : Reading × ε} {s' : Reading × ε'} (h : K.reading.Same s s') :
    K.reading.Same (settle link s) (settle link' s') := by
  obtain ⟨rd, e⟩ := s
  obtain ⟨_, e'⟩ := s'
  obtain ⟨rfl, h⟩ := h
  simp only [settle]
  split
  · exact ⟨rfl, L.same _ h⟩
  · exact ⟨rfl, h⟩

theorem settle_leaves (s' : Reading × ε') :
    K.reading.tape (settle link' s') = K.reading.tape s' ∧
      K.reading.shapes' (settle link' s') = K.reading.shapes' s' := by
  obtain ⟨rd, e'⟩ := s'
  simp only [settle]
  split
  · exact L.leaves _ e'
  · exact ⟨rfl, rfl⟩

theorem settle_decoded {s : Reading × ε} {s' : Reading × ε'} (h : K.reading.Decoded s s') :
    K.reading.Decoded (settle link s) s' ∧ K.reading.Decoded s (settle link' s') := by
  obtain ⟨rd, e⟩ := s
  obtain ⟨rd', e'⟩ := s'
  obtain ⟨hcount, h⟩ := h
  simp only [settle]
  constructor
  · split
    · exact ⟨hcount, (L.decoded _ h).1⟩
    · exact ⟨hcount, h⟩
  · split
    · exact ⟨hcount, (L.decoded _ h).2⟩
    · exact ⟨hcount, h⟩

theorem stopped_heard (f : Fault) (s : Reading × ε) : K.reading.Hears s [] (stopped link f s) := by
  unfold stopped
  split
  · exact K.nothing s.2
  · exact settle_heard L s

theorem stopped_same (f : Fault) {s : Reading × ε} {s' : Reading × ε'}
    (h : K.reading.Same s s') :
    K.reading.Same (stopped link f s) (stopped link' f s') := by
  unfold stopped
  split
  · exact ⟨by rw [h.1], h.2⟩
  · exact settle_same L h

/-- Nothing is left over or handed over at the end that was not before. -/
theorem stopped_leaves (f : Fault) (s' : Reading × ε') :
    K.reading.tape (stopped link' f s') = K.reading.tape s' ∧
      K.reading.shapes' (stopped link' f s') = K.reading.shapes' s' := by
  unfold stopped
  split
  · exact ⟨rfl, rfl⟩
  · exact settle_leaves L s'

theorem stopped_decoded (f f' : Fault) {s : Reading × ε} {s' : Reading × ε'}
    (h : K.reading.Decoded s s') :
    K.reading.Decoded (stopped link f s) (stopped link' f' s') := by
  have hright : K.reading.Decoded s (stopped link' f' s') := by
    unfold stopped
    split
    · exact h
    · exact (settle_decoded L h).2
  unfold stopped at hright ⊢
  split
  · exact hright
  · exact (settle_decoded L hright).1

theorem warn_heard (rd : Reading) (record : Record) (e : ε) :
    K.Hears e [] (warn link rd record e) := by
  unfold warn
  split
  · exact L.logged _ e
  · exact K.nothing e

theorem warn_same (rd : Reading) (record : Record) {e : ε} {e' : ε'} (h : K.Same e e') :
    K.Same (warn link rd record e) (warn link' rd record e') ∧
      K.tape (warn link' rd record e') = K.tape e' := by
  unfold warn
  split
  · exact ⟨L.same _ h, (L.leaves _ e').1⟩
  · exact ⟨h, rfl⟩

theorem advance_failStops : FailStops K.reading (advance link) (advance link') := by
  rintro ⟨rd, e⟩
  by_cases hleft : rd.left ≤ 0
  · rw [advance_of_left hleft]
    refine .quiet (settle_heard L _) fun {s'} hsame => ?_
    obtain ⟨_, e'⟩ := s'
    obtain ⟨rfl, hsame⟩ := hsame
    rw [advance_of_left hleft]
    exact .ok ⟨settle_same L ⟨rfl, hsame⟩, (settle_leaves L _).1⟩
  have hrecord := (Record.read_fieldwise link.feed link'.feed rd.shapeCount).failStops L.carries
    (rd.meter, e)
  rw [advance_eq_match hleft]
  generalize Record.read link.feed rd.shapeCount (rd.meter, e) = r at hrecord ⊢
  refine hrecord.wrap (fun {es} h => ?_) ?_ rfl ?_
  · rw [← List.append_nil es]
    cases r with
    | ok record t => exact K.append h (warn_heard L rd record t.2)
    | error f t => exact K.append h (stopped_heard L f ({ rd with meter := t.1 }, t.2))
  · rintro f t rfl
    exact ⟨_, rfl⟩
  · rintro ⟨_, e'⟩ ⟨rfl, hsame⟩
    rw [advance_eq_match hleft]
    refine ⟨(rd.meter, e'), ⟨rfl, hsame⟩, rfl, fun halike => ?_, fun {f' t'} hread => ?_⟩
    · generalize Record.read link'.feed rd.shapeCount (rd.meter, e') = r' at halike ⊢
      cases halike with
      | @ok record t t' h =>
        obtain ⟨m, e⟩ := t
        obtain ⟨_, e'⟩ := t'
        obtain ⟨⟨rfl, hsame⟩, htape⟩ := h
        obtain ⟨hsame', htape'⟩ := warn_same L rd record hsame
        exact .ok ⟨⟨rfl, hsame'⟩, htape'.trans htape⟩
      | @error f t t' h =>
        obtain ⟨m, e⟩ := t
        obtain ⟨_, e'⟩ := t'
        obtain ⟨⟨rfl, hsame⟩, htape⟩ := h
        have hstart : K.reading.Same ({ rd with meter := m }, e) ({ rd with meter := m }, e') :=
          ⟨rfl, hsame⟩
        exact .error ⟨stopped_same L f hstart, (stopped_leaves L f _).1.trans htape⟩
    · rw [hread]
      obtain ⟨htape, hshapes⟩ := stopped_leaves L f' ({ rd with meter := t'.1 }, t'.2)
      refine ⟨_, rfl, htape, hshapes, ?_⟩
      rintro f ⟨m, e⟩ rfl ⟨rfl, h⟩
      have hstart : K.reading.Decoded ({ rd with meter := t'.1 }, e)
          ({ rd with meter := t'.1 }, t'.2) := ⟨⟨rfl, rfl⟩, h⟩
      exact stopped_decoded L f f' hstart

theorem next_failStops (it : Iterator) : FailStops K.reading (it.next link) (it.next link') := by
  cases it with
  | suspended => exact advance_failStops L
  | finished => exact .pure none
  | fresh =>
    rintro ⟨rd, e⟩
    by_cases hready : rd.phase = .ready
    · rw [fresh_next_of_ready hready]
      have hadvance := advance_failStops L ({ rd with phase := .reading }, e)
      refine hadvance.wrap id (fun h => ⟨_, h⟩) rfl ?_
      rintro ⟨_, e'⟩ ⟨rfl, hsame⟩
      rw [fresh_next_of_ready hready]
      exact ⟨({ rd with phase := .reading }, e'), ⟨rfl, hsame⟩, rfl, id,
        fun hy => ⟨_, hy, rfl, rfl, fun hr h => hr ▸ h⟩⟩
    · rw [fresh_next_of_ne hready]
      refine .quiet (K.nothing e) ?_
      rintro ⟨_, e'⟩ ⟨rfl, hsame⟩
      rw [fresh_next_of_ne hready]
      exact .error ⟨⟨rfl, hsame⟩, rfl⟩

variable {consumer : Consumer ε} {consumer' : Consumer ε'}
  (C : ∀ shape, FailStops K.reading (consumer shape) (consumer' shape))
include C

theorem deliver_failStops (fuel : Nat) (it : Iterator) :
    FailStops K.reading (deliver link consumer fuel it) (deliver link' consumer' fuel it) := by
  induction fuel generalizing it with
  | zero => exact .pure ()
  | succ fuel ih =>
    rw [deliver_eq_bind, deliver_eq_bind]
    refine (next_failStops L it).bind fun shape? => ?_
    cases shape? with
    | none => exact .pure ()
    | some shape =>
      refine (C shape).bind fun more => ?_
      cases more with
      | true => exact ih .suspended
      | false => exact .modify (settle_heard L) fun h => ⟨settle_same L h, (settle_leaves L _).1⟩

theorem run_failStops : FailStops K.reading (run link consumer) (run link' consumer') := by
  rintro ⟨rd, e⟩
  have hdeliver := deliver_failStops L C (rd.left.toNat + 1) .fresh (rd, e)
  simp only [run]
  generalize deliver link consumer (rd.left.toNat + 1) .fresh (rd, e) = r at hdeliver ⊢
  refine hdeliver.wrap (fun h => ?_) ?_ rfl ?_
  · cases r <;> exact h
  · rintro f t rfl
    exact ⟨_, rfl⟩
  · rintro ⟨_, e'⟩ ⟨rfl, hsame⟩
    refine ⟨(rd, e'), ⟨rfl, hsame⟩, rfl, fun halike => ?_, fun hy => ?_⟩
    · simp only [run]
      generalize deliver link' consumer' (rd.left.toNat + 1) .fresh (rd, e') = r' at halike ⊢
      cases halike with
      | @ok _ t t' h =>
        obtain ⟨⟨hreading, hsame⟩, htape⟩ := h
        simp only [hreading]
        exact .ok ⟨⟨rfl, hsame⟩, htape⟩
      | @error f t t' h =>
        obtain ⟨⟨hreading, hsame⟩, htape⟩ := h
        simp only [hreading]
        exact .error ⟨⟨rfl, hsame⟩, htape⟩
    · simp only [run, hy]
      refine ⟨_, rfl, rfl, rfl, ?_⟩
      rintro f t rfl h
      exact h

end Reading
end

/-! ## Tapes -/

namespace Plain

theorem read_of_length {n : Nat} {data : Bytes} (h : data.length = n) (rest : Bytes) :
    read n ⟨data ++ rest⟩ = .ok data ⟨rest⟩ := by
  rw [read, ← h, Bytes.cut_length_append]

theorem read_nil (n : Nat) : read n ⟨[]⟩ = .ok [] ⟨[]⟩ := by
  cases n with
  | zero => rfl
  | succ n => rw [read, Bytes.cut_short (Nat.succ_pos n)]

end Plain

/-! ## A stream that stands alone -/

section
variable {σ χ : Type}

/-- A stream from which a header is read. -/
def Source.partners [Source σ] : Partners Unit σ where
  feed _ := Source.read
  consumer _ := pure false
  Unnoticed := Eq

def Source.replay [Source σ] : Replay Unit σ Plain where
  Hears := Source.partners.Hears
  Same _ _ := True
  Decoded _ _ := True
  tape p _ := p.rest
  shapes _ := none
  shapes' _ := none
  nothing := .nothing
  append := .append
  decoded := id
  handed _ := rfl
  recorded _ := rfl

theorem Source.replay_carries [Source σ] :
    (Source.replay (σ := σ)).Carries () Source.read Plain.read where
  heard n e := .answered () n e
  exact {n e u e' data rest} _ _ hlength htape := by
    have htape : e'.rest = data ++ rest () := by
      rw [← Exchange.bytes_of_length hlength ()]
      exact congrFun htape ()
    obtain ⟨bytes⟩ := e'
    cases htape
    exact ⟨_, Plain.read_of_length hlength _, trivial, rfl⟩
  short {n e e'} _ htape := by
    obtain ⟨bytes⟩ := e'
    cases htape
    exact ⟨_, Plain.read_nil n, trivial, rfl⟩

theorem Source.asked_of_heard {stream stream' : Adaptive} {es : List (Exchange Unit)}
    (H : Source.partners.Hears stream es stream') (u : Unit) :
    stream'.asked = stream.asked ++ requests es u :=
  Option.some.inj (H.recorded (fun s => some s.asked)
    (fun _ n s => congrArg some (by
      rw [← requests, requests_self]
      exact Adaptive.asked_read n s))
    (fun _ _ => congrArg some (List.append_nil _).symm) (fun h => by rw [h]))

/-! ## A desk -/

namespace Desk

/-- What a bystander does at a desk. -/
def answering (act : Shape → χ → Except Fault Bool × χ) (shape : Shape) :
    EStateM Fault (Desk σ χ) Bool := fun d =>
  match act shape d.memo with
  | (.ok more, memo) => .ok more { d with memo }
  | (.error f, memo) => .error f { d with memo }

theorem bystander_eq (act : Shape → χ → Except Fault Bool × χ) (shape : Shape) :
    bystander (σ := σ) act shape = Reading.beside (answering act shape) := by
  funext ⟨rd, d⟩
  cases hact : act shape d.memo with
  | mk answer memo => cases answer <;> simp only [bystander, Reading.beside, answering, hact]

/-- A desk with a plain byte string for its source. -/
def withTape (d : Desk σ χ) (tape : Bytes) : Desk Plain χ := { d with source := Plain.mk tape }

/-- Desks that differ in nothing but their sources. -/
structure SameButSource {τ : Type} (d : Desk σ χ) (d' : Desk τ χ) : Prop where
  iterators : d'.iterators = d.iterators
  log : d'.log = d.log
  memo : d'.memo = d.memo

theorem SameButSource.read {u d : Desk σ χ} {u' d' : Desk Plain χ} (h : SameButSource d d')
    (hu : SameButSource d u) (hu' : SameButSource d' u') : SameButSource u u' :=
  ⟨hu'.iterators.trans (h.iterators.trans hu.iterators.symm),
    hu'.log.trans (h.log.trans hu.log.symm), hu'.memo.trans (h.memo.trans hu.memo.symm)⟩

theorem feed_of_ok [Source σ] {n : Int} {d : Desk σ χ} {data : Bytes} {source : σ}
    (h : Source.read n d.source = .ok data source) : feed n d = .ok data { d with source } := by
  simp only [feed, h]

variable [Source σ] (act : Shape → χ → Except Fault Bool × χ)

theorem feed_answers (n : Int) (d : Desk σ χ) :
    outcome (feed n d) = outcome (Source.read n d.source) ∧
      endState (feed n d) = { d with source := endState (Source.read n d.source) } := by
  simp only [feed]
  cases Source.read n d.source <;> exact ⟨rfl, rfl⟩

theorem feed_same (n : Int) (d : Desk σ χ) : SameButSource d (endState (feed n d)) := by
  rw [(feed_answers n d).2]
  exact ⟨rfl, rfl, rfl⟩

def partners : Partners Unit (Desk σ χ) where
  feed _ := feed
  consumer := answering act
  Unnoticed d d' := d'.source = d.source ∧ d'.memo = d.memo

omit [Source σ] in
theorem endState_answering (shape : Shape) (d : Desk σ χ) :
    endState (answering act shape d) = { d with memo := (act shape d.memo).2 } := by
  simp only [answering]
  split <;> rename_i hact <;> rw [hact] <;> rfl

theorem handed_of_heard {d d' : Desk σ (List Shape × χ)} {es : List (Exchange Unit)}
    (H : (partners (keeping act)).Hears d es d') : d'.memo.1 = d.memo.1 ++ handedShapes es := by
  refine Option.some.inj (H.recorded (fun d => some d.memo.1) (fun _ n d => ?_)
    (fun shape d => ?_) fun h => by rw [h.2])
  · simp only [partners, (feed_same n d).memo]
    exact congrArg some (List.append_nil _).symm
  · simp only [partners, endState_answering]
    rfl

/-- The consumer keeps a list of the shapes too. -/
def replay : Replay Unit (Desk σ (List Shape × χ)) (Desk Plain (List Shape × χ)) where
  Hears := (partners (keeping act)).Hears
  Same := SameButSource
  Decoded d d' := d'.memo = d.memo
  tape d' _ := d'.source.rest
  shapes d := some d.memo.1
  shapes' d' := some d'.memo.1
  nothing := .nothing
  append := .append
  decoded := SameButSource.memo
  handed H := congrArg some (handed_of_heard act H)
  recorded h := congrArg (fun memo => some memo.1) h.memo

theorem replay_carries : (replay (σ := σ) act).Carries () feed feed where
  heard n d := .answered () n d
  exact {n d u d' data rest} hsame hfeed hlength htape := by
    have htape : d'.source = ⟨data ++ rest ()⟩ := by
      rw [← Exchange.bytes_of_length hlength ()]
      exact congrArg Plain.mk (congrFun htape ())
    have hread : Plain.read n d'.source = .ok data ⟨rest ()⟩ :=
      htape ▸ Plain.read_of_length hlength _
    have hu := feed_same n d
    rw [hfeed] at hu
    exact ⟨_, feed_of_ok hread, hsame.read hu ⟨rfl, rfl, rfl⟩, rfl⟩
  short {n d d'} hsame htape := by
    have htape : d'.source = ⟨[]⟩ := congrArg Plain.mk htape
    have hread : Plain.read n d'.source = .ok [] ⟨[]⟩ := htape ▸ Plain.read_nil n
    exact ⟨_, feed_of_ok hread, hsame.read (feed_same n d) ⟨rfl, rfl, rfl⟩,
      funext fun _ => congrArg Plain.rest htape.symm⟩

theorem replay_links : (replay (σ := σ) act).Links () link link where
  carries := replay_carries act
  logged _ _ := .unnoticed ⟨rfl, rfl⟩
  same entry _ _ hsame := { hsame with log := congrArg (entry :: ·) hsame.log }
  leaves _ _ := ⟨rfl, rfl⟩
  decoded _ _ _ h := ⟨h, h⟩

theorem answering_failStops (shape : Shape) :
    FailStops (replay (σ := σ) act) (answering (keeping act) shape)
      (answering (keeping act) shape) := by
  intro d
  refine .of_alike (.handed shape d) (List.forall_mem_singleton.mpr ⟨shape, rfl⟩) fun hsame => ?_
  simp only [answering, hsame.memo]
  split
  · exact .ok ⟨{ hsame with memo := rfl }, rfl⟩
  · exact .error ⟨{ hsame with memo := rfl }, rfl⟩

theorem bystander_failStops (shape : Shape) :
    FailStops (replay (σ := σ) act).reading (bystander (keeping act) shape)
      (bystander (keeping act) shape) := by
  rw [bystander_eq, bystander_eq]
  exact Reading.beside_failStops (answering_failStops act shape)

theorem run_failStops :
    FailStops (replay (σ := σ) act).reading (run (bystander (keeping act)))
      (run (bystander (keeping act))) :=
  Reading.run_failStops (replay_links act) (bystander_failStops act)

theorem asked_of_heard {s t : Reading × Desk Adaptive (List Shape × χ)} {es : List (Exchange Unit)}
    (H : (replay act).reading.Hears s es t) (u : Unit) :
    t.2.source.asked = s.2.source.asked ++ requests es u := by
  refine Option.some.inj (Partners.Hears.recorded (S := partners (keeping act))
    (fun d => some d.source.asked) (fun _ n d => ?_) (fun shape d => ?_) (fun h => by rw [h.1]) H)
  · obtain ⟨houtcome, hstate⟩ := feed_answers n d
    rw [← requests, requests_self]
    simp only [partners, houtcome, hstate]
    exact congrArg some (Adaptive.asked_read n d.source)
  · simp only [partners, endState_answering]
    exact congrArg some (List.append_nil _).symm

/-- A loop over the shapes of an iterator, ended by its body or after so many rounds. -/
def loop (body : Consumer σ χ) (i : Nat) : (rounds : Nat) → Action σ χ Unit
  | 0 => pure ()
  | rounds + 1 => next i >>= fun
    | none => pure ()
    | some shape => body shape >>= fun
      | true => loop body i rounds
      | false => close i

/-- A loop over the shapes of an iterator of its own. -/
def iterating (body : Consumer σ χ) (rounds : Nat) : Action σ χ Unit := do
  loop body (← iterate) rounds

omit [Source σ] in
theorem SameButSource.iterator {τ : Type} {d : Desk σ χ} {d' : Desk τ χ} (h : SameButSource d d')
    (i : Nat) : d'.iterator i = d.iterator i := by
  rw [Desk.iterator, Desk.iterator, h.iterators]

theorem setIterator_same {s : Reading × Desk σ (List Shape × χ)}
    {s' : Reading × Desk Plain (List Shape × χ)} (h : (replay act).reading.Same s s') (i : Nat)
    (it : Reading.Iterator) :
    (replay act).reading.Same (setIterator i it s) (setIterator i it s') ∧
      (replay (σ := σ) act).reading.tape (setIterator i it s') =
        (replay (σ := σ) act).reading.tape s' :=
  ⟨⟨h.1, { h.2 with iterators := congrArg (·.set i it) h.2.iterators }⟩, rfl⟩

theorem iterate_failStops : FailStops (replay (σ := σ) act).reading iterate iterate := by
  rintro ⟨rd, d⟩
  refine .quiet (.unnoticed ⟨rfl, rfl⟩) ?_
  rintro ⟨_, d'⟩ ⟨rfl, hsame⟩
  have hiterate : iterate (rd, d') =
      .ok d.iterators.length (rd, { d' with iterators := d.iterators ++ [.fresh] }) := by
    rw [← hsame.iterators]
    rfl
  rw [hiterate]
  exact .ok ⟨⟨rfl, { hsame with iterators := rfl }⟩, rfl⟩

theorem next_failStops (i : Nat) :
    FailStops (replay (σ := σ) act).reading (next i) (next i) := by
  rintro ⟨rd, d⟩
  have hnext := Reading.next_failStops (replay_links act) (d.iterator i) (rd, d)
  simp only [next]
  generalize (d.iterator i).next link (rd, d) = r at hnext ⊢
  refine hnext.wrap (fun h => ?_) ?_ rfl ?_
  · cases r <;> exact Partners.Hears.after h ⟨rfl, rfl⟩
  · rintro f t rfl
    exact ⟨_, rfl⟩
  · rintro ⟨_, d'⟩ ⟨rfl, hsame⟩
    refine ⟨(rd, d'), ⟨rfl, hsame⟩, rfl, fun halike => ?_, fun hy => ?_⟩
    · simp only [next, hsame.iterator]
      generalize (d.iterator i).next link (rd, d') = r' at halike ⊢
      cases halike with
      | @ok shape? t t' h =>
        obtain ⟨hsame', htape⟩ := setIterator_same act h.1 i (.after (.ok shape? t))
        have hafter : Reading.Iterator.after (.ok shape? t') = .after (.ok shape? t) := by
          cases shape? <;> rfl
        rw [hafter]
        exact .ok ⟨hsame', htape.trans h.2⟩
      | error h =>
        obtain ⟨hsame', htape⟩ := setIterator_same act h.1 i .finished
        exact .error ⟨hsame', htape.trans h.2⟩
    · simp only [next, hsame.iterator, hy]
      refine ⟨_, rfl, rfl, rfl, ?_⟩
      rintro f t rfl h
      exact h

theorem close_failStops (i : Nat) :
    FailStops (replay (σ := σ) act).reading (close i) (close i) := by
  rintro ⟨rd, d⟩
  refine .quiet ?_ ?_
  · simp only [close, endState]
    cases d.iterator i with
    | suspended => exact Partners.Hears.after (Reading.settle_heard (replay_links act) _) ⟨rfl, rfl⟩
    | fresh => exact .unnoticed ⟨rfl, rfl⟩
    | finished => exact .unnoticed ⟨rfl, rfl⟩
  · rintro ⟨_, d'⟩ ⟨rfl, hsame⟩
    have hstart : (replay (σ := σ) act).reading.Same (rd, d) (rd, d') := ⟨rfl, hsame⟩
    simp only [close, hsame.iterator]
    cases d.iterator i with
    | suspended =>
      have hsettled := Reading.settle_same (replay_links act) hstart
      obtain ⟨hclosed, htape⟩ := setIterator_same act hsettled i .finished
      exact .ok ⟨hclosed, htape.trans (Reading.settle_leaves (replay_links act) _).1⟩
    | fresh => exact .ok (setIterator_same act hstart i .finished)
    | finished => exact .ok (setIterator_same act hstart i .finished)

theorem iterating_failStops (rounds : Nat) :
    FailStops (replay (σ := σ) act).reading (iterating (bystander (keeping act)) rounds)
      (iterating (bystander (keeping act)) rounds) := by
  refine (iterate_failStops act).bind fun i => ?_
  induction rounds with
  | zero => exact .pure ()
  | succ rounds ih =>
    refine (next_failStops act i).bind fun shape? => ?_
    cases shape? with
    | none => exact .pure ()
    | some shape =>
      refine (bystander_failStops act shape).bind fun more => ?_
      cases more with
      | true => exact ih
      | false => exact close_failStops act i

end Desk

end
end Shapefile
