import Shapefile.Proofs.Asking
import Shapefile.Proofs.Custody
import Shapefile.Proofs.Upkeep

/-! # Parses and iterators

An iterator that is asked for all its shapes does to a workspace what a parse does whose watcher
wants them all, and an iterator that is closed does what a parse does whose watcher has enough
(`Workspace.Iterated`). Both come down to the reading of the records in the workspace without its
iterators and its memo (`Workspace.bare`), where neither is seen. -/

namespace Shapefile.Workspace

open Desk (outcome endState)

variable {σ χ ψ : Type}

/-- A workspace with another session, other iterators and another memo. -/
def attached (session : Session) (iterators : List Session.Iterator) (memo : ψ)
    (w : Workspace σ χ) : Workspace σ ψ :=
  ⟨w.tree, w.files, w.streams, session, iterators, w.log, memo⟩

/-- A workspace with other iterators and another memo. -/
def refitted (iterators : List Session.Iterator) (memo : ψ) (w : Workspace σ χ) : Workspace σ ψ :=
  w.attached w.session iterators memo

/-- What there is in a workspace besides the iterators and the memo. -/
def bare (w : Workspace σ χ) : Workspace σ Unit := w.refitted [] ()

/-- A workspace after a parse that had an outcome. -/
def concluded {α : Type} (o : Except Fault α) (w : Workspace σ χ) : Workspace σ χ :=
  match o with
  | .ok _ => w.release
  | .error f => (w.updateSession (.record f)).release

/-- A workspace in a session that has counted the shapes of a reading. -/
def counted (session : Session) (t : Reading × Workspace σ Unit) : Workspace σ Unit :=
  t.2.attached { session with shapeCount := t.1.shapeCount } [] ()

/-- What comes of a run, once the session has learned the number of its shapes. -/
def learned (r : EStateM.Result Fault (Reading × Workspace σ χ) Nat) :
    EStateM.Result Fault (Workspace σ χ) Unit :=
  match r with
  | .ok _ (rd, w) => .ok () (w.updateSession ({ · with shapeCount := rd.shapeCount }))
  | .error f (rd, w) => .error f (w.updateSession ({ · with shapeCount := rd.shapeCount }))

/-- The workspace `w` with one more iterator, which waits to be asked for another shape. -/
def waiting (w : Workspace σ χ) (session : Session) (handle : Handle)
    (t : Reading × Workspace σ Unit) : Workspace σ χ :=
  (counted session t).refitted (w.iterators ++ [.suspended handle t.1]) w.memo

/-- The workspace `w` with one more iterator, which has ended. -/
def ended {α : Type} (w : Workspace σ χ) (o : Except Fault α) (v : Workspace σ Unit) :
    Workspace σ χ :=
  (v.concluded o).refitted (w.iterators ++ [.finished]) w.memo

theorem parsing_eq {α : Type} (body : Action σ χ α) (w : Workspace σ χ) :
    parsing body w =
      mapState (concluded (outcome (body (w.updateSession .forget))))
        (body (w.updateSession .forget)) := by
  simp only [parsing, within]
  cases body (w.updateSession .forget) <;> rfl

/-- A parse ends in the session being released, and nothing but its message has changed. -/
theorem concluded_eq {α : Type} (o : Except Fault α) (w : Workspace σ χ) :
    w.concluded o =
      (w.updateSession ({ · with error := lastAfter o w.session.error })).release := by
  cases o with
  | ok a => rfl
  | error f =>
    simp only [concluded, updateSession, lastAfter]
    rw [Session.record_eq, Session.error_record]

theorem iterator_last (w : Workspace σ χ) (it : Session.Iterator) (v : Workspace σ Unit) :
    (v.refitted (w.iterators ++ [it]) w.memo).iterator w.iterators.length = it := by
  simp [iterator, refitted, attached]

theorem setIterator_last (w : Workspace σ χ) (it it' : Session.Iterator) (v : Workspace σ Unit) :
    (v.refitted (w.iterators ++ [it]) w.memo).setIterator w.iterators.length it' =
      v.refitted (w.iterators ++ [it']) w.memo := by
  simp [setIterator, refitted, attached]

variable [Source σ]

theorem refitted_lockstep (iterators : List Session.Iterator) (memo : ψ) :
    Lockstep fun (w : Workspace σ χ) v => v = w.refitted iterators memo where
  tree h := by rw [h]; rfl
  files h := by rw [h]; rfl
  streams h := by rw [h]; rfl
  session h := by rw [h]; rfl
  updated h _ := by rw [h]; rfl
  noted _ _ h := by rw [h]; rfl
  opened _ _ h := by rw [h]; rfl
  fileRead _ h _ := by rw [h]; rfl
  streamRead _ h _ := by rw [h]; rfl

theorem link_attached (handle : Handle) (session : Session) (iterators : List Session.Iterator)
    (memo : ψ) :
    Link.Simulates (fun (w : Workspace σ χ) v => v = w.attached session iterators memo)
      (link handle) (link handle) where
  feed n := by
    rintro w _ rfl
    cases handle with
    | file place =>
      simp only [link, feed, attached]
      split
      · exact .ok rfl
      · exact .error rfl
    | stream place =>
      simp only [link, feed, attached]
      split
      · split
        · exact .ok rfl
        · exact .error rfl
      · exact .error rfl
  log entry _ := by
    rintro w _ rfl
    rfl

/-! ## Opening -/

/-- What an iterator does when it is asked for its first shape, and a parse before it reads. -/
def opening (path : String) : Action σ χ (Handle × Reading) := do
  load path
  beginReading

section
variable {path : String} {w v : Workspace σ χ} {handle : Handle} {rd : Reading} {f : Fault}

theorem beginReading_ready (h : beginReading w = .ok (handle, rd) v) :
    rd.phase = .ready ∧ rd.shapeCount = 0 := by
  simp only [beginReading] at h
  split at h
  · cases h
  · split at h
    · cases h
      exact ⟨rfl, rfl⟩
    · cases h

theorem opening_ready (h : opening path w = .ok (handle, rd) v) :
    rd.phase = .ready ∧ rd.shapeCount = 0 := by
  obtain ⟨_, u, -, h⟩ := bind_eq_ok h
  exact beginReading_ready h

theorem shapeCount_lasting (n : Nat) :
    Lasting fun w : Workspace σ χ => w.session.shapeCount = n where
  updated h hf := (hf.shapeCount _).trans h
  noted _ h := h
  opened _ _ h := h
  fileRead _ h _ := h
  streamRead _ h _ := h

theorem opening_simulates {R : Workspace σ χ → Workspace σ ψ → Prop} (H : Lockstep R)
    (path : String) : Simulates R (opening path) (opening path) :=
  (load_simulates H path).bind fun _ => beginReading_simulates H.toTandem

theorem shapeCount_of_opening (h : opening path w = .ok (handle, rd) v) :
    v.session.shapeCount = w.session.shapeCount := by
  have hend := Preserves.of_simulates
    (opening_simulates (shapeCount_lasting w.session.shapeCount).lockstep path) (w := w) rfl
  rw [h] at hend
  exact hend

theorem opening_refitted (iterators : List Session.Iterator) (memo : ψ) (path : String)
    (w : Workspace σ χ) :
    opening path (w.refitted iterators memo) =
      mapState (refitted iterators memo) (opening path w) :=
  eq_mapState _ (opening_simulates (refitted_lockstep iterators memo) path rfl)

variable {consumer : Consumer σ χ}

theorem body_of_error (h : opening path w = .error f v) :
    (do load path; readRecords consumer : Action σ χ Unit) w = .error f v := by
  cases hload : load path w with
  | error g u =>
    have hopening : opening path w = .error g u := bind_of_error hload
    rw [h] at hopening
    cases hopening
    exact bind_of_error hload
  | ok _ u =>
    have hopening : opening path w = beginReading u := bind_of_ok hload
    rw [h] at hopening
    exact (bind_of_ok hload).trans (bind_of_error hopening.symm)

theorem readRecords_of_ok (h : beginReading w = .ok (handle, rd) v) :
    readRecords consumer w =
      learned (Reading.run (link handle) (besideReading consumer) (rd, v)) :=
  bind_of_ok h

theorem body_of_ok (h : opening path w = .ok (handle, rd) v) :
    (do load path; readRecords consumer : Action σ χ Unit) w =
      learned (Reading.run (link handle) (besideReading consumer) (rd, v)) := by
  obtain ⟨_, u, hload, hbegin⟩ := bind_eq_ok h
  exact (bind_of_ok hload).trans (readRecords_of_ok hbegin)

end

/-! ## The iterator made last -/

/-- What an iterator, the last of the workspace `w`, makes of the answer of its reading. -/
def resumed (w : Workspace σ χ) (session : Session) (handle : Handle)
    (r : EStateM.Result Fault (Reading × Workspace σ Unit) (Option Shape)) :
    EStateM.Result Fault (Workspace σ χ) (Option Shape) :=
  match r with
  | .ok (some shape) t => .ok (some shape) (waiting w session handle t)
  | .ok none t => .ok none (ended w (outcome r) (t.2.attached session [] ()))
  | .error f t => .error f (ended w (outcome r) (t.2.attached session [] ()))

section
variable {path : String} {w : Workspace σ χ} {v : Workspace σ Unit} {session : Session}
  {handle : Handle} {rd : Reading} {f : Fault}

theorem resume_attached (w : Workspace σ χ) (session : Session) (handle : Handle) (rd : Reading)
    (it : Reading.Iterator) (it' : Session.Iterator) (v : Workspace σ Unit) :
    resume w.iterators.length handle rd it
        (v.attached session (w.iterators ++ [it']) w.memo) =
      resumed w session handle (it.next (link handle) (rd, v)) := by
  have hnext := Reading.next_simulates
    (link_attached handle session (w.iterators ++ [it']) w.memo) it (s := (rd, v))
    (t := (rd, v.attached session (w.iterators ++ [it']) w.memo)) ⟨rfl, rfl⟩
  simp only [resume]
  generalize it.next (link handle) (rd, v) = r at hnext ⊢
  generalize it.next (link handle) (rd, v.attached session _ w.memo) = r' at hnext ⊢
  cases hnext with
  | @ok shape? t u h =>
    obtain ⟨rd', u⟩ := u
    obtain ⟨rfl, rfl⟩ := h
    cases shape? with
    | some shape => exact congrArg _ (setIterator_last w it' _ (counted session t))
    | none => exact congrArg _ (setIterator_last w it' _ (t.2.attached session [] ()).release)
  | @error f t u h =>
    obtain ⟨rd', u⟩ := u
    obtain ⟨rfl, rfl⟩ := h
    exact congrArg _ (setIterator_last w it' _
      ((t.2.attached session [] ()).concluded (.error f : Except Fault Unit)))

theorem next_waiting (w : Workspace σ χ) (session : Session) (handle : Handle)
    (t : Reading × Workspace σ Unit) :
    next w.iterators.length (waiting w session handle t) =
      resumed w { session with shapeCount := t.1.shapeCount } handle
        (Reading.advance (link handle) t) := by
  have hit := iterator_last w (.suspended handle t.1) (counted session t)
  simp only [next, waiting, hit]
  exact resume_attached w _ handle t.1 .suspended _ t.2

/-- An iterator that is asked for its first shape opens the files. -/
theorem next_made (w : Workspace σ χ) (path : String) :
    next w.iterators.length (endState (iterate path w)) =
      match opening path (w.updateSession .forget).bare with
      | .ok (handle, rd) v =>
        resumed w v.session handle (Reading.Iterator.fresh.next (link handle) (rd, v))
      | .error f v => .error f (ended w (.error f : Except Fault Unit) v) := by
  have hit := iterator_last w (.fresh path) w.bare
  have hopening := opening_refitted (w.iterators ++ [.fresh path]) w.memo path
    (w.updateSession .forget).bare
  have hmade : endState (iterate path w) =
      w.bare.refitted (w.iterators ++ [.fresh path]) w.memo := rfl
  simp only [next, hmade, hit]
  rw [show (do load path; beginReading : Action σ χ (Handle × Reading))
    ((w.bare.refitted (w.iterators ++ [.fresh path]) w.memo).updateSession .forget) = _ from
    hopening]
  cases opening path (w.updateSession .forget).bare with
  | ok opened v => exact resume_attached w v.session opened.1 opened.2 .fresh (.fresh path) v
  | error f v =>
    exact congrArg _ (setIterator_last w (.fresh path) _
      (v.concluded (.error f : Except Fault Unit)))

theorem next_made_of_ok
    (h : opening path (w.updateSession .forget).bare = .ok (handle, rd) v) :
    next w.iterators.length (endState (iterate path w)) =
      next w.iterators.length (waiting w v.session handle ({ rd with phase := .reading }, v)) := by
  obtain ⟨hready, hcount⟩ := opening_ready h
  -- Nothing has been counted yet, by the session as by the reading.
  have hsession : v.session = { v.session with shapeCount := rd.shapeCount } := by
    rw [hcount, ← show v.session.shapeCount = 0 from shapeCount_of_opening h]
  have hbegin : Reading.Iterator.fresh.next (link handle) (rd, v) =
      Reading.advance (link handle) ({ rd with phase := .reading }, v) := if_pos hready
  rw [next_made, h, next_waiting]
  exact (congrArg _ hbegin).trans (congrArg (resumed w · handle _) hsession)

variable {t : Reading × Workspace σ Unit} {shapes : List Shape}

theorem next_of_gave {shape : Shape} {s : Reading × Workspace σ Unit}
    (h : Reading.advance (link handle) s = .ok (some shape) t) :
    next w.iterators.length (waiting w session handle s) =
      .ok (some shape) (waiting w session handle t) := by
  rw [next_waiting, h]
  rfl

theorem next_of_end {r : EStateM.Result Fault (Reading × Workspace σ Unit) (Option Shape)}
    {s : Reading × Workspace σ Unit} (hend : ∀ shape t, r ≠ .ok (some shape) t)
    (h : Reading.advance (link handle) s = r) :
    next w.iterators.length (waiting w session handle s) =
      mapState (fun t => ended w (outcome r) (counted session t)) r := by
  have hcount := Reading.shapeCount_of_end h hend
  rw [next_waiting, h, ← hcount]
  cases r with
  | ok shape? t =>
    cases shape? with
    | some shape => exact absurd rfl (hend shape t)
    | none => rfl
  | error f t => rfl

/-- The iterator gives what the reading of the records gives. -/
theorem drains_made (h : opening path (w.updateSession .forget).bare = .ok (handle, rd) v)
    {r : EStateM.Result Fault (Reading × Workspace σ Unit) (Option Shape)}
    (H : Drains (Reading.advance (link handle)) shapes ({ rd with phase := .reading }, v) r) :
    Drains (next w.iterators.length) shapes (endState (iterate path w))
      (mapState (fun t => ended w (outcome r) (counted v.session t)) r) :=
  (H.map (waiting w v.session handle) _ (fun _ _ _ => next_of_gave)
    fun _ => next_of_end H.ends).of_eq (next_made_of_ok h)

theorem gives_made (h : opening path (w.updateSession .forget).bare = .ok (handle, rd) v)
    (hne : shapes ≠ [])
    (H : Gives (Reading.advance (link handle)) shapes ({ rd with phase := .reading }, v) t) :
    Gives (next w.iterators.length) shapes (endState (iterate path w))
      (waiting w v.session handle t) :=
  (H.map (waiting w v.session handle) fun _ _ _ => next_of_gave).of_eq hne (next_made_of_ok h)

/-- What is told of a reading that is given up. -/
def givenUp (session : Session) (t : Reading × Workspace σ Unit) : Workspace σ Unit :=
  (counted session t).note (.totals t.1.shapeCount t.1.left)

theorem closeIterator_waiting (hphase : t.1.phase = .reading) :
    closeIterator w.iterators.length (waiting w session handle t) =
      .ok () (ended w (.ok () : Except Fault Unit) (givenUp session t)) := by
  have hit := iterator_last w (.suspended handle t.1) (counted session t)
  have hsettle (u : Workspace σ χ) : Reading.settle (link handle) (t.1, u) =
      ({ t.1 with phase := .done }, u.note (.totals t.1.shapeCount t.1.left)) := if_pos hphase
  simp only [closeIterator, waiting, hit, Reading.Iterator.close, hsettle]
  exact congrArg _ (setIterator_last w (.suspended handle t.1) .finished
    (givenUp session t).release)

end

/-! ## Parses -/

section
variable {path : String} {w : Workspace σ χ} {v : Workspace σ Unit} {handle : Handle} {rd : Reading}
  {answer : Shape → ψ → Bool × ψ} {memo : ψ} {shapes : List Shape} {shape : Shape}

theorem parse_of_error {f : Fault} (h : opening path (w.updateSession .forget).bare = .error f v)
    (consumer : Consumer σ ψ) :
    parse path consumer (w.withMemo memo) =
      .error f ((v.concluded (.error f : Except Fault Unit)).refitted w.iterators memo) := by
  have hopening := opening_refitted w.iterators memo path (w.updateSession .forget).bare
  rw [h] at hopening
  have hbody : (do load path; readRecords consumer : Action σ ψ Unit)
      ((w.withMemo memo).updateSession .forget) = _ := body_of_error hopening
  rw [parse, parsing_eq, hbody]
  rfl

theorem parse_of_ok (h : opening path (w.updateSession .forget).bare = .ok (handle, rd) v)
    {consumer : Consumer σ ψ} {r : EStateM.Result Fault (Reading × Workspace σ ψ) Nat}
    (hrun : Reading.run (link handle) (besideReading consumer)
      (rd, v.refitted w.iterators memo) = r) :
    parse path consumer (w.withMemo memo) =
      mapState (concluded (outcome (learned r))) (learned r) := by
  have hopening := opening_refitted w.iterators memo path (w.updateSession .forget).bare
  rw [h] at hopening
  have hbody : (do load path; readRecords consumer : Action σ ψ Unit)
      ((w.withMemo memo).updateSession .forget) = _ := body_of_ok hopening
  rw [parse, parsing_eq, hbody, hrun]

theorem run_attached (handle : Handle) (hready : rd.phase = .ready)
    {r : EStateM.Result Fault (Reading × Workspace σ Unit) (Option Shape)}
    (H : Drains (Reading.advance (link handle)) shapes ({ rd with phase := .reading }, v) r)
    (hmore : wantsMore answer shapes memo = true) :
    Reading.run (link handle) (besideReading (watcher answer)) (rd, v.refitted w.iterators memo) =
      Reading.ranInto (attached v.session w.iterators (mindAfter answer shapes memo)) r :=
  Reading.run_of_drains (fun memo v' => v'.attached v.session w.iterators memo)
    (fun memo => link_attached handle v.session w.iterators memo) (fun _ _ _ _ => rfl) hready H
    hmore

/-- A parse whose watcher wants every shape comes to what the reading of the records comes to. -/
theorem parse_of_drains (h : opening path (w.updateSession .forget).bare = .ok (handle, rd) v)
    {r : EStateM.Result Fault (Reading × Workspace σ Unit) (Option Shape)}
    (H : Drains (Reading.advance (link handle)) shapes ({ rd with phase := .reading }, v) r)
    (hmore : wantsMore answer shapes memo = true) :
    outcome (parse path (watcher answer) (w.withMemo memo)) = (outcome r).map (fun _ => ()) ∧
      endState (parse path (watcher answer) (w.withMemo memo)) =
        ((counted v.session (endState r)).concluded (outcome r)).refitted w.iterators
          (mindAfter answer shapes memo) := by
  rw [parse_of_ok h (run_attached handle (opening_ready h).1 H hmore)]
  cases r <;> exact ⟨rfl, rfl⟩

/-- A parse whose watcher has enough comes to what a reading comes to that is given up. -/
theorem parse_of_enough (h : opening path (w.updateSession .forget).bare = .ok (handle, rd) v)
    {t : Reading × Workspace σ Unit}
    (H : Gives (Reading.advance (link handle)) (shapes ++ [shape])
      ({ rd with phase := .reading }, v) t)
    (hmore : wantsMore answer shapes memo = true)
    (henough : (answer shape (mindAfter answer shapes memo)).1 = false) :
    parse path (watcher answer) (w.withMemo memo) =
      .ok () ((givenUp v.session t).release.refitted w.iterators
        (mindAfter answer (shapes ++ [shape]) memo)) := by
  have hphase : t.1.phase = .reading := Reading.phase_of_gives H
  have hsettle : Reading.settle (link handle) t =
      ({ t.1 with phase := .done }, t.2.note (.totals t.1.shapeCount t.1.left)) := if_pos hphase
  have hrun : Reading.run (link handle) (besideReading (watcher answer))
      (rd, v.refitted w.iterators memo) = _ :=
    Reading.run_of_enough (fun memo v' => v'.attached v.session w.iterators memo)
      (fun memo => link_attached handle v.session w.iterators memo) (fun _ _ _ _ => rfl)
      (opening_ready h).1 H hmore henough
  rw [parse_of_ok h hrun, hsettle]
  rfl

end

/-! ## All shapes at once -/

/-- Gathers the shapes, the latest first. -/
def gathering (shape : Shape) (memo : List Shape × χ) : Bool × (List Shape × χ) :=
  (true, shape :: memo.1, memo.2)

omit [Source σ] in
theorem mindAfter_gathering (shapes gathered : List Shape) (memo : χ) :
    mindAfter gathering shapes (gathered, memo) = (shapes.reverse ++ gathered, memo) := by
  induction shapes generalizing gathered with
  | nil => rfl
  | cons shape shapes ih =>
    rw [List.reverse_cons, List.append_assoc]
    exact ih (shape :: gathered)

/-- What is given back when all shapes were gathered. -/
def handBack (r : EStateM.Result Fault (Workspace σ (List Shape × χ)) Unit) :
    EStateM.Result Fault (Workspace σ χ) (List Shape) :=
  match r with
  | .ok _ w => .ok w.memo.1.reverse (w.withMemo w.memo.2)
  | .error f w => .error f (w.withMemo w.memo.2)

theorem shapes_eq (path : String) (w : Workspace σ χ) :
    shapes path w = handBack (parse path (watcher gathering) (w.withMemo ([], w.memo))) := rfl

/-! ## What is left open -/

/-- The open files that the session does not own were open in the workspace `w`, and not owned. -/
def OnlyOthers (w : Workspace σ ψ) (v : Workspace σ χ) : Prop :=
  ∀ place, v.IsOpen place → place ∉ v.session.owned → w.IsOpen place ∧ place ∉ w.session.owned

/-- The session owns nothing, and has left no file open that it owned in the workspace `w` or that
was opened since. -/
structure LeavesNothing (w : Workspace σ ψ) (v : Workspace σ χ) : Prop where
  released : v.IsReleased
  others : ∀ place, v.IsOpen place → w.IsOpen place ∧ place ∉ w.session.owned

theorem onlyOthers_enduring (w : Workspace σ ψ) :
    Enduring (OnlyOthers w : Workspace σ χ → Prop) where
  updated h hf place hopen howned := by
    rw [updateSession, hf] at howned
    exact h place hopen howned
  noted _ h := h
  opened path file h place hopen howned := by
    rw [addFile] at howned
    rcases (isOpen_addFile path file).mp hopen with hopen | rfl
    · exact h place hopen fun hmem => howned (List.mem_append_left _ hmem)
    · exact absurd (List.mem_append_right _ (List.mem_singleton_self _)) howned
  fileRead file' h hfile place hopen howned :=
    h place ((isOpen_withFile hfile file' place).mp hopen) howned
  streamRead _ h _ := h
  released h place hopen _ := h place (isOpen_release.mp hopen).1 (isOpen_release.mp hopen).2
  iterated _ h := h
  changed tree h place hopen howned := h place ((isOpen_refresh tree).mp hopen) howned

omit [Source σ] in
theorem OnlyOthers.leaves {w : Workspace σ ψ} {v : Workspace σ χ} (H : OnlyOthers w v)
    (h : v.IsReleased) : LeavesNothing w v :=
  ⟨h, fun place hopen => H place hopen (h.owned ▸ List.not_mem_nil)⟩

omit [Source σ] in
theorem Preserves.gives {P : Workspace σ χ → Prop} {ask : Action σ χ (Option Shape)}
    {shapes : List Shape} {w v : Workspace σ χ} (H : Preserves P ask)
    (hgives : Gives ask shapes w v) (h : P w) : P v := by
  induction hgives with
  | nil => exact h
  | @cons shape shapes w u v first rest ih =>
    have hend := H h
    rw [first] at hend
    exact ih hend

omit [Source σ] in
theorem Preserves.drains {P : Workspace σ χ → Prop} {ask : Action σ χ (Option Shape)}
    {shapes : List Shape} {w : Workspace σ χ}
    {r : EStateM.Result Fault (Workspace σ χ) (Option Shape)} (H : Preserves P ask)
    (hdrains : Drains ask shapes w r) (h : P w) : P (endState r) := by
  obtain ⟨v, hgives, rfl, -⟩ := hdrains
  exact H (H.gives hgives h)

/-! ## The entries agree -/

section
variable {path : String} {w : Workspace σ χ}

/-- What comes of an iterator that is made in the workspace `w` and asked for all its shapes. A
parse whose watcher wants them all ends the same way, leaves the same and has the shapes in mind. If
the iterator is closed after any of its shapes, a parse whose watcher has enough with that one
leaves the same. Either way no file of the session is left open. -/
structure Iterated (path : String) (w : Workspace σ χ) (shapes : List Shape)
    (last : EStateM.Result Fault (Workspace σ χ) (Option Shape)) : Prop where
  drains : Drains (next w.iterators.length) shapes (endState (iterate path w)) last
  leaves : LeavesNothing w (endState last)
  parsed : ∀ (ψ : Type) (answer : Shape → ψ → Bool × ψ) (memo : ψ),
    wantsMore answer shapes memo = true →
    let r := parse path (watcher answer) (w.withMemo memo)
    outcome r = (outcome last).map (fun _ => ()) ∧ (endState r).bare = (endState last).bare ∧
      (endState r).memo = mindAfter answer shapes memo
  stopped : ∀ taken shape, taken ++ [shape] <+: shapes →
    ∃ v, Gives (next w.iterators.length) (taken ++ [shape]) (endState (iterate path w)) v ∧
      LeavesNothing w (endState (closeIterator w.iterators.length v)) ∧
      ∀ (ψ : Type) (answer : Shape → ψ → Bool × ψ) (memo : ψ),
        wantsMore answer taken memo = true →
        (answer shape (mindAfter answer taken memo)).1 = false →
        let r := parse path (watcher answer) (w.withMemo memo)
        outcome r = .ok () ∧
          (endState r).bare = (endState (closeIterator w.iterators.length v)).bare ∧
          (endState r).memo = mindAfter answer (taken ++ [shape]) memo

omit [Source σ] in
theorem ended_released {α : Type} (w : Workspace σ χ) (o : Except Fault α) (v : Workspace σ Unit) :
    (ended w o v).IsReleased := by
  cases o <;> exact ⟨rfl, rfl, rfl⟩

omit [Source σ] in
theorem onlyOthers_iterate (path : String) (w : Workspace σ χ) :
    OnlyOthers w (endState (iterate path w)) := fun _ hopen howned => ⟨hopen, howned⟩

/-- An iterator of files that cannot be opened, or have no headers. -/
theorem iterated_of_error {f : Fault} {v : Workspace σ Unit}
    (h : opening path (w.updateSession .forget).bare = .error f v) :
    Iterated path w [] (.error f (ended w (.error f : Except Fault Unit) v)) := by
  have hnext := next_made w path
  rw [h] at hnext
  refine ⟨⟨_, .nil _, hnext, fun _ _ h => by cases h⟩, ?_, ?_, ?_⟩
  · have hend := (onlyOthers_enduring w).next w.iterators.length (onlyOthers_iterate path w)
    rw [hnext] at hend
    exact hend.leaves (ended_released w _ v)
  · intro ψ answer memo _
    rw [parse_of_error h]
    exact ⟨rfl, rfl, rfl⟩
  · intro taken shape hprefix
    exact absurd (List.prefix_nil.mp hprefix)
      (List.append_ne_nil_of_right_ne_nil taken (List.cons_ne_nil shape []))

theorem exists_iterated (path : String) (w : Workspace σ χ) :
    ∃ shapes last, Iterated path w shapes last := by
  cases h : opening path (w.updateSession .forget).bare with
  | error f v => exact ⟨[], _, iterated_of_error h⟩
  | ok opened v =>
    obtain ⟨handle, rd⟩ := opened
    obtain ⟨shapes, r, H⟩ := Reading.exists_drains (link handle)
      (({ rd with phase := .reading }, v) : Reading × Workspace σ Unit)
    have hothers := onlyOthers_iterate path w
    have hdrains := drains_made h H
    refine ⟨shapes, _, hdrains, ?_, ?_, ?_⟩
    · have hend := ((onlyOthers_enduring w).next w.iterators.length).drains hdrains hothers
      refine hend.leaves ?_
      rw [endState_mapState]
      exact ended_released w _ _
    · intro ψ answer memo hmore
      obtain ⟨houtcome, hend⟩ := parse_of_drains h H hmore
      rw [outcome_mapState, endState_mapState]
      simp only [hend]
      exact ⟨houtcome, rfl, rfl⟩
    · rintro taken shape ⟨rest, rfl⟩
      obtain ⟨t, Ht⟩ := H.gives
      have hgives := gives_made h
        (List.append_ne_nil_of_right_ne_nil taken (List.cons_ne_nil shape [])) Ht
      have hclose : closeIterator w.iterators.length (waiting w v.session handle t) = _ :=
        closeIterator_waiting (Reading.phase_of_gives Ht)
      have hend := (onlyOthers_enduring w).closeIterator w.iterators.length
        (((onlyOthers_enduring w).next w.iterators.length).gives hgives hothers)
      refine ⟨_, hgives, ?_, ?_⟩
      · rw [hclose] at hend ⊢
        exact hend.leaves (ended_released w _ _)
      · intro ψ answer memo hmore henough
        rw [hclose, parse_of_enough h Ht hmore henough]
        exact ⟨rfl, rfl, rfl⟩

/-- All shapes at once are those that an iterator gives. -/
theorem Iterated.gathered {shapes : List Shape}
    {last : EStateM.Result Fault (Workspace σ χ) (Option Shape)}
    (H : Iterated path w shapes last) :
    outcome (Workspace.shapes path w) = (outcome last).map (fun _ => shapes) ∧
      (endState (Workspace.shapes path w)).bare = (endState last).bare := by
  have hparsed := H.parsed _ gathering ([], w.memo) (wantsMore_of_true (fun _ _ => rfl) shapes _)
  simp only at hparsed
  rw [shapes_eq]
  generalize parse path (watcher gathering) (w.withMemo ([], w.memo)) = r at hparsed ⊢
  obtain ⟨houtcome, hbare, hmemo⟩ := hparsed
  rw [mindAfter_gathering, List.append_nil] at hmemo
  generalize outcome last = o at houtcome ⊢
  cases r with
  | ok _ v =>
    have hshapes : v.memo.1.reverse = shapes := by
      rw [show v.memo = _ from hmemo, List.reverse_reverse]
    cases o with
    | ok _ => exact ⟨congrArg Except.ok hshapes, hbare⟩
    | error f => cases houtcome
  | error f v =>
    cases o with
    | ok _ => cases houtcome
    | error g =>
      cases houtcome
      exact ⟨rfl, hbare⟩

end

end Shapefile.Workspace
