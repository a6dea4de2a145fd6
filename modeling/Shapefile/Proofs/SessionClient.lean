import Shapefile.Proofs.Lockstep
import Shapefile.Session.Iterator

/-! # Clients of a session

A client uses a session in every way there is: it parses, makes iterators, asks and closes them, and
closes the session, from inside its own consumers too, and the files change meanwhile. What is
recorded of this is up to the recorder (`Workspace.Client.exec`), and what every operation keeps,
every client keeps (`Workspace.Client.exec_preserves`). -/

namespace Shapefile.Workspace

open Desk (outcome endState)

variable {σ χ : Type}

inductive Event where
  | parsed (path : String) (outcome : Except Fault Unit)
  | parsedStreams (outcome : Except Fault Unit)
  /-- All shapes were asked for at once. -/
  | gathered (path : String) (outcome : Except Fault (List Shape))
  | made (i : Nat)
  /-- An iterator was asked for a shape. -/
  | asked (i : Nat) (outcome : Except Fault (Option Shape))
  | dismissed (i : Nat)
  | closed
  /-- The files were changed, which is none of the session's doing. -/
  | changed (outcome : Except Fault Unit)

/-- The fault that an operation of the session ended with. -/
def Event.fault? : Event → Option Fault
  | parsed _ (.error f) | parsedStreams (.error f) | gathered _ (.error f) | asked _ (.error f) =>
    some f
  | _ => none

/-- The events so far, the latest first, each with the session right after it. -/
abbrev History := List (Event × Session)

/-- Code that uses a session. It goes on with what comes of each operation, faults included, and
knows all that happened so far; a consumer ends with an answer or a fault. -/
inductive Client where
  | answer (more : Bool)
  | fail (f : Fault)
  | remember (k : History → Client)
  | parse (path : String) (consumer : Shape → Client) (k : Except Fault Unit → Client)
  | parseStreams (shp shx : Option Handle) (consumer : Shape → Client)
    (k : Except Fault Unit → Client)
  | shapes (path : String) (k : Except Fault (List Shape) → Client)
  | iterate (path : String) (k : Nat → Client)
  | next (i : Nat) (k : Except Fault (Option Shape) → Client)
  | closeIterator (i : Nat) (k : Client)
  | close (k : Client)
  | change (c : FileTree.Change) (k : Except Fault Unit → Client)

/-- A workspace, without what the consumers have in mind. -/
abbrev View (σ : Type) := Workspace σ Unit

def view (w : Workspace σ χ) : View σ := w.withMemo ()

/-- What is put on record of what a client does. -/
structure Recorder (σ χ : Type) where
  /-- What the record tells the client. -/
  history : χ → History
  /-- Records an event, with the views right before and right after the operation. -/
  event : (before : View σ) → Event → (after : View σ) → χ → χ

namespace Recorder

variable (R : Recorder σ χ) {α : Type}

def note (before : Workspace σ χ) (e : Event) (w : Workspace σ χ) : Workspace σ χ :=
  w.withMemo (R.event before.view e w.view w.memo)

/-- Does an operation, and goes on with what comes of it once this is on record. -/
def after (x : Action σ χ α) (e : Except Fault α → Event)
    (k : Except Fault α → Action σ χ Bool) : Action σ χ Bool := fun w =>
  let r := x w
  k (outcome r) (R.note w (e (outcome r)) (endState r))

end Recorder

/-- What a client does, with what is on record of it. -/
def Client.exec [Source σ] (R : Recorder σ χ) : Client → Action σ χ Bool
  | answer more => fun w => .ok more w
  | fail f => fun w => .error f w
  | remember k => fun w => (k (R.history w.memo)).exec R w
  | parse path consumer k =>
    R.after (Workspace.parse path fun shape => (consumer shape).exec R) (.parsed path)
      fun o => (k o).exec R
  | parseStreams shp shx consumer k =>
    R.after (Workspace.parseStreams shp shx fun shape => (consumer shape).exec R) .parsedStreams
      fun o => (k o).exec R
  | shapes path k => R.after (Workspace.shapes path) (.gathered path) fun o => (k o).exec R
  | iterate path k => fun w =>
    match Workspace.iterate path w with
    | .ok i v => (k i).exec R (R.note w (.made i) v)
    | .error f v => .error f v
  | next i k => R.after (Workspace.next i) (.asked i) fun o => (k o).exec R
  | closeIterator i k =>
    R.after (Workspace.closeIterator i) (fun _ => .dismissed i) fun _ => k.exec R
  | close k => R.after Workspace.close (fun _ => .closed) fun _ => k.exec R
  | change c k => R.after (changeTree c) .changed fun o => (k o).exec R

namespace Recorder

variable {R : Recorder σ χ} {P : Workspace σ χ → Prop} {α : Type}

/-- `P` holds once an operation is on record if it did before. -/
def KeepsAfter (R : Recorder σ χ) (P : Workspace σ χ → Prop) (x : Action σ χ α)
    (e : Except Fault α → Event) : Prop :=
  ∀ ⦃w⦄, P w → P (R.note w (e (outcome (x w))) (endState (x w)))

theorem KeepsAfter.preserves {x : Action σ χ α} {e : Except Fault α → Event}
    (H : R.KeepsAfter P x e) {k : Except Fault α → Action σ χ Bool}
    (hk : ∀ o, Preserves P (k o)) : Preserves P (R.after x e k) :=
  fun _ h => hk _ (H h)

/-- Each operation keeps `P`, if its consumer does. -/
structure Keeps [Source σ] (R : Recorder σ χ) (P : Workspace σ χ → Prop) : Prop where
  parsed : ∀ path {consumer : Consumer σ χ}, (∀ shape, Preserves P (consumer shape)) →
    R.KeepsAfter P (parse path consumer) (.parsed path)
  parsedStreams : ∀ shp shx {consumer : Consumer σ χ}, (∀ shape, Preserves P (consumer shape)) →
    R.KeepsAfter P (parseStreams shp shx consumer) .parsedStreams
  gathered : ∀ path, R.KeepsAfter P (shapes path) (.gathered path)
  made : ∀ path {w i v}, iterate path w = .ok i v → P w → P (R.note w (.made i) v)
  asked : ∀ i, R.KeepsAfter P (next i) (.asked i)
  dismissed : ∀ i, R.KeepsAfter P (closeIterator i) fun _ => .dismissed i
  closed : R.KeepsAfter P close fun _ => .closed
  changed : ∀ c, R.KeepsAfter P (changeTree c) .changed

end Recorder

/-- What every operation keeps, every client keeps. -/
theorem Client.exec_preserves [Source σ] {R : Recorder σ χ} {P : Workspace σ χ → Prop}
    (K : R.Keeps P) (c : Client) : Preserves P (c.exec R) := by
  induction c with
  | answer | fail => exact fun _ h => h
  | remember k ih => exact fun w h => ih _ h
  -- The consumer is a client too.
  | parse path consumer k ihc ih => exact (K.parsed path ihc).preserves ih
  | parseStreams shp shx consumer k ihc ih => exact (K.parsedStreams shp shx ihc).preserves ih
  | shapes path k ih => exact (K.gathered path).preserves ih
  | iterate path k ih => exact fun w h => ih _ (K.made path rfl h)
  | next i k ih => exact (K.asked i).preserves ih
  | closeIterator i k ih => exact (K.dismissed i).preserves fun _ => ih
  | close k ih => exact K.closed.preserves fun _ => ih
  | change c k ih => exact (K.changed c).preserves ih

end Shapefile.Workspace
