import Mathlib.Data.List.Forall2
import Shapefile.Proofs.Custody
import Shapefile.Proofs.SessionClient

/-! # No file is left open

Whatever a client does with a session, before and after each operation the files that are open are
those that the session owns, and the streams of the user have been read and nothing else. After an
operation that ends a parse or an iterator, the session owns no file (`Workspace.in_custody`). -/

namespace Shapefile.Workspace

open Desk (outcome endState)

variable {σ χ : Type}

/-- An event, with the views right before and right after the operation. -/
structure Moment (σ : Type) where
  before : View σ
  event : Event
  after : View σ

/-- Records the moments. -/
def observer : Recorder σ (List (Moment σ)) where
  history moments := moments.map fun m => (m.event, m.after.session)
  event before e after moments := ⟨before, e, after⟩ :: moments

/-- The operation ended a parse or an iterator that had started, or closed the session. -/
inductive Moment.Ends : Moment σ → Prop where
  | parsed (before after : View σ) (path : String) (o : Except Fault Unit) :
    Ends ⟨before, .parsed path o, after⟩
  | parsedStreams (before after : View σ) (o : Except Fault Unit) :
    Ends ⟨before, .parsedStreams o, after⟩
  | gathered (before after : View σ) (path : String) (o : Except Fault (List Shape)) :
    Ends ⟨before, .gathered path o, after⟩
  | exhausted (before after : View σ) (i : Nat) (going : before.iterator i ≠ .finished) :
    Ends ⟨before, .asked i (.ok none), after⟩
  | failed (before after : View σ) (i : Nat) (f : Fault) : Ends ⟨before, .asked i (.error f), after⟩
  | dismissed (before after : View σ) (i : Nat) (handle : Handle) (reading : Reading)
      (started : before.iterator i = .suspended handle reading) :
    Ends ⟨before, .dismissed i, after⟩
  | closed (before after : View σ) : Ends ⟨before, .closed, after⟩

section
variable [Source σ]

/-- What becomes of a source that is read and nothing else. -/
inductive ReadOn : σ → σ → Prop where
  | refl (s : σ) : ReadOn s s
  | read {s t : σ} (n : Int) (before : ReadOn s t) : ReadOn s (endState (Source.read n t))

/-- The open files are those that the session owns, and the streams of the user, which were these
at the start, have been read and nothing else. -/
structure InCustody (start : List σ) (w : Workspace σ χ) : Prop where
  owned : ∀ place, place ∈ w.session.owned ↔ w.IsOpen place
  streams : List.Forall₂ ReadOn start w.streams

/-- The open files are those that the session owns. -/
def OwnsOpen (w : Workspace σ χ) : Prop := ∀ place, place ∈ w.session.owned ↔ w.IsOpen place

theorem readOn_set {start streams : List σ} (H : List.Forall₂ ReadOn start streams) {place : Nat}
    {stream : σ} (hstream : streams[place]? = some stream) (n : Int) :
    List.Forall₂ ReadOn start (streams.set place (endState (Source.read n stream))) := by
  induction H generalizing place with
  | nil => cases hstream
  | cons first rest ih =>
    cases place with
    | zero =>
      cases hstream
      exact .cons (first.read n) rest
    | succ place => exact .cons first (ih hstream)

theorem ownsOpen_enduring : Enduring (OwnsOpen : Workspace σ χ → Prop) where
  updated h hf place := by
    rw [updateSession, hf]
    exact h place
  noted _ h := h
  opened path file h place := by
    rw [isOpen_addFile, ← h place, addFile]
    simp
  fileRead file' h hfile p := (h p).trans (isOpen_withFile hfile file' p).symm
  streamRead _ h _ := h
  released h place := by
    rw [isOpen_release, ← h place]
    exact iff_of_false List.not_mem_nil fun h => h.2 h.1
  iterated _ h := h
  changed tree h place := (h place).trans (isOpen_refresh tree).symm

theorem inCustody_enduring (start : List σ) :
    Enduring (InCustody start : Workspace σ χ → Prop) where
  updated h hf := ⟨ownsOpen_enduring.updated h.owned hf, h.streams⟩
  noted _ h := ⟨h.owned, h.streams⟩
  opened path file h := ⟨ownsOpen_enduring.opened path file h.owned, h.streams⟩
  fileRead file' h hfile := ⟨ownsOpen_enduring.fileRead file' h.owned hfile, h.streams⟩
  streamRead n h hstream := ⟨h.owned, readOn_set h.streams hstream n⟩
  released h := ⟨ownsOpen_enduring.released h.owned, h.streams⟩
  iterated _ h := ⟨h.owned, h.streams⟩
  changed tree h := ⟨ownsOpen_enduring.changed tree h.owned, h.streams⟩

theorem inCustody_init (tree : FileTree) (streams : List σ) (memo : χ) :
    InCustody streams (init tree streams memo) where
  owned _ := iff_of_false List.not_mem_nil nofun
  streams := List.forall₂_same.mpr fun s _ => .refl s

/-! ## Clients -/

/-- What is due at a moment. -/
structure Moment.Due (start : List σ) (m : Moment σ) : Prop where
  before : InCustody start m.before
  after : InCustody start m.after
  released : m.Ends → m.after.IsReleased

/-- The workspace is in custody, and all moments so far are as is due. -/
def Recalls (start : List σ) (w : Workspace σ (List (Moment σ))) : Prop :=
  InCustody start w ∧ ∀ m ∈ w.memo, m.Due start

theorem recalls_enduring (start : List σ) : Enduring (Recalls start) :=
  (inCustody_enduring start).and_memo fun moments : List (Moment σ) => ∀ m ∈ moments, m.Due start

variable {start : List σ}

theorem Recalls.noted {w v : Workspace σ (List (Moment σ))} {e : Event} (H : Recalls start w)
    (H' : Recalls start v) (hends : Moment.Ends ⟨w.view, e, v.view⟩ → v.IsReleased) :
    Recalls start (observer.note w e v) := by
  refine ⟨⟨H'.1.owned, H'.1.streams⟩, ?_⟩
  intro m hm
  rcases List.mem_cons.mp hm with rfl | hm
  · have hreleased (h : Moment.Ends ⟨w.view, e, v.view⟩) : v.view.IsReleased :=
      ⟨(hends h).owned, (hends h).shp, (hends h).shx⟩
    exact ⟨⟨H.1.owned, H.1.streams⟩, ⟨H'.1.owned, H'.1.streams⟩, hreleased⟩
  · exact H'.2 m hm

theorem observer_keeps : observer.Keeps (Recalls start) where
  parsed path _ C w h :=
    h.noted ((recalls_enduring start).parse path C h) fun _ => parsing_released _ w
  parsedStreams shp shx _ C w h :=
    h.noted ((recalls_enduring start).parseStreams shp shx C h) fun _ => parsing_released _ w
  gathered path w h :=
    h.noted ((recalls_enduring start).shapes path h) fun _ => shapes_released path w
  made path w i v hmade h := by
    cases hmade
    exact h.noted ((recalls_enduring start).iterated _ h) fun hends => by cases hends
  asked i w h := by
    refine h.noted ((recalls_enduring start).next i h) fun hends => ?_
    generalize ho : outcome (Workspace.next i w) = o at hends
    cases hends with
    | exhausted _ _ _ going =>
      exact next_released going fun shape hshape => by cases ho.symm.trans hshape
    | failed _ _ _ f =>
      refine next_released (fun hfinished => ?_) fun shape hshape => by cases ho.symm.trans hshape
      simp only [Workspace.next, hfinished] at ho
      cases ho
  dismissed i w h := by
    refine h.noted ((recalls_enduring start).closeIterator i h) fun hends => ?_
    cases hends with
    | dismissed _ _ _ handle reading started => exact closeIterator_released started
  closed w h := h.noted ((recalls_enduring start).released h) fun _ => release_released w
  changed c w h :=
    h.noted ((recalls_enduring start).changeTree c h) fun hends => by cases hends

theorem Client.exec_recalls (c : Client) : Preserves (Recalls start) (c.exec observer) :=
  c.exec_preserves observer_keeps

end

/-- Whatever a client does with a new session, before and after each operation the files that are
open are those that the session owns, and the streams of the user have been read and nothing else.
After each operation that ends a parse or an iterator that had started, whatever its outcome, the
session owns no file and reads from nothing. -/
theorem in_custody [Source σ] (tree : FileTree) (streams : List σ) (c : Client) :
    let w := endState (c.exec observer (.init tree streams []))
    InCustody streams w ∧
      ∀ m ∈ w.memo, InCustody streams m.before ∧ InCustody streams m.after ∧
        (m.Ends → m.after.IsReleased) := by
  have hstart : Recalls streams (init tree streams ([] : List (Moment σ))) :=
    ⟨inCustody_init tree streams [], fun _ hm => absurd hm List.not_mem_nil⟩
  have hend := c.exec_recalls hstart
  exact ⟨hend.1, fun m hm => ⟨(hend.2 m hm).before, (hend.2 m hm).after, (hend.2 m hm).released⟩⟩

end Shapefile.Workspace
