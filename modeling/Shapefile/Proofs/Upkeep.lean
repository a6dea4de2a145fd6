import Shapefile.Proofs.Lockstep
import Shapefile.Session.Iterator

/-! # What a session keeps

Nothing that a session does touches its last message or what the consumers have in mind, consumers
apart, until a parse ends or an iterator is asked: then the message of the fault is kept, if there
is one to keep (`Workspace.parsing_ends`, `Workspace.next_ends`). -/

namespace Shapefile

open Desk (outcome endState)

/-- The text that is kept of a fault, if it is a problem of the files or of the memory. -/
def Fault.kept? (f : Fault) : Option String :=
  if f.isShapefile then some (String.ofList (f.message.toList.take 255))
  else if f.isMemory then some "Out of memory"
  else none

/-- The last message after an outcome, where `error` was the one before. -/
def lastAfter {α : Type} (o : Except Fault α) (error : String) : String :=
  match o with
  | .ok _ => error
  | .error f => f.kept?.getD error

theorem Message.shorten_errorLimit (text : String) :
    shorten text errorLimit = String.ofList (text.toList.take 255) := by
  have hlimit : (if errorLimit - 1 < 0 then (text.length : Int) + (errorLimit - 1)
      else errorLimit - 1).toNat = 255 := rfl
  simp only [shorten]
  split
  · rename_i h
    have hlength : text.toList.length ≤ 255 := by
      rw [String.length_toList]
      simp only [errorLimit] at h
      omega
    rw [List.take_of_length_le hlength, String.ofList_toList]
  · rw [hlimit]

theorem Session.error_record (f : Fault) (s : Session) :
    (s.record f).error = f.kept?.getD s.error := by
  have hmemory : Message.shorten "Out of memory" Message.errorLimit = "Out of memory" := by decide
  unfold Session.record Fault.kept?
  split
  · simp only [Message.shorten_errorLimit, Option.getD_some]
  · split
    · simp only [hmemory, Option.getD_some]
    · simp only [Option.getD_none]

namespace Workspace

variable {σ χ α β : Type} {P : String → χ → Prop}

/-- `P` holds of the last message and of what the consumers have in mind. -/
def Holds (P : String → χ → Prop) (w : Workspace σ χ) : Prop := P w.session.error w.memo

/-- Whatever comes of a computation, `P` holds after it if it did before. -/
def Keeps (P : String → χ → Prop) (x : Action σ χ α) : Prop :=
  ∀ ⦃w⦄, Holds P w → Holds P (endState (x w))

/-- `P` may hold no more after a computation, but held of a message that the outcome replaced. -/
def Ends (P : String → χ → Prop) (x : Action σ χ α) : Prop :=
  ∀ ⦃w⦄, Holds P w → ∃ error, P error (endState (x w)).memo ∧
    (endState (x w)).session.error = lastAfter (outcome (x w)) error

/-- The same workspace, of which `P` holds. -/
def Same (P : String → χ → Prop) (w v : Workspace σ χ) : Prop := w = v ∧ Holds P w

namespace Keeps

theorem simulates {x : Action σ χ α} (H : Keeps P x) : Simulates (Same P) x x :=
  Preserves.simulates (P := Holds P) H

theorem of_simulates {x : Action σ χ α} (H : Simulates (Same P) x x) : Keeps P x :=
  Preserves.of_simulates (P := Holds P) H

end Keeps

/-! ## Whatever the source -/

theorem close_keeps : Keeps P (close (σ := σ)) := fun _ h => h

theorem changeTree_keeps (change : FileTree.Change) : Keeps P (changeTree (σ := σ) change) := by
  intro w h
  simp only [changeTree]
  split <;> exact h

theorem parsing_ends {body : Action σ χ α} (H : Keeps P body) : Ends P (parsing body) := by
  intro w h
  have hend : Holds P (endState (body (w.updateSession .forget))) := H h
  simp only [parsing, within]
  cases hr : body (w.updateSession .forget) with
  | ok a v =>
    rw [hr] at hend
    exact ⟨v.session.error, hend, rfl⟩
  | error f v =>
    rw [hr] at hend
    exact ⟨v.session.error, hend, Session.error_record f v.session⟩

/-! ## Reading -/

variable [Source σ]

theorem holds_lasting : Lasting (σ := σ) (Holds P) where
  updated h hf := by
    simp only [Holds, updateSession, hf.error]
    exact h
  noted _ h := h
  opened _ _ h := h
  fileRead _ h _ := h
  streamRead _ h _ := h

theorem same_lockstep : Lockstep (Same (σ := σ) P) := holds_lasting.lockstep

theorem readRecords_keeps {consumer : Consumer σ χ} (C : ∀ shape, Keeps P (consumer shape)) :
    Simulates (Same P) (readRecords consumer) (readRecords consumer) :=
  readRecords_simulates same_lockstep.toTandem (fun _ ⟨h, hP⟩ => ⟨h ▸ rfl, hP⟩) fun shape =>
    (C shape).simulates

/-! ## Parses and iterators -/

theorem parse_ends (path : String) {consumer : Consumer σ χ}
    (C : ∀ shape, Keeps P (consumer shape)) : Ends P (parse path consumer) :=
  parsing_ends (.of_simulates ((load_simulates same_lockstep path).bind fun _ =>
    readRecords_keeps C))

theorem parseStreams_ends (shp shx : Option Handle) {consumer : Consumer σ χ}
    (C : ∀ shape, Keeps P (consumer shape)) : Ends P (parseStreams shp shx consumer) :=
  parsing_ends (.of_simulates ((updateSession_simulates same_lockstep.toTandem {}).bind fun _ =>
    (checkIndex_simulates same_lockstep.toTandem).bind fun _ => readRecords_keeps C))

theorem shapes_ends (path : String) : Ends P (shapes (σ := σ) path) := by
  intro w h
  have C (shape : Shape) : Keeps (fun error memo => P error memo.2)
      fun w : Workspace σ (List Shape × χ) =>
        .ok true (w.withMemo (shape :: w.memo.1, w.memo.2)) := fun _ h => h
  obtain ⟨error, hP, herror⟩ := parse_ends path C (w := w.withMemo ([], w.memo)) h
  simp only [shapes]
  cases hr : parse path (fun shape w => .ok true (w.withMemo (shape :: w.memo.1, w.memo.2)))
      (w.withMemo (([] : List Shape), w.memo)) with
  | ok _ v | error f v =>
    rw [hr] at hP herror
    exact ⟨error, hP, herror⟩

theorem resume_ends (i : Nat) (handle : Handle) (reading : Reading) (it : Reading.Iterator) :
    Ends P (resume (σ := σ) i handle reading it) := by
  intro w h
  have hnext := Reading.next_simulates (link_simulates same_lockstep.toTandem handle) it
    (s := (reading, w)) (t := (reading, w)) ⟨rfl, rfl, h⟩
  simp only [resume]
  cases hr : it.next (link handle) (reading, w) with
  | ok shape? t =>
    rw [hr] at hnext
    cases hnext with
    | ok h' => cases shape? <;> exact ⟨_, h'.2.2, rfl⟩
  | error f t =>
    rw [hr] at hnext
    cases hnext with
    | error h' => exact ⟨_, h'.2.2, Session.error_record f t.2.session⟩

theorem next_ends (i : Nat) : Ends P (next (σ := σ) i) := by
  intro w h
  simp only [next]
  cases w.iterator i with
  | fresh path =>
    have hopening := Keeps.of_simulates (P := P) ((load_simulates same_lockstep path).bind fun _ =>
      beginReading_simulates same_lockstep.toTandem) (w := w.updateSession .forget) h
    simp only
    cases hr : (do load path; beginReading : Action σ χ (Handle × Reading))
        (w.updateSession .forget) with
    | ok begun v =>
      rw [hr] at hopening
      exact resume_ends i begun.1 begun.2 .fresh hopening
    | error f v =>
      rw [hr] at hopening
      exact ⟨_, hopening, Session.error_record f v.session⟩
  | suspended handle reading => exact resume_ends i handle reading .suspended h
  | finished => exact ⟨_, h, rfl⟩

theorem closeIterator_keeps (i : Nat) : Keeps P (closeIterator (σ := σ) i) := by
  intro w h
  simp only [closeIterator]
  cases w.iterator i with
  | fresh path | finished => exact h
  | suspended handle reading =>
    have hsettle := Reading.settle_simulates
      (link_simulates (same_lockstep (P := P)).toTandem handle)
      (s := (reading, w.release)) (t := (reading, w.release)) ⟨rfl, rfl, h⟩
    exact hsettle.2.2

end Workspace
end Shapefile
