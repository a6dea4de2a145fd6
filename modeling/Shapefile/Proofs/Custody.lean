import Shapefile.Proofs.Lockstep
import Shapefile.Session.Iterator

/-! # The files in custody of a session

A session owns the files that it opened, and closes them when a parse or an iterator ends. What
lasts through everything that is done in a workspace, the closing of the session's files included,
lasts through each operation of the session (`Workspace.Enduring`), and whatever comes of an
operation that ends a parse, the session owns nothing afterwards (`Workspace.IsReleased`). -/

namespace Shapefile.Workspace

open Desk (outcome endState)

variable {σ χ α : Type}

/-- There is an open file at a place. -/
def IsOpen (w : Workspace σ χ) (place : Nat) : Prop := ∃ file, w.files[place]? = some (some file)

/-- The session owns no file and reads from nothing. -/
structure IsReleased (w : Workspace σ χ) : Prop where
  owned : w.session.owned = []
  shp : w.session.shp = none
  shx : w.session.shx = none

/-! ## What is open -/

section
variable {w : Workspace σ χ} {place : Nat} {file : OpenFile}

theorem isOpen_addFile (path : String) (file : OpenFile) :
    (w.addFile path file).2.IsOpen place ↔ w.IsOpen place ∨ place = w.files.length := by
  have hopen : (w.addFile path file).2.IsOpen place ↔
      ∃ file', (w.files ++ [some file])[place]? = some (some file') := Iff.rfl
  rcases Nat.lt_trichotomy place w.files.length with hlt | rfl | hgt
  · rw [hopen, List.getElem?_append_left hlt]
    exact (or_iff_left (Nat.ne_of_lt hlt)).symm
  · rw [hopen, List.getElem?_concat_length]
    exact iff_of_true ⟨file, rfl⟩ (.inr rfl)
  · rw [hopen, List.getElem?_eq_none (by rw [List.length_append]; exact hgt)]
    have hnone : w.files[place]? = none := List.getElem?_eq_none (Nat.le_of_lt hgt)
    refine iff_of_false nofun ?_
    rintro (⟨_, h⟩ | h)
    · cases hnone.symm.trans h
    · exact Nat.ne_of_gt hgt h

theorem isOpen_withFile (h : w.files[place]? = some (some file)) (file' : OpenFile) (p : Nat) :
    (w.withFile place file').IsOpen p ↔ w.IsOpen p := by
  obtain ⟨hlt, -⟩ := List.getElem?_eq_some_iff.mp h
  by_cases hp : place = p
  · subst hp
    exact iff_of_true ⟨file', getElem?_withFile hlt file'⟩ ⟨file, h⟩
  · simp only [IsOpen, withFile, List.getElem?_set_ne hp]

/-- Closing files leaves the others open. -/
theorem getElem?_closed (places : List Nat) (files : List (Option OpenFile)) :
    (places.foldl (fun files place => files.set place none) files)[place]? = some (some file) ↔
      files[place]? = some (some file) ∧ place ∉ places := by
  induction places generalizing files with
  | nil => simp
  | cons p places ih =>
    rw [List.foldl_cons, ih, List.mem_cons, not_or]
    by_cases hp : p = place
    · subst hp
      simp [List.getElem?_set]
    · rw [List.getElem?_set_ne hp]
      simp [Ne.symm hp]

theorem isOpen_release : w.release.IsOpen place ↔ w.IsOpen place ∧ place ∉ w.session.owned := by
  simp only [IsOpen, release, getElem?_closed, exists_and_right]

theorem isOpen_refresh (tree : FileTree) :
    ({ w with tree, files := w.files.map (·.map tree.refresh) } : Workspace σ χ).IsOpen place ↔
      w.IsOpen place := by
  simp only [IsOpen, List.getElem?_map]
  cases w.files[place]? with
  | none => simp
  | some file? => cases file? <;> simp

end

/-! ## What endures -/

variable [Source σ]

/-- A property that lasts through all that is done in a workspace. -/
structure Enduring (P : Workspace σ χ → Prop) : Prop where
  updated : ∀ {w f}, P w → (∀ s : Session, (f s).owned = s.owned) → P (w.updateSession f)
  noted : ∀ {w} entry, P w → P (w.note entry)
  opened : ∀ {w} path file, P w → P (w.addFile path file).2
  fileRead : ∀ {w place file} file', P w → w.files[place]? = some (some file) →
    P (w.withFile place file')
  streamRead : ∀ {w place stream} n, P w → w.streams[place]? = some stream →
    P (w.setStream place (endState (Source.read n stream)))
  released : ∀ {w}, P w → P w.release
  iterated : ∀ {w} iterators, P w → P { w with iterators }
  changed : ∀ {w} tree, P w → P { w with tree, files := w.files.map (·.map tree.refresh) }

namespace Enduring

variable {P : Workspace σ χ → Prop} (H : Enduring P)
include H

theorem lasting : Lasting P :=
  ⟨fun h hf => H.updated h hf.owned, H.noted, H.opened, H.fileRead, H.streamRead⟩

theorem recorded (f : Fault) {w : Workspace σ χ} (h : P w) : P (w.updateSession (.record f)) :=
  H.updated h fun s => (congrArg Session.owned (s.record_eq f) :)

/-- It endures beneath whatever else consumers have in mind. -/
theorem beneath (ψ : Type) :
    Enduring fun w : Workspace σ (ψ × χ) => P (w.withMemo w.memo.2) :=
  ⟨fun h hf => H.updated h hf, fun entry h => H.noted entry h,
    fun path file h => H.opened path file h, fun file' h hfile => H.fileRead file' h hfile,
    fun n h hstream => H.streamRead n h hstream, fun h => H.released h,
    fun iterators h => H.iterated iterators h, fun tree h => H.changed tree h⟩

theorem and_memo (Q : χ → Prop) : Enduring fun w => P w ∧ Q w.memo :=
  ⟨fun h hf => ⟨H.updated h.1 hf, h.2⟩, fun entry h => ⟨H.noted entry h.1, h.2⟩,
    fun path file h => ⟨H.opened path file h.1, h.2⟩,
    fun file' h hfile => ⟨H.fileRead file' h.1 hfile, h.2⟩,
    fun n h hstream => ⟨H.streamRead n h.1 hstream, h.2⟩, fun h => ⟨H.released h.1, h.2⟩,
    fun iterators h => ⟨H.iterated iterators h.1, h.2⟩, fun tree h => ⟨H.changed tree h.1, h.2⟩⟩

/-! ## Operations -/

theorem parsing {body : Action σ χ α} (hbody : Preserves P body) :
    Preserves P (Workspace.parsing body) := by
  intro w h
  have hend := hbody (H.updated (f := .forget) h fun _ => rfl)
  simp only [Workspace.parsing, within]
  cases hr : body (w.updateSession .forget) with
  | ok a v =>
    rw [hr] at hend
    exact H.released hend
  | error f v =>
    rw [hr] at hend
    exact H.released (H.recorded f hend)

theorem readRecords {consumer : Consumer σ χ} (C : ∀ shape, Preserves P (consumer shape)) :
    Simulates (Alongside P) (Workspace.readRecords consumer) (Workspace.readRecords consumer) :=
  readRecords_simulates H.lasting.lockstep.toTandem
    (fun _ ⟨h, hP⟩ => ⟨h ▸ rfl, H.updated hP fun _ => rfl⟩) fun shape => (C shape).simulates

theorem parse (path : String) {consumer : Consumer σ χ}
    (C : ∀ shape, Preserves P (consumer shape)) : Preserves P (Workspace.parse path consumer) :=
  H.parsing (.of_simulates ((load_simulates H.lasting.lockstep path).bind fun _ =>
    H.readRecords C))

theorem parseStreams (shp shx : Option Handle) {consumer : Consumer σ χ}
    (C : ∀ shape, Preserves P (consumer shape)) :
    Preserves P (Workspace.parseStreams shp shx consumer) :=
  H.parsing (.of_simulates ((updateSession_simulates H.lasting.lockstep.toTandem {}).bind fun _ =>
    (checkIndex_simulates H.lasting.lockstep.toTandem).bind fun _ => H.readRecords C))

theorem shapes (path : String) : Preserves P (Workspace.shapes path) := by
  intro w h
  have gather : ∀ shape, Preserves (fun w : Workspace σ (List Shape × χ) => P (w.withMemo w.memo.2))
      (fun w => .ok true (w.withMemo (shape :: w.memo.1, w.memo.2))) := fun _ _ h => h
  have hend := (H.beneath (List Shape)).parse path gather (w := w.withMemo ([], w.memo)) h
  simp only [Workspace.shapes]
  cases hr : Workspace.parse path
      (fun shape w => .ok true (w.withMemo (shape :: w.memo.1, w.memo.2)))
      (w.withMemo (([] : List Shape), w.memo)) with
  | ok _ v | error f v =>
    rw [hr] at hend
    exact hend

theorem resume (i : Nat) (handle : Handle) (reading : Reading) (it : Reading.Iterator) :
    Preserves P (Workspace.resume i handle reading it) := by
  intro w h
  have hnext := Desk.endState_alike (Reading.next_simulates
    (link_simulates H.lasting.lockstep.toTandem handle) it (s := (reading, w)) (t := (reading, w))
    ⟨rfl, rfl, h⟩)
  simp only [Workspace.resume]
  cases hr : it.next (link handle) (reading, w) with
  | ok shape? t =>
    rw [hr] at hnext
    cases shape? with
    | some shape => exact H.iterated _ (H.updated hnext.2.2 fun _ => rfl)
    | none => exact H.iterated _ (H.released hnext.2.2)
  | error f t =>
    rw [hr] at hnext
    exact H.iterated _ (H.released (H.recorded f hnext.2.2))

theorem next (i : Nat) : Preserves P (Workspace.next i) := by
  intro w h
  simp only [Workspace.next]
  cases w.iterator i with
  | fresh path =>
    have hopening := Preserves.of_simulates (P := P)
      ((load_simulates H.lasting.lockstep path).bind fun _ =>
        beginReading_simulates H.lasting.lockstep.toTandem)
      (w := w.updateSession .forget) (H.updated h fun _ => rfl)
    simp only
    cases hr : (do load path; beginReading : Action σ χ (Handle × Reading))
        (w.updateSession .forget) with
    | ok begun v =>
      rw [hr] at hopening
      exact H.resume i begun.1 begun.2 .fresh hopening
    | error f v =>
      rw [hr] at hopening
      exact H.iterated _ (H.released (H.recorded f hopening))
  | suspended handle reading => exact H.resume i handle reading .suspended h
  | finished => exact h

theorem closeIterator (i : Nat) : Preserves P (Workspace.closeIterator i) := by
  intro w h
  simp only [Workspace.closeIterator]
  cases w.iterator i with
  | fresh path | finished => exact H.iterated _ h
  | suspended handle reading =>
    have hsettle := Reading.settle_simulates (link_simulates H.lasting.lockstep.toTandem handle)
      (s := (reading, w.release)) (t := (reading, w.release)) ⟨rfl, rfl, H.released h⟩
    exact H.iterated _ hsettle.2.2

theorem changeTree (change : FileTree.Change) : Preserves P (Workspace.changeTree change) := by
  intro w h
  simp only [Workspace.changeTree]
  cases change w.tree with
  | ok _ tree | error _ tree => exact H.changed tree h

end Enduring

/-! ## What is released -/

omit [Source σ] in
theorem release_released (w : Workspace σ χ) : w.release.IsReleased := ⟨rfl, rfl, rfl⟩

omit [Source σ] in
theorem parsing_released (body : Action σ χ α) (w : Workspace σ χ) :
    (endState (parsing body w)).IsReleased := by
  simp only [parsing, within]
  cases body (w.updateSession .forget) with
  | ok a v => exact release_released v
  | error f v => exact release_released (v.updateSession (.record f))

theorem shapes_released (path : String) (w : Workspace σ χ) :
    (endState (shapes path w)).IsReleased := by
  have hend := parsing_released (do
    load path
    readRecords fun shape (w : Workspace σ (List Shape × χ)) =>
      .ok true (w.withMemo (shape :: w.memo.1, w.memo.2))) (w.withMemo ([], w.memo))
  simp only [shapes, parse]
  generalize parsing _ (w.withMemo (([] : List Shape), w.memo)) = r at hend ⊢
  cases r <;> exact ⟨hend.owned, hend.shp, hend.shx⟩

theorem resume_released {i : Nat} {handle : Handle} {reading : Reading} {it : Reading.Iterator}
    {w : Workspace σ χ}
    (hend : ∀ shape, outcome (resume i handle reading it w) ≠ .ok (some shape)) :
    (endState (resume i handle reading it w)).IsReleased := by
  simp only [resume] at hend ⊢
  cases hr : it.next (link handle) (reading, w) with
  | ok shape? t =>
    cases shape? with
    | some shape =>
      rw [hr] at hend
      exact absurd rfl (hend shape)
    | none => exact ⟨rfl, rfl, rfl⟩
  | error f t => exact ⟨rfl, rfl, rfl⟩

/-- An iterator that ends releases the files, unless it had ended before. -/
theorem next_released {i : Nat} {w : Workspace σ χ} (hgoing : w.iterator i ≠ .finished)
    (hend : ∀ shape, outcome (next i w) ≠ .ok (some shape)) : (endState (next i w)).IsReleased := by
  simp only [next] at hend ⊢
  cases hit : w.iterator i with
  | fresh path =>
    simp only [hit] at hend ⊢
    cases hr : (do load path; beginReading : Action σ χ (Handle × Reading))
        (w.updateSession .forget) with
    | ok begun v =>
      rw [hr] at hend
      exact resume_released hend
    | error f v => exact ⟨rfl, rfl, rfl⟩
  | suspended handle reading =>
    rw [hit] at hend
    exact resume_released hend
  | finished => exact absurd hit hgoing

theorem closeIterator_released {i : Nat} {w : Workspace σ χ} {handle : Handle} {reading : Reading}
    (h : w.iterator i = .suspended handle reading) :
    (endState (closeIterator i w)).IsReleased := by
  simp only [closeIterator, h, Reading.Iterator.close, Reading.settle]
  split <;> exact ⟨rfl, rfl, rfl⟩

end Shapefile.Workspace
