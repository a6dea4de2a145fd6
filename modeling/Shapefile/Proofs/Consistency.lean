import Shapefile.Proofs.Custody
import Shapefile.Proofs.RoundTrip

/-! # Sessions stay consistent

Whatever operations follow each other, iterators left waiting among them, a session keeps only
headers that were accepted, and counts no shapes without a header
(`Workspace.session_consistent`). An iterator that waits counts shapes when it is asked again, and
the header may be gone by then. But then the session has closed all its files, so that the iterator
has nothing to read from (`Workspace.AtRest`). -/

namespace Shapefile

open Desk (outcome endState)

/-! ## Headers that are accepted -/

section
variable {ε : Type} {feed : Feed ε}

namespace Meter

variable {s t : Meter × ε} {n : Int}

theorem readInt32BE_isInt32 (h : readInt32BE feed s = .ok n t) : Bytes.IsInt32 n := by
  obtain ⟨data, u, hread, h⟩ := bind_eq_ok h
  cases h
  exact Bytes.toIntBE_isInt32 (Int.ofNat_inj.mp (length_of_read hread))

theorem readInt32LE_isInt32 (h : readInt32LE feed s = .ok n t) : Bytes.IsInt32 n := by
  obtain ⟨data, u, hread, h⟩ := bind_eq_ok h
  cases h
  exact Bytes.toIntLE_isInt32 (Int.ofNat_inj.mp (length_of_read hread))

theorem readHalves_isInt32 (h : readHalves feed s = .ok n t) : Bytes.IsInt32 n := by
  obtain ⟨low, u, -, h⟩ := bind_eq_ok h
  obtain ⟨high, v, hhigh, h⟩ := bind_eq_ok h
  obtain ⟨data, _, hread, hdata⟩ := bind_eq_ok hhigh
  cases hdata
  cases h
  exact joinHalves_isInt32 low (Int.ofNat_inj.mp (length_of_read hread))

end Meter

namespace Header

theorem readFields_storable {s t : Meter × ε} {h : Header} (H : readFields feed s = .ok h t) :
    h.IsStorable := by
  obtain ⟨code, _, hcode, H⟩ := bind_eq_ok H
  obtain ⟨_, _, -, H⟩ := bind_eq_ok H
  obtain ⟨words, _, hwords, H⟩ := bind_eq_ok H
  obtain ⟨version, _, hversion, H⟩ := bind_eq_ok H
  obtain ⟨type, _, htype, H⟩ := bind_eq_ok H
  obtain ⟨_, _, -, H⟩ := bind_eq_ok H
  obtain ⟨_, _, -, H⟩ := bind_eq_ok H
  obtain ⟨_, _, -, H⟩ := bind_eq_ok H
  obtain ⟨_, _, -, H⟩ := bind_eq_ok H
  cases H
  refine ⟨Meter.readInt32BE_isInt32 hcode, Int.mul_emod_left words 2, ?_,
    Meter.readInt32LE_isInt32 hversion, Meter.readInt32LE_isInt32 htype⟩
  rw [Int.mul_ediv_cancel words (by decide)]
  exact Meter.readHalves_isInt32 hwords

/-- The header is read from some bytes, and no further. -/
def IsAccepted (h : Header) : Prop :=
  ∃ bytes : Bytes, ∀ rest, Header.read Plain.read ⟨bytes ++ rest⟩ = .ok h ⟨rest⟩

/-- What is read anywhere is read from some bytes. -/
theorem read_accepted {e e' : ε} {h : Header} (H : Header.read feed e = .ok h e') :
    h.IsAccepted ∧ h.IsStorable ∧ h.defect? = none := by
  unfold Header.read at H
  split at H
  · rename_i hfields
    split at H
    · rename_i hvalid
      cases H
      have hstorable := readFields_storable hfields
      have hreserved : (List.replicate 20 0 : Bytes).length = 20 := List.length_replicate
      exact ⟨⟨_, fun rest => read_append rest hstorable hvalid hreserved⟩, hstorable, hvalid⟩
    · cases H
  · cases H

/-- What is known of a header that a session keeps. Its type has a name to be told by. -/
structure IsSound (h : Header) : Prop where
  accepted : h.IsAccepted
  fileCode : h.fileCode = magic
  type : ∃ type : ShapeType, h.typeName = .ok type.name
  length : size ≤ h.fileLength
  even : h.fileLength % 2 = 0

theorem read_sound {e e' : ε} {h : Header} (H : Header.read feed e = .ok h e') : h.IsSound := by
  obtain ⟨haccepted, hstorable, hvalid⟩ := read_accepted H
  obtain ⟨hcode, htype, hlength⟩ := defect?_eq_none_iff.mp hvalid
  obtain ⟨type, htype⟩ := Option.isSome_iff_exists.mp htype
  exact ⟨haccepted, hcode, ⟨type, ShapeType.nameOfCode_of_some htype⟩, hlength, hstorable.even⟩

end Header
end

/-- A session whose header is sound has a text that describes it. -/
theorem Session.exists_describe {s : Session} (H : ∀ h, s.header = some h → h.IsSound) :
    ∃ text, s.describe = .ok text := by
  cases hheader : s.header with
  | none => exact ⟨_, by rw [describe, hheader]; rfl⟩
  | some h =>
    obtain ⟨type, htype⟩ := (H h hheader).type
    exact ⟨_, by simp only [describe, hheader, htype]; rfl⟩

namespace Workspace

variable {σ χ : Type}

/-! ## What leaves a session alone -/

/-- The session, its iterators and which files are open are as they were. -/
structure Untouched (w v : Workspace σ χ) : Prop where
  session : v.session = w.session
  iterators : v.iterators = w.iterators
  places : v.files.length = w.files.length
  opens : ∀ place, v.IsOpen place ↔ w.IsOpen place

theorem Untouched.refl (w : Workspace σ χ) : Untouched w w := ⟨rfl, rfl, rfl, fun _ => .rfl⟩

theorem Untouched.trans {u v w : Workspace σ χ} (H : Untouched u v) (H' : Untouched v w) :
    Untouched u w :=
  ⟨H'.session.trans H.session, H'.iterators.trans H.iterators, H'.places.trans H.places,
    fun place => (H'.opens place).trans (H.opens place)⟩

/-- A consumer that does not use the session. It may do anything else, and may fail. -/
structure Outsider (σ χ : Type) where
  act : Consumer σ χ
  untouched : ∀ shape w, Untouched w (endState (act shape w))

theorem changeTree_untouched (change : FileTree.Change) (w : Workspace σ χ) :
    Untouched w (endState (changeTree change w)) := by
  have hfollow (tree : FileTree) :
      Untouched w { w with tree, files := w.files.map (·.map tree.refresh) } :=
    ⟨rfl, rfl, List.length_map _, fun _ => isOpen_refresh tree⟩
  simp only [changeTree]
  cases change w.tree <;> exact hfollow _

section
variable [Source σ] (w : Workspace σ χ) (handle : Handle)

theorem link_untouched :
    Link.Simulates (Alongside (Untouched w)) (link handle) (link handle) where
  feed n := by
    rintro v _ ⟨rfl, H⟩
    cases handle with
    | file place =>
      simp only [link, feed]
      split
      · rename_i file hfile
        refine .ok ⟨rfl, { H with places := ?_, opens := fun p => ?_ }⟩
        · exact List.length_set.trans H.places
        · exact (isOpen_withFile hfile _ p).trans (H.opens p)
      · exact .error ⟨rfl, H⟩
    | stream place =>
      simp only [link, feed]
      split
      · rename_i stream _
        cases Source.read n stream with
        | ok data stream => exact .ok ⟨rfl, { H with }⟩
        | error f stream => exact .error ⟨rfl, { H with }⟩
      · exact .error ⟨rfl, H⟩
  log entry _ := by
    rintro v _ ⟨rfl, H⟩
    exact ⟨rfl, { H with }⟩

theorem header_read_untouched : Untouched w (endState (Header.read (feed handle) w)) :=
  (Desk.endState_alike (Header.read_simulates (link_untouched w handle).feed
    (⟨rfl, .refl w⟩ : Alongside (Untouched w) w w))).2

theorem next_untouched (it : Reading.Iterator) (rd : Reading) :
    Untouched w (endState (it.next (link handle) (rd, w))).2 :=
  (Desk.endState_alike (Reading.next_simulates (link_untouched w handle) it
    (s := (rd, w)) (t := (rd, w)) ⟨rfl, rfl, .refl w⟩)).2.2

theorem run_untouched (consumer : Outsider σ χ) (rd : Reading) :
    Untouched w (endState (Reading.run (link handle) (besideReading consumer.act) (rd, w))).2 := by
  have C (shape : Shape) : Preserves (Untouched w) (consumer.act shape) :=
    fun v h => h.trans (consumer.untouched shape v)
  exact (Desk.endState_alike (Reading.run_simulates (link_untouched w handle)
    (besideReading_simulates fun shape => (C shape).simulates) (s := (rd, w)) (t := (rd, w))
    ⟨rfl, rfl, .refl w⟩)).2.2

end

/-! ## What holds of a session -/

theorem length_closed (places : List Nat) (files : List (Option OpenFile)) :
    (places.foldl (fun files place => files.set place none) files).length = files.length := by
  induction places generalizing files with
  | nil => rfl
  | cons place places ih => rw [List.foldl_cons, ih, List.length_set]

/-- What holds of a session and its workspace at all times. -/
structure Sound (w : Workspace σ χ) : Prop where
  header : ∀ h, w.session.header = some h → h.IsSound
  indexHeader : ∀ h, w.session.indexHeader = some h → h.IsSound
  indexed : w.session.header ≠ none → w.session.indexHeader ≠ none
  counted : w.session.header = none → w.session.shapeCount = 0
  owned : ∀ place, w.IsOpen place → place ∈ w.session.owned
  waiting : ∀ handle rd, .suspended handle rd ∈ w.iterators →
    ∃ place < w.files.length, handle = .file place

/-- What holds between operations. No iterator can give a shape unless there is a header. -/
structure AtRest (w : Workspace σ χ) : Prop extends Sound w where
  closed : w.session.header = none → w.session.owned = []

namespace Sound

variable {w v : Workspace σ χ}

theorem untouched (H : Sound w) (h : Untouched w v) : Sound v := by
  obtain ⟨hsession, hiterators, hplaces, hopens⟩ := h
  refine ⟨?_, ?_, ?_, ?_, ?_, ?_⟩
  · exact hsession ▸ H.header
  · exact hsession ▸ H.indexHeader
  · exact hsession ▸ H.indexed
  · exact hsession ▸ H.counted
  · exact fun place h => hsession ▸ H.owned place ((hopens place).mp h)
  · rw [hiterators, hplaces]
    exact H.waiting

theorem updated (H : Sound w) {f : Session → Session}
    (hheader : (f w.session).header = w.session.header)
    (hindex : (f w.session).indexHeader = w.session.indexHeader)
    (hcount : (f w.session).shapeCount = w.session.shapeCount)
    (howned : (f w.session).owned = w.session.owned) : Sound (w.updateSession f) :=
  ⟨hheader ▸ H.header, hindex ▸ H.indexHeader, hheader ▸ hindex ▸ H.indexed,
    hheader ▸ hcount ▸ H.counted, howned ▸ H.owned, H.waiting⟩

theorem opened (H : Sound w) (path : String) (file : OpenFile) : Sound (w.addFile path file).2 := by
  refine { H with owned := fun place h => ?_, waiting := fun handle rd h => ?_ }
  · rcases (isOpen_addFile path file).mp h with h | rfl
    · exact List.mem_append_left _ (H.owned place h)
    · exact List.mem_append_right _ (List.mem_singleton_self _)
  · obtain ⟨place, hlt, heq⟩ := H.waiting handle rd h
    exact ⟨place, by simp only [addFile, List.length_append]; omega, heq⟩

theorem released (H : Sound w) : AtRest w.release := by
  refine { H with
    owned := fun place h => ?_, waiting := fun handle rd h => ?_, closed := fun _ => rfl }
  · obtain ⟨hopen, hfree⟩ := isOpen_release.mp h
    exact absurd (H.owned place hopen) hfree
  · obtain ⟨place, hlt, heq⟩ := H.waiting handle rd h
    exact ⟨place, (length_closed _ w.files).symm ▸ hlt, heq⟩

theorem forgotten (H : Sound w) : Sound (w.updateSession .forget) :=
  { H with header := nofun, indexHeader := nofun, indexed := absurd rfl, counted := fun _ => rfl }

theorem recorded (H : Sound w) (f : Fault) : Sound (w.updateSession (.record f)) := by
  refine H.updated ?_ ?_ ?_ ?_ <;> rw [Session.record_eq]

theorem noted (H : Sound w) (entry : Entry) : Sound (w.note entry) := { H with }

theorem indexKept (H : Sound w) {h : Header} (hh : h.IsSound) :
    Sound (w.updateSession ({ · with indexHeader := some h })) :=
  { H with indexHeader := fun _ heq => Option.some.inj heq ▸ hh, indexed := fun _ => nofun }

theorem headerKept (H : Sound w) (hindex : w.session.indexHeader ≠ none) {h : Header}
    (hh : h.IsSound) : Sound (w.updateSession ({ · with header := some h })) :=
  { H with header := fun _ heq => Option.some.inj heq ▸ hh, indexed := fun _ => hindex,
           counted := nofun }

theorem shapesCounted (H : Sound w) (hheader : w.session.header ≠ none) (n : Nat) :
    Sound (w.updateSession ({ · with shapeCount := n })) :=
  { H with counted := fun h => absurd h hheader }

theorem turned (H : Sound w) (i : Nat) {it : Session.Iterator}
    (hit : ∀ handle rd, it = .suspended handle rd →
      ∃ place < w.files.length, handle = .file place) : Sound (w.setIterator i it) := by
  refine { H with waiting := fun handle rd h => ?_ }
  rcases List.mem_or_eq_of_mem_set h with h | h
  · exact H.waiting handle rd h
  · exact hit handle rd h.symm

end Sound

theorem AtRest.untouched {w v : Workspace σ χ} (H : AtRest w) (h : Untouched w v) : AtRest v :=
  { H.toSound.untouched h with closed := h.session ▸ H.closed }

theorem AtRest.turned {w : Workspace σ χ} (H : AtRest w) (i : Nat) {it : Session.Iterator}
    (hit : ∀ handle rd, it = .suspended handle rd →
      ∃ place < w.files.length, handle = .file place) : AtRest (w.setIterator i it) :=
  { H.toSound.turned i hit with closed := H.closed }

theorem AtRest.finished {w : Workspace σ χ} (H : AtRest w) (i : Nat) :
    AtRest (w.setIterator i .finished) :=
  H.turned i fun handle rd heq => by cases heq

/-! ## Parses -/

/-- An end with `Q`, or else in a fault and sound all the same. -/
def EndsIn {α : Type} (Q : α → Workspace σ χ → Prop) :
    EStateM.Result Fault (Workspace σ χ) α → Prop
  | .ok a v => Q a v
  | .error _ v => Sound v

def Ensures {α : Type} (P : Workspace σ χ → Prop) (x : Action σ χ α)
    (Q : α → Workspace σ χ → Prop) : Prop := ∀ ⦃w⦄, P w → EndsIn Q (x w)

theorem Ensures.bind {α β : Type} {P : Workspace σ χ → Prop} {x : Action σ χ α}
    {f : α → Action σ χ β} {Q : α → Workspace σ χ → Prop} {R : β → Workspace σ χ → Prop}
    (hx : Ensures P x Q) (hf : ∀ a, Ensures (Q a) (f a) R) : Ensures P (x >>= f) R := by
  intro w h
  have hend := hx h
  cases hr : x w with
  | ok a v =>
    rw [hr] at hend
    rw [bind_of_ok hr]
    exact hf a hend
  | error f v =>
    rw [hr] at hend
    rw [bind_of_error hr]
    exact hend

theorem Ensures.mono {α : Type} {P P' : Workspace σ χ → Prop} {x : Action σ χ α}
    {Q : α → Workspace σ χ → Prop} (hx : Ensures P x Q) (h : ∀ w, P' w → P w) :
    Ensures P' x Q := fun w H => hx (h w H)

/-- The index has been checked. -/
structure Indexed (w : Workspace σ χ) : Prop extends Sound w where
  present : w.session.indexHeader ≠ none

/-- The records are about to be read, from a file of the session's own. -/
structure Opened (w : Workspace σ χ) : Prop extends Indexed w where
  shp : ∀ handle, w.session.shp = some handle → ∃ place < w.files.length, handle = .file place

theorem openConstituent_ensures {P : Workspace σ χ → Prop} (hsound : ∀ {w}, P w → Sound w)
    (hopened : ∀ {w} path file, P w → P (w.addFile path file).2) (c : Constituent) :
    Ensures P (openConstituent c) fun handle v =>
      P v ∧ ∃ place < v.files.length, handle = .file place := by
  intro w H
  have hadded (path : String) (file : OpenFile) : P (w.addFile path file).2 ∧
      ∃ place < (w.addFile path file).2.files.length, (w.addFile path file).1 = .file place :=
    ⟨hopened path file H, w.files.length, by simp [addFile], rfl⟩
  simp only [openConstituent]
  split
  · exact hsound H
  · cases w.tree.open? (w.session.basePath ++ "." ++ c.extension) with
    | ok file => exact hadded _ file
    | error cause =>
      cases w.tree.open? (w.session.basePath ++ "." ++ c.upperExtension) with
      | ok file => exact hadded _ file
      | error cause' => exact hsound H

theorem updateSession_ensures {P Q : Workspace σ χ → Prop} {f : Session → Session}
    (h : ∀ {w}, P w → Q (w.updateSession f)) :
    Ensures P (modify (·.updateSession f) : Action σ χ PUnit) fun _ => Q := fun _ H => h H

section
variable [Source σ]

theorem checkIndex_ensures :
    Ensures Sound (checkIndex : Action σ χ Unit) fun _ => Indexed := by
  intro w H
  cases hshx : w.session.shx with
  | none =>
    simp only [checkIndex, hshx]
    exact H
  | some handle =>
    have hread := header_read_untouched w handle
    simp only [checkIndex, hshx]
    cases hr : Header.read (feed handle) w with
    | ok header v =>
      rw [hr] at hread
      exact ⟨((H.untouched hread).indexKept (Header.read_sound hr)).noted _, Option.some_ne_none _⟩
    | error f v =>
      rw [hr] at hread
      exact H.untouched hread

theorem load_ensures (path : String) :
    Ensures Sound (load path : Action σ χ Unit) fun _ => Opened := by
  refine (updateSession_ensures fun H => H.updated rfl rfl rfl rfl).bind fun _ => ?_
  refine (openConstituent_ensures id (fun _ _ H => H.opened _ _) .shx).bind fun handle => ?_
  refine (updateSession_ensures fun H => H.1.updated rfl rfl rfl rfl).bind fun _ => ?_
  refine checkIndex_ensures.bind fun _ => ?_
  refine (openConstituent_ensures (P := Indexed) (·.toSound)
    (fun path file H => ⟨H.opened path file, H.present⟩) .shp).bind fun handle => ?_
  refine updateSession_ensures fun ⟨H, hhandle⟩ => ?_
  exact ⟨⟨H.updated rfl rfl rfl rfl, H.present⟩, fun _ heq => Option.some.inj heq ▸ hhandle⟩

/-- The handle is the session's, of which `K` is known. -/
theorem beginReading_ensures (K : Handle → Nat → Prop) :
    Ensures (fun w => Indexed w ∧ ∀ handle, w.session.shp = some handle → K handle w.files.length)
      (beginReading : Action σ χ (Handle × Reading))
      fun begun v => Sound v ∧ v.session.header ≠ none ∧ K begun.1 v.files.length := by
  intro w ⟨H, hK⟩
  cases hshp : w.session.shp with
  | none =>
    simp only [beginReading, hshp]
    exact H.toSound
  | some handle =>
    have hread := header_read_untouched w handle
    simp only [beginReading, hshp]
    cases hr : Header.read (feed handle) w with
    | ok header v =>
      rw [hr] at hread
      have hindex : v.session.indexHeader ≠ none := hread.session ▸ H.present
      have hplaces : v.files.length = w.files.length := hread.places
      refine ⟨((H.untouched hread).headerKept hindex (Header.read_sound hr)).noted _,
        Option.some_ne_none _, ?_⟩
      exact hplaces ▸ hK handle hshp
    | error f v =>
      rw [hr] at hread
      exact H.untouched hread

theorem readRecords_ensures (consumer : Outsider σ χ) :
    Ensures Indexed (readRecords consumer.act) fun _ => Sound := by
  refine ((beginReading_ensures fun _ _ => True).bind fun ⟨handle, rd⟩ => ?_).mono
    fun w H => ⟨H, fun _ _ => trivial⟩
  rintro w ⟨H, hheader, -⟩
  have hrun := run_untouched w handle consumer rd
  simp only
  cases hr : Reading.run (link handle) (besideReading consumer.act) (rd, w) with
  | ok n t | error f t =>
    rw [hr] at hrun
    have hheader' : t.2.session.header ≠ none := hrun.session ▸ hheader
    exact (H.untouched hrun).shapesCounted hheader' t.1.shapeCount

omit [Source σ] in
theorem parsing_atRest {α : Type} {body : Action σ χ α} (h : Ensures Sound body fun _ => Sound)
    {w : Workspace σ χ} (H : Sound w) : AtRest (endState (parsing body w)) := by
  have hend := h H.forgotten
  simp only [parsing, within]
  cases hr : body (w.updateSession .forget) with
  | ok a v =>
    rw [hr] at hend
    exact hend.released
  | error f v =>
    rw [hr] at hend
    exact (hend.recorded f).released

theorem parse_atRest (path : String) (consumer : Outsider σ χ) {w : Workspace σ χ} (H : Sound w) :
    AtRest (endState (parse path consumer.act w)) :=
  parsing_atRest ((load_ensures path).bind fun _ =>
    (readRecords_ensures consumer).mono fun _ H => H.toIndexed) H

theorem parseStreams_atRest (shp shx : Option Handle) (consumer : Outsider σ χ)
    {w : Workspace σ χ} (H : Sound w) :
    AtRest (endState (parseStreams shp shx consumer.act w)) :=
  parsing_atRest ((updateSession_ensures fun H => H.updated rfl rfl rfl rfl).bind fun _ =>
    checkIndex_ensures.bind fun _ => readRecords_ensures consumer) H

/-- Gathers shapes in the first part of the memo. -/
def gatherer : Outsider σ (List Shape × χ) where
  act shape w := .ok true (w.withMemo (shape :: w.memo.1, w.memo.2))
  untouched _ w := { Untouched.refl w with }

theorem shapes_atRest (path : String) {w : Workspace σ χ} (H : Sound w) :
    AtRest (endState (shapes path w)) := by
  have hstart : Sound (w.withMemo (([] : List Shape), w.memo)) := { H with }
  have hend := parse_atRest path gatherer hstart
  simp only [shapes]
  generalize hr : parse path (fun shape w => .ok true (w.withMemo (shape :: w.memo.1, w.memo.2)))
    (w.withMemo (([] : List Shape), w.memo)) = r
  have hend : AtRest (endState r) := hr ▸ hend
  cases r <;> exact { hend with }

/-! ## Iterators -/

/-- From a file that was closed no record is read. The reading ends, and does not fail. -/
theorem advance_of_closed {w : Workspace σ χ} {place : Nat} (h : ¬ w.IsOpen place) {rd : Reading}
    (hleft : ¬ rd.left ≤ 0) :
    Reading.advance (link (.file place)) (rd, w) =
      .error .closedFile (Reading.settle (link (.file place)) (rd, w)) := by
  have hfeed : (link (.file place)).feed 4 w = .error .closedFile w := by
    simp only [link, feed]
    split
    · rename_i file hfile
      exact absurd ⟨file, hfile⟩ h
    · rfl
  have hread : Meter.read (link (.file place)).feed 4 (rd.meter, w) =
      .error .closedFile (rd.meter, w) := by
    simp only [Meter.read, hfeed]
    rfl
  have hrecord : Record.read (link (.file place)).feed rd.shapeCount (rd.meter, w) =
      .error .closedFile (rd.meter, w) := by
    have hheader : RecordHeader.read (link (.file place)).feed (rd.meter, w) = _ :=
      bind_of_error (bind_of_error hread)
    rw [Record.read_eq, hheader]
  simp only [Reading.advance, if_neg hleft, hrecord]
  rfl

theorem advance_closed {w : Workspace σ χ} {place : Nat} (h : ¬ w.IsOpen place) (rd : Reading)
    (shape : Shape) (t : Reading × Workspace σ χ) :
    Reading.advance (link (.file place)) (rd, w) ≠ .ok (some shape) t := by
  by_cases hleft : rd.left ≤ 0
  · rw [Reading.advance_of_left hleft]
    nofun
  · rw [advance_of_closed h hleft]
    nofun

theorem resume_atRest {w : Workspace σ χ} (H : Sound w) (i : Nat) {place : Nat}
    (hplace : place < w.files.length) {rd : Reading} {it : Reading.Iterator}
    (hgave : ∀ shape t, it.next (link (.file place)) (rd, w) = .ok (some shape) t →
      w.session.header ≠ none) :
    AtRest (endState (resume i (.file place) rd it w)) := by
  have hnext := next_untouched w (.file place) it rd
  simp only [resume]
  cases hr : it.next (link (.file place)) (rd, w) with
  | error f t =>
    rw [hr] at hnext
    exact ((H.untouched hnext).recorded f).released.finished i
  | ok shape? t =>
    rw [hr] at hnext
    cases shape? with
    | none => exact (H.untouched hnext).released.finished i
    | some shape =>
      have hheader : t.2.session.header ≠ none := hnext.session ▸ hgave shape t hr
      have hcounted := (H.untouched hnext).shapesCounted hheader t.1.shapeCount
      have hrest : AtRest (t.2.updateSession ({ · with shapeCount := t.1.shapeCount })) :=
        { hcounted with closed := fun h => absurd h hheader }
      refine hrest.turned i fun handle rd heq => ?_
      cases heq
      exact ⟨place, hnext.places.symm ▸ hplace, rfl⟩

omit [Source σ] in
theorem mem_iterators {w : Workspace σ χ} {i : Nat} {handle : Handle} {rd : Reading}
    (h : w.iterator i = .suspended handle rd) : .suspended handle rd ∈ w.iterators := by
  rw [iterator, List.getD_eq_getElem?_getD] at h
  cases hi : w.iterators[i]? with
  | none => rw [hi] at h; cases h
  | some it => rw [hi] at h; exact List.mem_of_getElem? (hi.trans (congrArg some h))

theorem next_atRest {w : Workspace σ χ} (H : AtRest w) (i : Nat) :
    AtRest (endState (next i w)) := by
  simp only [next]
  cases hit : w.iterator i with
  | finished => exact H
  | suspended handle rd =>
    obtain ⟨place, hplace, rfl⟩ := H.waiting handle rd (mem_iterators hit)
    refine resume_atRest H.toSound i hplace fun shape t hgave hheader => ?_
    have hclosed : ¬ w.IsOpen place := fun hopen => by
      have hmem := H.owned place hopen
      rw [H.closed hheader] at hmem
      cases hmem
    exact advance_closed hclosed rd shape t hgave
  | fresh path =>
    have hopening := ((load_ensures (σ := σ) (χ := χ) path).bind fun _ =>
      (beginReading_ensures fun handle n => ∃ place < n, handle = .file place).mono
        fun w H => ⟨H.toIndexed, H.shp⟩) H.forgotten
    simp only
    cases hr : (do load path; beginReading : Action σ χ (Handle × Reading))
        (w.updateSession .forget) with
    | ok begun v =>
      rw [hr] at hopening
      obtain ⟨handle, rd⟩ := begun
      obtain ⟨hsound, hheader, place, hplace, rfl⟩ := hopening
      exact resume_atRest hsound i hplace fun _ _ _ => hheader
    | error f v =>
      rw [hr] at hopening
      exact (hopening.recorded f).released.finished i

theorem closeIterator_atRest {w : Workspace σ χ} (H : AtRest w) (i : Nat) :
    AtRest (endState (closeIterator i w)) := by
  simp only [closeIterator]
  cases w.iterator i with
  | fresh path | finished => exact H.finished i
  | suspended handle rd =>
    have hsettle : Untouched w.release
        (Reading.Iterator.suspended.close (link handle) (rd, w.release)).2 :=
      (Reading.settle_simulates (link_untouched w.release handle) (s := (rd, w.release))
        (t := (rd, w.release)) ⟨rfl, rfl, .refl _⟩).2.2
    exact (H.released.untouched hsettle).finished i

end

/-! ## Operations -/

/-- An operation on a session and its workspace. -/
inductive Operation (σ χ : Type) where
  | parse (path : String) (consumer : Outsider σ χ)
  | parseStreams (shp shx : Option Handle) (consumer : Outsider σ χ)
  | shapes (path : String)
  | iterate (path : String)
  | next (i : Nat)
  | closeIterator (i : Nat)
  | close
  | change (change : FileTree.Change)

theorem init_atRest (tree : FileTree) (streams : List σ) (memo : χ) :
    AtRest (init tree streams memo) where
  header := nofun
  indexHeader := nofun
  indexed := absurd rfl
  counted _ := rfl
  owned place h := by obtain ⟨_, h⟩ := h; cases h
  waiting _ _ h := by cases h
  closed _ := rfl

variable [Source σ]

/-- The workspace after an operation, whatever its outcome. -/
def Operation.perform (w : Workspace σ χ) : Operation σ χ → Workspace σ χ
  | parse path consumer => endState (Workspace.parse path consumer.act w)
  | parseStreams shp shx consumer => endState (Workspace.parseStreams shp shx consumer.act w)
  | shapes path => endState (Workspace.shapes path w)
  | iterate path => endState (Workspace.iterate path w)
  | next i => endState (Workspace.next i w)
  | closeIterator i => endState (Workspace.closeIterator i w)
  | close => endState (Workspace.close w)
  | change c => endState (changeTree c w)

theorem Operation.perform_atRest {w : Workspace σ χ} (H : AtRest w) (op : Operation σ χ) :
    AtRest (op.perform w) := by
  cases op with
  | parse path consumer => exact parse_atRest path consumer H.toSound
  | parseStreams shp shx consumer => exact parseStreams_atRest shp shx consumer H.toSound
  | shapes path => exact shapes_atRest path H.toSound
  | iterate path =>
    refine { H with waiting := fun handle rd h => ?_ }
    rcases List.mem_append.mp h with h | h
    · exact H.waiting handle rd h
    · cases List.mem_singleton.mp h
  | next i => exact next_atRest H i
  | closeIterator i => exact closeIterator_atRest H i
  | close => exact H.released
  | change c => exact H.untouched (changeTree_untouched c w)

theorem perform_all_atRest {w : Workspace σ χ} (H : AtRest w) (ops : List (Operation σ χ)) :
    AtRest (ops.foldl Operation.perform w) := by
  induction ops generalizing w with
  | nil => exact H
  | cons op ops ih => exact ih (op.perform_atRest H)

/-- After any operations on a new session, both headers are ones that would be accepted again, there
is none without that of the index, and nothing is counted without a header. The session can be
described, for there is a name for the type of the shapes. -/
theorem session_consistent (tree : FileTree) (streams : List σ) (memo : χ)
    (ops : List (Operation σ χ)) :
    let s := (ops.foldl Operation.perform (init tree streams memo)).session
    (∀ h, s.header = some h → h.IsSound) ∧ (∀ h, s.indexHeader = some h → h.IsSound) ∧
      (s.header ≠ none → s.indexHeader ≠ none) ∧ (s.header = none → s.shapeCount = 0) ∧
      ∃ text, s.describe = .ok text := by
  have H := perform_all_atRest (init_atRest tree streams memo) ops
  exact ⟨H.header, H.indexHeader, H.indexed, H.counted, Session.exists_describe H.header⟩

end Workspace
end Shapefile
