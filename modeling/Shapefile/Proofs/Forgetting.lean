import Shapefile.Proofs.Consistency
import Shapefile.Proofs.OpenFiles
import Shapefile.Proofs.SideBySide

/-! # A parse forgets what was before

What comes of a parse depends on the path or the streams, the surroundings and the consumer, and on
nothing that the session went through before (`Workspace.parse_forgets`). Two sessions may have
other files open, so the handles that they read through differ. While they read, the files behind
the handles are alike (`Workspace.Through`). -/

namespace Shapefile.Workspace

open Desk (outcome endState)

variable {σ χ : Type}

/-- What is around a session: the files that it can open, the streams of the user and what the
consumers have in mind. -/
structure Surroundings (σ χ : Type) where
  tree : FileTree
  streams : List σ
  memo : χ

/-- A session, with all that it has open and its iterators, in other surroundings. -/
def Surroundings.around (o : Surroundings σ χ) (v : View σ) : Workspace σ χ :=
  { v with tree := o.tree, streams := o.streams, memo := o.memo }

def surroundings (w : Workspace σ χ) : Surroundings σ χ := ⟨w.tree, w.streams, w.memo⟩

/-- A workspace when its surroundings have changed. The files that are open follow the change. -/
def amidst (o : Surroundings σ χ) (w : Workspace σ χ) : Workspace σ χ :=
  { w with
    tree := o.tree, streams := o.streams, memo := o.memo
    files := w.files.map (·.map o.tree.refresh) }

/-- A consumer that uses what is around a session, and not the session. It may fail. -/
def neighbour (act : Shape → Surroundings σ χ → Except Fault Bool × Surroundings σ χ) :
    Consumer σ χ := fun shape w =>
  match act shape w.surroundings with
  | (.ok more, o) => .ok more (w.amidst o)
  | (.error f, o) => .error f (w.amidst o)

/-- What came of a parse and what is around is the same in two workspaces, and so is the base path
if they are `named` alike. -/
structure Level (named : Prop) (w w' : Workspace σ χ) : Prop where
  tree : w'.tree = w.tree
  streams : w'.streams = w.streams
  memo : w'.memo = w.memo
  header : w'.session.header = w.session.header
  indexHeader : w'.session.indexHeader = w.session.indexHeader
  shapeCount : w'.session.shapeCount = w.session.shapeCount
  basePath : named → w'.session.basePath = w.session.basePath

/-- Handles of open files that are alike, or of one stream. -/
inductive Matched (w w' : Workspace σ χ) : Handle → Handle → Prop where
  | file {place place' : Nat} {file : OpenFile} (left : w.files[place]? = some (some file))
      (right : w'.files[place']? = some (some file)) : Matched w w' (.file place) (.file place')
  | stream (place : Nat) : Matched w w' (.stream place) (.stream place)

/-- As `Level`, while two handles lead to the same bytes. -/
structure Through (named : Prop) (handle handle' : Handle) (w w' : Workspace σ χ) : Prop where
  level : Level named w w'
  matched : Matched w w' handle handle'

variable {named : Prop} {w w' : Workspace σ χ} {handle handle' : Handle}

/-! ## Reading -/

theorem Matched.of_files {u u' : Workspace σ χ} (H : Matched w w' handle handle')
    (h : u.files = w.files) (h' : u'.files = w'.files) : Matched u u' handle handle' := by
  cases H with
  | file left right => exact .file (h ▸ left) (h' ▸ right)
  | stream place => exact .stream place

theorem Level.concluded {α : Type} (H : Level named w w') (o : Except Fault α) :
    Level named (w.concluded o) (w'.concluded o) := by
  rw [concluded_eq, concluded_eq]
  exact { H with }

theorem neighbour_through
    (act : Shape → Surroundings σ χ → Except Fault Bool × Surroundings σ χ) (shape : Shape) :
    Simulates (Through named handle handle') (neighbour act shape) (neighbour act shape) := by
  rintro w w' ⟨H, hmatched⟩
  have hsame : w'.surroundings = w.surroundings := by
    simp only [surroundings, H.tree, H.streams, H.memo]
  have hfollowed (o : Surroundings σ χ) :
      Through named handle handle' (w.amidst o) (w'.amidst o) := by
    refine ⟨{ H with tree := rfl, streams := rfl, memo := rfl }, ?_⟩
    cases hmatched with
    | stream place => exact .stream place
    | @file place place' file left right =>
      have hrefreshed {v : Workspace σ χ} {i : Nat} (h : v.files[i]? = some (some file)) :
          (v.amidst o).files[i]? = some (some (o.tree.refresh file)) := by
        simp only [amidst, List.getElem?_map, h, Option.map_some]
      exact .file (hrefreshed left) (hrefreshed right)
  simp only [neighbour, hsame]
  cases act shape w.surroundings with
  | mk answer o =>
    cases answer with
    | ok more => exact .ok (hfollowed o)
    | error f => exact .error (hfollowed o)

theorem neighbour_ownsOpen
    (act : Shape → Surroundings σ χ → Except Fault Bool × Surroundings σ χ) (shape : Shape) :
    Preserves OwnsOpen (neighbour act shape) := by
  intro w h
  have hfollowed (o : Surroundings σ χ) : OwnsOpen (w.amidst o) :=
    fun place => (h place).trans (isOpen_refresh o.tree).symm
  simp only [neighbour]
  split <;> exact hfollowed _

theorem neighbour_keeps {error : String}
    (act : Shape → Surroundings σ χ → Except Fault Bool × Surroundings σ χ) (shape : Shape) :
    Keeps (σ := σ) (fun e _ => e = error) (neighbour act shape) := by
  intro w h
  simp only [neighbour]
  split <;> exact h

section
variable [Source σ]

theorem link_through :
    Link.Simulates (Through (σ := σ) (χ := χ) named handle handle') (link handle)
      (link handle') where
  feed n := by
    rintro w w' ⟨H, hmatched⟩
    cases hmatched with
    | @file place place' file left right =>
      obtain ⟨hlt, -⟩ := List.getElem?_eq_some_iff.mp left
      obtain ⟨hlt', -⟩ := List.getElem?_eq_some_iff.mp right
      simp only [link, feed, left, right]
      exact .ok ⟨{ H with }, .file (getElem?_withFile hlt _) (getElem?_withFile hlt' _)⟩
    | stream place =>
      simp only [link, feed, H.streams]
      cases w.streams[place]? with
      | none => exact .error ⟨H, .stream place⟩
      | some stream =>
        simp only
        cases Source.read n stream with
        | ok data stream => exact .ok ⟨{ H with streams := rfl }, .stream place⟩
        | error f stream => exact .error ⟨{ H with streams := rfl }, .stream place⟩
  log entry _ := by
    rintro w w' ⟨H, hmatched⟩
    exact ⟨{ H with }, hmatched.of_files rfl rfl⟩

theorem checkIndex_alike (H : Through named handle handle' w w')
    (hshx : w.session.shx = some handle) (hshx' : w'.session.shx = some handle') :
    Alike (Level named) (checkIndex w) (checkIndex w') :=
  checkIndex_of_read hshx hshx' (Header.read_simulates link_through.feed H)
    (fun _ h => { h.level with indexHeader := rfl }) fun h => h.level

theorem beginReading_paired (H : Through named handle handle' w w')
    (hshp : w.session.shp = some handle) (hshp' : w'.session.shp = some handle') :
    Paired (fun begun begun' u u' => begun.1 = handle ∧ begun'.1 = handle' ∧ begun'.2 = begun.2 ∧
      Through named handle handle' u u') (Level named) (beginReading w) (beginReading w') :=
  beginReading_of_read hshp hshp' (Header.read_simulates link_through.feed H)
    (fun _ h => ⟨{ h.level with header := rfl }, h.matched.of_files rfl rfl⟩) fun h => h.level

/-! ## The stages of a parse -/

theorem readRecords_alike
    (act : Shape → Surroundings σ χ → Except Fault Bool × Surroundings σ χ)
    (H : Through named handle handle' w w') (hshp : w.session.shp = some handle)
    (hshp' : w'.session.shp = some handle') :
    Alike (Level named) (readRecords (neighbour act) w) (readRecords (neighbour act) w') := by
  refine ((beginReading_paired H hshp hshp').bind ?_).alike
  rintro ⟨_, rd⟩ ⟨_, _⟩ u u' ⟨rfl, rfl, hrd, H⟩
  cases hrd
  exact .of_alike (learned_alike link_through (neighbour_through act)
    (fun n H => { H.level with shapeCount := rfl }) rd H)

omit [Source σ] in
theorem openConstituent_paired (H : Level True w w') (c : Constituent) :
    Paired (fun handle handle' => Through True handle handle') (Level True)
      (openConstituent c w) (openConstituent c w') := by
  have hadded (path : String) (file : OpenFile) :
      Through True (w.addFile path file).1 (w'.addFile path file).1 (w.addFile path file).2
        (w'.addFile path file).2 :=
    ⟨{ H with }, .file List.getElem?_concat_length List.getElem?_concat_length⟩
  simp only [openConstituent, H.tree, H.basePath trivial]
  split
  · exact .error H
  · cases w.tree.open? (w.session.basePath ++ "." ++ c.extension) with
    | ok file => exact .ok (hadded _ file)
    | error cause =>
      cases w.tree.open? (w.session.basePath ++ "." ++ c.upperExtension) with
      | ok file => exact .ok (hadded _ file)
      | error cause' => exact .error H

theorem load_paired (H : Level named w w') (path : String) :
    Paired (fun _ _ u u' => ∃ handle handle', u.session.shp = some handle ∧
        u'.session.shp = some handle' ∧ Through True handle handle' u u') (Level True)
      (load path w) (load path w') := by
  have hbase : Level True (w.updateSession ({ · with basePath := Path.basePath path }))
      (w'.updateSession ({ · with basePath := Path.basePath path })) :=
    { H with basePath := fun _ => rfl }
  refine .bind (V := fun _ _ => Level True) (.ok hbase) fun _ _ u u' H => ?_
  refine (openConstituent_paired H .shx).bind fun shx shx' u u' H => ?_
  have hopened : Through True shx shx' (u.updateSession ({ · with shx := some shx }))
      (u'.updateSession ({ · with shx := some shx' })) :=
    ⟨{ H.level with }, H.matched.of_files rfl rfl⟩
  refine (Paired.of_alike (checkIndex_alike hopened rfl rfl)).bind fun _ _ u u' H => ?_
  refine (openConstituent_paired H .shp).bind fun shp shp' u u' H => ?_
  exact .ok ⟨shp, shp', rfl, rfl, { H.level with }, H.matched.of_files rfl rfl⟩

theorem parse_alike (act : Shape → Surroundings σ χ → Except Fault Bool × Surroundings σ χ)
    (path : String) (o : Surroundings σ χ) (v v' : View σ) :
    Alike (Level True) (parse path (neighbour act) (o.around v))
      (parse path (neighbour act) (o.around v')) := by
  refine parsing_alike (fun o H => H.concluded o) (Paired.alike ?_)
  have hforgotten : Level False ((o.around v).updateSession .forget)
      ((o.around v').updateSession .forget) := ⟨rfl, rfl, rfl, rfl, rfl, rfl, False.elim⟩
  refine (load_paired hforgotten path).bind fun _ _ u u' ⟨shp, shp', hshp, hshp', H⟩ => ?_
  exact .of_alike (readRecords_alike act H hshp hshp')

theorem checkIndex_shp (w : Workspace σ χ) :
    (endState (checkIndex w)).session.shp = w.session.shp := by
  cases hshx : w.session.shx with
  | none =>
    simp only [checkIndex, hshx]
    rfl
  | some handle =>
    have hread := (header_read_untouched w handle).session
    simp only [checkIndex, hshx]
    cases hr : Header.read (feed handle) w with
    | ok header v =>
      rw [hr] at hread
      exact (congrArg Session.shp hread :)
    | error f v =>
      rw [hr] at hread
      exact (congrArg Session.shp hread :)

theorem readRecords_stream_alike
    (act : Shape → Surroundings σ χ → Except Fault Bool × Surroundings σ χ) {i : Option Nat}
    (H : Level named w w') (hshp : w.session.shp = i.map .stream)
    (hshp' : w'.session.shp = i.map .stream) :
    Alike (Level named) (readRecords (neighbour act) w) (readRecords (neighbour act) w') := by
  cases i with
  | some place => exact readRecords_alike act ⟨H, .stream place⟩ hshp hshp'
  | none =>
    have hnone {v : Workspace σ χ} (h : v.session.shp = none) :
        readRecords (neighbour act) v = .error (.noConstituent .shp) v :=
      bind_of_error (by simp only [beginReading, h])
    rw [hnone hshp, hnone hshp']
    exact .error H

theorem parseStreams_alike (act : Shape → Surroundings σ χ → Except Fault Bool × Surroundings σ χ)
    (i j : Option Nat) (o : Surroundings σ χ) (v v' : View σ) :
    Alike (Level False)
      (parseStreams (i.map .stream) (j.map .stream) (neighbour act) (o.around v))
      (parseStreams (i.map .stream) (j.map .stream) (neighbour act) (o.around v')) := by
  refine parsing_alike (fun o H => H.concluded o) ?_
  let posed (v : View σ) : Workspace σ χ :=
    ((o.around v).updateSession .forget).updateSession
      ({ · with shp := i.map .stream, shx := j.map .stream })
  have hposed : Level False (posed v) (posed v') := ⟨rfl, rfl, rfl, rfl, rfl, rfl, False.elim⟩
  have hchecked : Alike (Level False) (checkIndex (posed v)) (checkIndex (posed v')) := by
    cases j with
    | none => exact .error hposed
    | some place => exact checkIndex_alike ⟨hposed, .stream place⟩ rfl rfl
  have hready : Paired (fun _ _ u u' => Level False u u' ∧ u.session.shp = i.map .stream ∧
      u'.session.shp = i.map .stream) (Level False) (checkIndex (posed v))
      (checkIndex (posed v')) :=
    .of_alike_ends hchecked (checkIndex_shp (posed v)) (checkIndex_shp (posed v'))
  exact (hready.bind fun _ _ u u' ⟨H, hshp, hshp'⟩ =>
    .of_alike (readRecords_stream_alike act H hshp hshp')).alike

/-! ## Whatever was before -/

/-- A state that a session comes to by what a client does: at its end, or before or after an
operation, in the middle of other operations too. -/
def Reachable (v : View σ) : Prop :=
  ∃ (tree : FileTree) (streams : List σ) (c : Client),
    let w := endState (c.exec observer (.init tree streams []))
    v = w.view ∨ ∃ m ∈ w.memo, v = m.before ∨ v = m.after

/-- Of two parses, one in a session that was in the state `v` and one in a session that was in the
state `v'`, the outcome is the same and nothing is left to tell them apart, except that each session
keeps its message if the outcome leaves none. -/
structure Indistinct (named : Prop) (v v' : View σ)
    (r r' : EStateM.Result Fault (Workspace σ χ) Unit) : Prop where
  alike : Alike (Level named) r r'
  closed : ∀ place, ¬ (endState r).IsOpen place ∧ ¬ (endState r').IsOpen place
  told : ∀ f, outcome r = .error f → f.isShapefile = true ∨ f.isMemory = true →
    (endState r').session.error = (endState r).session.error
  untold : (∀ f, outcome r = .error f → ¬ (f.isShapefile = true ∨ f.isMemory = true)) →
    (endState r).session.error = v.session.error ∧
      (endState r').session.error = v'.session.error

theorem Reachable.ownsOpen {v : View σ} (H : Reachable v) : OwnsOpen v := by
  obtain ⟨tree, streams, c, H⟩ := H
  have hstart : Recalls streams (init tree streams ([] : List (Moment σ))) :=
    ⟨inCustody_init tree streams [], fun _ hm => absurd hm List.not_mem_nil⟩
  have hend := c.exec_recalls hstart
  rcases H with rfl | ⟨m, hm, rfl | rfl⟩
  · exact hend.1.owned
  · exact (hend.2 m hm).before.owned
  · exact (hend.2 m hm).after.owned

omit [Source σ] in
/-- A parse leaves nothing open. -/
theorem not_isOpen (howns : OwnsOpen w) (hreleased : w.IsReleased) (place : Nat) :
    ¬ w.IsOpen place := by
  intro hopen
  have hmem := (howns place).mpr hopen
  rw [hreleased.owned] at hmem
  cases hmem

theorem kept?_eq_none_iff {f : Fault} :
    f.kept? = none ↔ ¬ (f.isShapefile = true ∨ f.isMemory = true) := by
  unfold Fault.kept?
  by_cases hshapefile : f.isShapefile = true
  · simp [hshapefile]
  · by_cases hmemory : f.isMemory = true <;> simp [hshapefile, hmemory]

theorem lastAfter_eq_of_kept {f : Fault} (h : f.isShapefile = true ∨ f.isMemory = true)
    (error error' : String) :
    lastAfter (.error f : Except Fault Unit) error =
      lastAfter (.error f : Except Fault Unit) error' := by
  cases hkept : f.kept? with
  | none => exact absurd h (kept?_eq_none_iff.mp hkept)
  | some text => simp only [lastAfter, hkept, Option.getD_some]

theorem lastAfter_of_not_kept {o : Except Fault Unit}
    (h : ∀ f, o = .error f → ¬ (f.isShapefile = true ∨ f.isMemory = true)) (error : String) :
    lastAfter o error = error := by
  cases o with
  | ok _ => rfl
  | error f => simp only [lastAfter, kept?_eq_none_iff.mpr (h f rfl), Option.getD_none]

variable {v v' : View σ}

theorem indistinct (hv : Reachable v) (hv' : Reachable v') (o : Surroundings σ χ)
    {body : Action σ χ Unit}
    (halike : Alike (Level named) (parsing body (o.around v)) (parsing body (o.around v')))
    (howns : Preserves OwnsOpen (parsing body))
    (hends : ∀ error, Ends (fun e _ => e = error) (parsing body)) :
    Indistinct named v v' (parsing body (o.around v)) (parsing body (o.around v')) := by
  have houtcome := Desk.outcome_alike halike
  obtain ⟨_, rfl, herror⟩ := hends v.session.error (w := o.around v) rfl
  obtain ⟨_, rfl, herror'⟩ := hends v'.session.error (w := o.around v') rfl
  refine ⟨halike, fun place => ⟨?_, ?_⟩, fun f hf hkept => ?_, fun hnone => ⟨?_, ?_⟩⟩
  · exact not_isOpen (howns hv.ownsOpen) (parsing_released body (o.around v)) place
  · exact not_isOpen (howns hv'.ownsOpen) (parsing_released body (o.around v')) place
  · rw [herror, herror', houtcome, hf]
    exact lastAfter_eq_of_kept hkept _ _
  · exact herror.trans (lastAfter_of_not_kept hnone _)
  · exact herror'.trans (lastAfter_of_not_kept (houtcome ▸ hnone) _)

/-- A parse depends on nothing that a session went through before. In whatever states two sessions
are, with iterators that wait or in the middle of other parses, a parse of a path comes to the same
in the same surroundings, and so does a parse of streams, which leaves the base path alone. -/
theorem parse_forgets (hv : Reachable v) (hv' : Reachable v') (o : Surroundings σ χ)
    (act : Shape → Surroundings σ χ → Except Fault Bool × Surroundings σ χ) :
    (∀ path, Indistinct True v v' (parse path (neighbour act) (o.around v))
        (parse path (neighbour act) (o.around v'))) ∧
      ∀ i j : Option Nat, Indistinct False v v'
        (parseStreams (i.map .stream) (j.map .stream) (neighbour act) (o.around v))
        (parseStreams (i.map .stream) (j.map .stream) (neighbour act) (o.around v')) := by
  refine ⟨fun path => ?_, fun i j => ?_⟩
  · exact indistinct hv hv' o (parse_alike act path o v v')
      (ownsOpen_enduring.parse path (neighbour_ownsOpen act))
      fun error => parse_ends path (neighbour_keeps act)
  · exact indistinct hv hv' o (parseStreams_alike act i j o v v')
      (ownsOpen_enduring.parseStreams _ _ (neighbour_ownsOpen act))
      fun error => parseStreams_ends _ _ (neighbour_keeps act)

end

/-- The shapefile that is read holds two records. One session is new. In the other a consumer has
failed, and an iterator waits for the second record. -/
theorem parse_forgets_an_iterator :
    let shx := sampleHeader.encode (List.replicate 20 0)
    let shp := shx ++ StoredRecord.encodeAll [⟨7, 2, .null⟩, ⟨8, 2, .null⟩]
    let tree : FileTree := ⟨[(["a.shx"], .file shx), (["a.shp"], .file shp)], []⟩
    let c : Client := .parse "a" (fun _ => .fail .closedFile) fun _ =>
      .iterate "a" fun i => .next i fun _ => .answer true
    let v := (Workspace.init tree ([] : List Plain) ()).view
    let v' := (endState (c.exec observer (.init tree ([] : List Plain) []))).view
    let o : Surroundings Plain Nat := ⟨tree, [], 0⟩
    let act : Shape → Surroundings Plain Nat → Except Fault Bool × Surroundings Plain Nat :=
      fun _ o => (.ok true, { o with memo := o.memo + 1 })
    Reachable v ∧ Reachable v' ∧
      Indistinct True v v' (parse "a" (neighbour act) (o.around v))
        (parse "a" (neighbour act) (o.around v')) := by
  intro shx shp tree c v v' o act
  have hv : Reachable v := ⟨tree, [], .answer true, .inl rfl⟩
  have hv' : Reachable v' := ⟨tree, [], c, .inl rfl⟩
  exact ⟨hv, hv', (parse_forgets hv hv' o act).1 "a"⟩

end Shapefile.Workspace
