import Shapefile.Proofs.Client
import Shapefile.Proofs.Files

/-! # The same done in two workspaces

A parse looks at the files, the streams and the session of a workspace. Two workspaces that have
these in common stay alike when the same is done in both (`Workspace.load_simulates`,
`Workspace.readRecords_simulates`), whatever else they are told apart by. What lasts through the
small steps of a parse is the case of a workspace beside itself (`Workspace.Lasting.lockstep`). -/

namespace Shapefile

open Desk (endState)

/-- A change of a session that leaves alone the files it owns, its message and the number of its
shapes. -/
structure Session.IsMinor (f : Session → Session) : Prop where
  owned : ∀ s, (f s).owned = s.owned := by intro; rfl
  error : ∀ s, (f s).error = s.error := by intro; rfl
  shapeCount : ∀ s, (f s).shapeCount = s.shapeCount := by intro; rfl

/-- The paths at which a file of a shapefile is looked for. -/
def Constituent.paths (base : String) (c : Constituent) : List String :=
  [base ++ "." ++ c.extension, base ++ "." ++ c.upperExtension]

namespace Workspace

variable {σ χ ψ : Type} [Source σ]

/-- A relation that lasts while the same is done in two workspaces with what is open: files and
streams are read, lines are logged and the session is changed in minor ways. -/
structure Tandem (R : Workspace σ χ → Workspace σ ψ → Prop) : Prop where
  files : ∀ {w v}, R w v → v.files = w.files
  streams : ∀ {w v}, R w v → v.streams = w.streams
  session : ∀ {w v}, R w v → v.session = w.session
  updated : ∀ {w v f}, R w v → Session.IsMinor f → R (w.updateSession f) (v.updateSession f)
  noted : ∀ {w v} entry, entry.isOpening = false → R w v → R (w.note entry) (v.note entry)
  fileRead : ∀ {w v place file} file', R w v → w.files[place]? = some (some file) →
    R (w.withFile place file') (v.withFile place file')
  streamRead : ∀ {w v place stream} n, R w v → w.streams[place]? = some stream →
    R (w.setStream place (endState (Source.read n stream)))
      (v.setStream place (endState (Source.read n stream)))

/-- A relation that lasts while files are opened too. -/
structure Lockstep (R : Workspace σ χ → Workspace σ ψ → Prop) : Prop extends Tandem R where
  tree : ∀ {w v}, R w v → v.tree = w.tree
  opened : ∀ {w v} path file, R w v → R (w.addFile path file).2 (v.addFile path file).2

section
variable {R : Workspace σ χ → Workspace σ ψ → Prop} (H : Tandem R)
include H

theorem updateSession_simulates {f : Session → Session} (hf : Session.IsMinor f) :
    Simulates R (modify (·.updateSession f) : Action σ χ PUnit) (modify (·.updateSession f)) :=
  fun _ _ h => .ok (H.updated h hf)

/-- Of the trees nothing counts but what is at the paths of the constituent. -/
theorem openConstituent_alike {w : Workspace σ χ} {v : Workspace σ ψ} {c : Constituent} (h : R w v)
    (hopen : ∀ path ∈ c.paths w.session.basePath, v.tree.open? path = w.tree.open? path)
    (hopened : ∀ path ∈ c.paths w.session.basePath, ∀ file,
      R (w.addFile path file).2 (v.addFile path file).2) :
    Alike R (openConstituent c w) (openConstituent c v) := by
  have hadded {path : String} (hpath : path ∈ c.paths w.session.basePath) (file : OpenFile) :
      Alike R (.ok (w.addFile path file).1 (w.addFile path file).2)
        (.ok (v.addFile path file).1 (v.addFile path file).2) := by
    have hplace : (v.addFile path file).1 = (w.addFile path file).1 :=
      congrArg (fun files : List (Option OpenFile) => Handle.file files.length) (H.files h)
    rw [hplace]
    exact .ok (hopened path hpath file)
  have hlower : w.session.basePath ++ "." ++ c.extension ∈ c.paths w.session.basePath :=
    List.mem_cons_self
  have hupper : w.session.basePath ++ "." ++ c.upperExtension ∈ c.paths w.session.basePath :=
    List.mem_cons_of_mem _ List.mem_cons_self
  simp only [openConstituent, H.session h, hopen _ hlower, hopen _ hupper]
  split
  · exact .error h
  · cases w.tree.open? (w.session.basePath ++ "." ++ c.extension) with
    | ok file => exact hadded hlower file
    | error cause =>
      cases w.tree.open? (w.session.basePath ++ "." ++ c.upperExtension) with
      | ok file => exact hadded hupper file
      | error cause' => exact .error h

theorem feed_simulates (handle : Handle) (n : Int) :
    Simulates R (feed handle n) (feed handle n) := by
  intro w v h
  cases handle with
  | file place =>
    have hfiles := H.files h
    cases hfile : w.files[place]? with
    | none =>
      simp only [feed, hfiles, hfile]
      exact .error h
    | some file? =>
      cases file? with
      | none =>
        simp only [feed, hfiles, hfile]
        exact .error h
      | some file =>
        have hread := H.fileRead (file.read n).2 h hfile
        simp only [feed, hfile, show v.files[place]? = some (some file) from hfiles ▸ hfile]
        exact .ok hread
  | stream place =>
    have hstreams := H.streams h
    cases hstream : w.streams[place]? with
    | none =>
      simp only [feed, hstreams, hstream]
      exact .error h
    | some stream =>
      have hread := H.streamRead n h hstream
      simp only [feed, hstream, show v.streams[place]? = some stream from hstreams ▸ hstream]
      cases hr : Source.read n stream with
      | ok data stream' =>
        rw [hr] at hread
        exact .ok hread
      | error f stream' =>
        rw [hr] at hread
        exact .error hread

theorem link_simulates (handle : Handle) :
    Link.Simulates R (link handle : Link (Workspace σ χ)) (link handle) where
  feed := feed_simulates H handle
  log entry hentry := H.noted entry hentry

theorem header_read_simulates (handle : Handle) :
    Simulates R (Header.read (feed handle)) (Header.read (feed handle)) :=
  Header.read_simulates (feed_simulates H handle)

theorem checkIndex_simulates : Simulates R checkIndex checkIndex := by
  intro w v h
  simp only [checkIndex, H.session h]
  split
  · exact .error h
  · rename_i handle _
    have hread := header_read_simulates H handle h
    generalize Header.read (feed handle) w = r at hread ⊢
    generalize Header.read (feed handle) v = r' at hread ⊢
    cases hread with
    | @ok header w v h =>
      exact .ok (H.noted _ rfl (H.updated h {}))
    | error h => exact .error h

theorem beginReading_simulates : Simulates R beginReading beginReading := by
  intro w v h
  simp only [beginReading, H.session h]
  split
  · exact .error h
  · rename_i handle _
    have hread := header_read_simulates H handle h
    generalize Header.read (feed handle) w = r at hread ⊢
    generalize Header.read (feed handle) v = r' at hread ⊢
    cases hread with
    | @ok header w v h =>
      exact .ok (H.noted _ rfl (H.updated h {}))
    | error h => exact .error h

omit H [Source σ] in
theorem besideReading_simulates {consumer : Consumer σ χ} {consumer' : Consumer σ ψ}
    (C : ∀ shape, Simulates R (consumer shape) (consumer' shape)) (shape : Shape) :
    Simulates (Beside R) (besideReading consumer shape) (besideReading consumer' shape) := by
  rintro ⟨rd, w⟩ ⟨_, v⟩ ⟨rfl, h⟩
  have hc := C shape h
  simp only [besideReading]
  generalize consumer shape w = r at hc ⊢
  generalize consumer' shape v = r' at hc ⊢
  cases hc with
  | ok h => exact .ok ⟨rfl, h⟩
  | error h => exact .error ⟨rfl, h⟩

/-- The number of the shapes is the last that is done to the session. -/
theorem readRecords_simulates
    (hcount : ∀ {w v} n, R w v →
      R (w.updateSession ({ · with shapeCount := n }))
        (v.updateSession ({ · with shapeCount := n })))
    {consumer : Consumer σ χ} {consumer' : Consumer σ ψ}
    (C : ∀ shape, Simulates R (consumer shape) (consumer' shape)) :
    Simulates R (readRecords consumer) (readRecords consumer') := by
  refine (beginReading_simulates H).bind fun ⟨handle, reading⟩ => ?_
  intro w v h
  have hrun := Reading.run_simulates (link_simulates H handle) (besideReading_simulates C)
    (s := (reading, w)) (t := (reading, v)) ⟨rfl, h⟩
  simp only
  generalize Reading.run (link handle) (besideReading consumer) (reading, w) = r at hrun ⊢
  generalize Reading.run (link handle) (besideReading consumer') (reading, v) = r' at hrun ⊢
  cases hrun with
  | ok h =>
    obtain ⟨hrd, h⟩ := h
    simp only [hrd]
    exact .ok (hcount _ h)
  | error h =>
    obtain ⟨hrd, h⟩ := h
    simp only [hrd]
    exact .error (hcount _ h)

end

section
variable {R : Workspace σ χ → Workspace σ ψ → Prop} (H : Lockstep R)
include H

theorem openConstituent_simulates (c : Constituent) :
    Simulates R (openConstituent c) (openConstituent c) :=
  fun _ _ h => openConstituent_alike H.toTandem h (fun _ _ => by rw [H.tree h])
    fun path _ file => H.opened path file h

theorem load_simulates (path : String) : Simulates R (load path) (load path) :=
  (updateSession_simulates H.toTandem {}).bind fun _ =>
  (openConstituent_simulates H .shx).bind fun _ =>
  (updateSession_simulates H.toTandem {}).bind fun _ =>
  (checkIndex_simulates H.toTandem).bind fun _ =>
  (openConstituent_simulates H .shp).bind fun _ =>
  updateSession_simulates H.toTandem {}

end

/-! ## Properties of one workspace -/

/-- The same workspace, of which `P` holds. -/
def Alongside (P : Workspace σ χ → Prop) (w v : Workspace σ χ) : Prop := w = v ∧ P w

/-- Whatever comes of a computation, `P` holds after it if it did before. -/
def Preserves {α : Type} (P : Workspace σ χ → Prop) (x : Action σ χ α) : Prop :=
  ∀ ⦃w⦄, P w → P (endState (x w))

/-- A property that lasts while files are opened, files and streams are read, lines are logged and
the session is changed in minor ways. -/
structure Lasting (P : Workspace σ χ → Prop) : Prop where
  updated : ∀ {w f}, P w → Session.IsMinor f → P (w.updateSession f)
  noted : ∀ {w} entry, P w → P (w.note entry)
  opened : ∀ {w} path file, P w → P (w.addFile path file).2
  fileRead : ∀ {w place file} file', P w → w.files[place]? = some (some file) →
    P (w.withFile place file')
  streamRead : ∀ {w place stream} n, P w → w.streams[place]? = some stream →
    P (w.setStream place (endState (Source.read n stream)))

variable {α : Type} {P : Workspace σ χ → Prop}

omit [Source σ] in
theorem Preserves.simulates {x : Action σ χ α} (H : Preserves P x) :
    Simulates (Alongside P) x x := by
  rintro w _ ⟨rfl, h⟩
  have hend := H h
  cases hx : x w with
  | ok a v =>
    rw [hx] at hend
    exact .ok ⟨rfl, hend⟩
  | error f v =>
    rw [hx] at hend
    exact .error ⟨rfl, hend⟩

omit [Source σ] in
theorem Preserves.of_simulates {x : Action σ χ α} (H : Simulates (Alongside P) x x) :
    Preserves P x := by
  intro w h
  have hs := H ⟨rfl, h⟩
  generalize x w = r at hs
  cases hs with
  | ok h' => exact h'.2
  | error h' => exact h'.2

theorem Lasting.lockstep (H : Lasting P) : Lockstep (Alongside P) where
  tree := fun ⟨h, _⟩ => h ▸ rfl
  files := fun ⟨h, _⟩ => h ▸ rfl
  streams := fun ⟨h, _⟩ => h ▸ rfl
  session := fun ⟨h, _⟩ => h ▸ rfl
  updated := fun ⟨h, hP⟩ hf => ⟨h ▸ rfl, H.updated hP hf⟩
  noted := fun entry _ ⟨h, hP⟩ => ⟨h ▸ rfl, H.noted entry hP⟩
  opened := fun path file ⟨h, hP⟩ => ⟨h ▸ rfl, H.opened path file hP⟩
  fileRead := fun file' ⟨h, hP⟩ hfile => ⟨h ▸ rfl, H.fileRead file' hP hfile⟩
  streamRead := fun n ⟨h, hP⟩ hstream => ⟨h ▸ rfl, H.streamRead n hP hstream⟩

end Workspace
end Shapefile
