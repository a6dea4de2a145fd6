import Shapefile.Proofs.Handles
import Shapefile.Proofs.RoundTrip
import Shapefile.Proofs.Stages

/-! # The entries of a session agree

A shapefile is read by parsing it, by gathering all its shapes, by an iterator or from streams that
hold its bytes. All come to the same (`Workspace.entries_agree`). -/

namespace Shapefile.Workspace

open Desk (outcome endState)

variable {σ χ : Type}

/-- What is told of a parse is the same in both workspaces, the files and the log apart. -/
structure Facing (u v : Workspace σ χ) : Prop where
  header : v.session.header = u.session.header
  indexHeader : v.session.indexHeader = u.session.indexHeader
  shapeCount : v.session.shapeCount = u.session.shapeCount
  error : v.session.error = u.session.error
  memo : v.memo = u.memo

theorem Facing.concluded {α : Type} {u v : Workspace σ χ} (H : Facing u v) (o : Except Fault α) :
    Facing (u.concluded o) (v.concluded o) := by
  rw [concluded_eq, concluded_eq, H.error]
  exact { H with error := rfl }

theorem openConstituent_of_opens {c : Constituent} {w : Workspace σ χ} {path : String}
    {file : OpenFile}
    (h : (w.session.basePath ++ "." ++ c.extension).contains '\x00' = false)
    (H : w.tree.Opens w.session.basePath c path file) :
    openConstituent c w = .ok (.file w.files.length) (w.addFile path file).2 := by
  simp only [openConstituent, h, Bool.false_eq_true, if_false]
  cases H with
  | lower lower => rw [lower]; rfl
  | upper lower upper => rw [lower, upper]; rfl

/-! ## The same bytes behind two handles -/

section
variable {u v : Workspace Plain χ} {handle handle' : Handle} {bytes : Bytes}

theorem Facing.read {u' v' : Workspace Plain χ} {p : Plain} (H : Facing u v)
    (hu : BytesFor u handle p u') (hv : BytesFor v handle' p v') : Facing u' v' where
  header := hu.through.session ▸ hv.through.session ▸ H.header
  indexHeader := hu.through.session ▸ hv.through.session ▸ H.indexHeader
  shapeCount := hu.through.session ▸ hv.through.session ▸ H.shapeCount
  error := hu.through.session ▸ hv.through.session ▸ H.error
  memo := hv.memo.trans (H.memo.trans hu.memo.symm)

theorem checkIndex_facing (H : Facing u v) (hshx : u.session.shx = some handle)
    (hshx' : v.session.shx = some handle') (hu : u.left? handle = some bytes)
    (hv : v.left? handle' = some bytes) :
    Alike (fun u' v' => Facing u' v' ∧ (u'.tree = u.tree ∧
        u'.session.basePath = u.session.basePath) ∧ v'.session.shp = v.session.shp ∧
        ∀ other, other ≠ handle' → v'.left? other = v.left? other)
      (checkIndex u) (checkIndex v) := by
  refine checkIndex_of_read hshx hshx' (header_read_alike hu hv) ?_ ?_
  · rintro u' v' h ⟨p, hu', hv'⟩
    have hbase := congrArg Session.basePath hu'.through.session
    have hshp := congrArg Session.shp hv'.through.session
    exact ⟨{ H.read hu' hv' with indexHeader := rfl }, ⟨hu'.through.tree, hbase⟩, hshp,
      hv'.through.others⟩
  · rintro u' v' ⟨p, hu', hv'⟩
    have hbase := congrArg Session.basePath hu'.through.session
    have hshp := congrArg Session.shp hv'.through.session
    exact ⟨H.read hu' hv', ⟨hu'.through.tree, hbase⟩, hshp, hv'.through.others⟩

theorem beginReading_facing (H : Facing u v) (hshp : u.session.shp = some handle)
    (hshp' : v.session.shp = some handle') (hu : u.left? handle = some bytes)
    (hv : v.left? handle' = some bytes) :
    Paired (fun begun begun' u' v' =>
        begun.1 = handle ∧ begun'.1 = handle' ∧ begun'.2 = begun.2 ∧ Facing u' v' ∧
          ∃ rest, u'.left? handle = some rest ∧ v'.left? handle' = some rest)
      Facing (beginReading u) (beginReading v) := by
  refine beginReading_of_read hshp hshp' (header_read_alike hu hv) ?_ ?_
  · rintro u' v' h ⟨p, hu', hv'⟩
    exact ⟨{ H.read hu' hv' with header := rfl }, p.rest, hu'.left, hv'.left⟩
  · rintro u' v' ⟨p, hu', hv'⟩
    exact H.read hu' hv'

theorem Facing.learned {u' v' : Workspace Plain χ} {t : Reading × Desk Plain χ} (H : Facing u v)
    (hu : Learned u handle t u') (hv : Learned v handle' t v') : Facing u' v' := by
  constructor
  · rw [hu.session, hv.session]
    exact H.header
  · rw [hu.session, hv.session]
    exact H.indexHeader
  · rw [hu.session, hv.session]
  · rw [hu.session, hv.session]
    exact H.error
  · exact hv.memo.trans hu.memo.symm

theorem readRecords_facing (act : Shape → χ → Except Fault Bool × χ) (H : Facing u v)
    (hshp : u.session.shp = some handle) (hshp' : v.session.shp = some handle')
    (hu : u.left? handle = some bytes) (hv : v.left? handle' = some bytes) :
    Alike Facing (readRecords (bystander act) u) (readRecords (bystander act) v) := by
  refine ((beginReading_facing H hshp hshp' hu hv).bind ?_).alike
  rintro ⟨_, rd⟩ ⟨_, _⟩ u' v' ⟨rfl, rfl, hrd, H', rest, hu', hv'⟩
  cases hrd
  refine .of_alike ((learned_left_alike hu' hv' H'.memo act rd).mono ?_)
  rintro u'' v'' ⟨t, hu'', hv''⟩
  exact H'.learned hu'' hv''

end

/-! ## Parsing a path and parsing streams -/

/-- A workspace whose session has opened the index of the shapefile at a path. -/
def indexOpened (path shxPath : String) (shx : OpenFile) (w : Workspace σ χ) : Workspace σ χ :=
  let w := w.updateSession ({ · with basePath := Path.basePath path })
  (w.addFile shxPath shx).2.updateSession ({ · with shx := some (.file w.files.length) })

/-- A workspace whose session has opened the records. -/
def recordsOpened (shpPath : String) (shp : OpenFile) (w : Workspace σ χ) : Workspace σ χ :=
  (w.addFile shpPath shp).2.updateSession ({ · with shp := some (.file w.files.length) })

section
variable [Source σ] {w v : Workspace σ χ} {path shpPath shxPath : String} {shp shx : OpenFile}
  {f : Fault}

theorem load_of_opens (hpath : '\x00' ∉ path.toList)
    (hshx : w.tree.Opens (Path.basePath path) .shx shxPath shx) :
    load path w =
      (checkIndex >>= fun _ => openConstituent .shp >>= fun shp =>
        modify fun w => w.updateSession ({ · with shp := some shp }))
        (indexOpened path shxPath shx w) := by
  have hopen :
      openConstituent .shx (w.updateSession ({ · with basePath := Path.basePath path })) =
        .ok (.file w.files.length) _ :=
    openConstituent_of_opens (Path.contains_extended hpath .shx) hshx
  rw [load, modify_bind, bind_of_ok hopen, modify_bind]
  rfl

theorem load_of_error (hpath : '\x00' ∉ path.toList)
    (hshx : w.tree.Opens (Path.basePath path) .shx shxPath shx)
    (hcheck : checkIndex (indexOpened path shxPath shx w) = .error f v) :
    load path w = .error f v :=
  (load_of_opens hpath hshx).trans (bind_of_error hcheck)

theorem load_of_ok (hpath : '\x00' ∉ path.toList)
    (hshx : w.tree.Opens (Path.basePath path) .shx shxPath shx)
    (hcheck : checkIndex (indexOpened path shxPath shx w) = .ok () v)
    (hbase : v.session.basePath = Path.basePath path)
    (hshp : v.tree.Opens (Path.basePath path) .shp shpPath shp) :
    load path w = .ok ⟨⟩ (recordsOpened shpPath shp v) := by
  have hopen : openConstituent .shp v = .ok (.file v.files.length) _ :=
    openConstituent_of_opens (hbase ▸ Path.contains_extended hpath .shp) (hbase ▸ hshp)
  exact (load_of_opens hpath hshx).trans ((bind_of_ok hcheck).trans (bind_of_ok hopen))

end

/-- A file of the shapefile at a path can be opened, and a stream has its bytes. -/
def Copied (path : String) (c : Constituent) (w : Workspace Plain χ) (place : Nat) : Prop :=
  ∃ name file, w.tree.Opens (Path.basePath path) c name file ∧ w.streams[place]? = some ⟨file.rest⟩

/-- The files at a path are read like streams that have the same bytes. -/
theorem parse_streamed {w : Workspace Plain χ} {path : String} {i j : Nat}
    (hpath : '\x00' ∉ path.toList) (hij : i ≠ j) (hi : Copied path .shp w i)
    (hj : Copied path .shx w j) (act : Shape → χ → Except Fault Bool × χ) :
    Alike Facing (parse path (bystander act) w)
      (parseStreams (some (.stream i)) (some (.stream j)) (bystander act) w) := by
  obtain ⟨shpPath, shp, hshp, hi⟩ := hi
  obtain ⟨shxPath, shx, hshx, hj⟩ := hj
  refine parsing_alike (fun o H => H.concluded o) ?_
  rw [modify_bind]
  have hfacing : Facing (indexOpened path shxPath shx (w.updateSession .forget))
      ((w.updateSession .forget).updateSession
        ({ · with shp := some (.stream i), shx := some (.stream j) })) := ⟨rfl, rfl, rfl, rfl, rfl⟩
  have hu : (indexOpened path shxPath shx (w.updateSession .forget)).left?
      (.file w.files.length) = some shx.rest := left_addFile shxPath shx _
  have hv : w.left? (.stream j) = some shx.rest := left_stream hj
  have hcheck := checkIndex_facing hfacing rfl rfl hu hv
  generalize hu' : checkIndex (indexOpened path shxPath shx (w.updateSession .forget)) = r at hcheck
  generalize hv' : checkIndex ((w.updateSession .forget).updateSession _) = r' at hcheck
  cases hcheck with
  | @ok a u v h =>
    obtain ⟨H, ⟨htree, hbase⟩, hshp', hothers⟩ := h
    have hload := load_of_ok hpath (w := w.updateSession .forget) hshx hu' hbase (htree ▸ hshp)
    -- The stream of the records has not moved while the index was checked.
    have hi' : v.left? (.stream i) = some shp.rest :=
      (hothers (.stream i) fun h => hij (Handle.stream.inj h)).trans (left_stream hi)
    rw [bind_of_ok hload, bind_of_ok hv']
    exact readRecords_facing act { H with } rfl hshp' (left_addFile shpPath shp u) hi'
  | error h =>
    have hload := load_of_error hpath (w := w.updateSession .forget) hshx hu'
    rw [bind_of_error hload, bind_of_error hv']
    exact .error h.1

/-- The entries of a session agree. What comes of an iterator comes of a parse and of all shapes at
once, and the files at a path are read like streams that have the same bytes. -/
theorem entries_agree (path : String) :
    (∀ (σ χ : Type) [Source σ] (w : Workspace σ χ), ∃ shapes last,
      Iterated path w shapes last ∧
        outcome (Workspace.shapes path w) = (outcome last).map (fun _ => shapes) ∧
        (endState (Workspace.shapes path w)).bare = (endState last).bare) ∧
      ∀ (χ : Type) (w : Workspace Plain χ) (i j : Nat), '\x00' ∉ path.toList → i ≠ j →
        Copied path .shp w i → Copied path .shx w j →
        ∀ act : Shape → χ → Except Fault Bool × χ,
          Alike Facing (parse path (bystander act) w)
            (parseStreams (some (.stream i)) (some (.stream j)) (bystander act) w) := by
  refine ⟨fun σ χ _ w => ?_, fun χ w i j hpath hij hi hj act => parse_streamed hpath hij hi hj act⟩
  obtain ⟨shapes, last, H⟩ := exists_iterated path w
  exact ⟨shapes, last, H, H.gathered⟩

/-- Two files and two streams with the same bytes. -/
def copies (shp shx : Bytes) : Workspace Plain Nat :=
  .init ⟨[(["a.shx"], .file shx), (["a.shp"], .file shp)], []⟩ [⟨shp⟩, ⟨shx⟩] 0

theorem locate_copied (shp shx : Bytes) (c : Constituent) :
    (copies shp shx).tree.locate (Path.basePath "a.shp" ++ "." ++ c.extension) =
      .ok ["a." ++ c.extension] := by
  have hname : Path.basePath "a.shp" ++ "." ++ c.extension = "a." ++ c.extension := by
    cases c <;> decide +kernel
  have horigin : (copies shp shx).tree.origin ("a." ++ c.extension) = [] := if_neg (by
    cases c <;> decide +kernel)
  have hnames : FileTree.names ("a." ++ c.extension) = ["a." ++ c.extension] := by
    cases c <;> decide +kernel
  rw [hname, FileTree.locate, horigin, hnames]
  cases c <;> rfl

theorem copied_shp (shp shx : Bytes) : Copied "a.shp" .shp (copies shp shx) 0 := by
  refine ⟨"a.shp", .init ["a.shp"] shp, .lower ?_, rfl⟩
  rw [FileTree.open?, locate_copied]
  rfl

theorem copied_shx (shp shx : Bytes) : Copied "a.shp" .shx (copies shp shx) 1 := by
  refine ⟨"a.shx", .init ["a.shx"] shx, .lower ?_, rfl⟩
  rw [FileTree.open?, locate_copied]
  rfl

/-- Three records are stored, and the consumer fails at the second. -/
theorem entries_agree_three_records :
    Alike Facing
      (parse "a.shp" (bystander fun _ n => (if n = 0 then .ok true else .error .closedFile, n + 1))
        (copies (sampleHeader.encode (List.replicate 20 7) ++
            StoredRecord.encodeAll [⟨7, 2, .null⟩, ⟨-1, 10, .point ⟨⟨3⟩, ⟨4⟩⟩⟩, ⟨5, 2, .null⟩])
          (sampleHeader.encode (List.replicate 20 0))))
      (parseStreams (some (.stream 0)) (some (.stream 1))
        (bystander fun _ n => (if n = 0 then .ok true else .error .closedFile, n + 1))
        (copies (sampleHeader.encode (List.replicate 20 7) ++
            StoredRecord.encodeAll [⟨7, 2, .null⟩, ⟨-1, 10, .point ⟨⟨3⟩, ⟨4⟩⟩⟩, ⟨5, 2, .null⟩])
          (sampleHeader.encode (List.replicate 20 0)))) :=
  (entries_agree "a.shp").2 Nat _ 0 1 (by decide) (by decide) (copied_shp _ _) (copied_shx _ _) _

end Shapefile.Workspace
