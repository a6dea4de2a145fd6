import Shapefile.Proofs.Entries
import Shapefile.Proofs.HeaderBytes

/-! # What the headers have influence on

Of a header of the records only the length comes to bear on them, and of the index nothing does but
that its header can be read. So a consumer that goes by the shapes alone cannot tell two shapefiles
with the same records and the same length apart (`Workspace.parse_blind_to_headers`). -/

namespace Shapefile

open Desk (outcome endState)

/-- Two contents of a `.shp` file that are the same but for their headers, and these are valid and
give the same length. -/
structure SameRecords (shp shp' : Bytes) : Prop where
  headers : ∃ h h' : Header, h.Begins shp ∧ h'.Begins shp' ∧ h'.fileLength = h.fileLength
  rest : shp'.drop 100 = shp.drop 100

theorem SameRecords.of_encode {h h' : Header} (H : h.IsStorable) (H' : h'.IsStorable)
    (hvalid : h.defect? = none) (hvalid' : h'.defect? = none) {reserved reserved' : Bytes}
    (hreserved : reserved.length = 20) (hreserved' : reserved'.length = 20)
    (hlength : h'.fileLength = h.fileLength) (rest : Bytes) :
    SameRecords (h.encode reserved ++ rest) (h'.encode reserved' ++ rest) := by
  have hread := Header.read_append rest H hvalid hreserved
  have hread' := Header.read_append rest H' hvalid' hreserved'
  have hdrop : rest = (h.encode reserved ++ rest).drop 100 :=
    Plain.mk.inj (Header.read_cuts hread).2.1
  have hdrop' : rest = (h'.encode reserved' ++ rest).drop 100 :=
    Plain.mk.inj (Header.read_cuts hread').2.1
  exact ⟨⟨h, h', ⟨_, hread⟩, ⟨_, hread'⟩, hlength⟩, hdrop'.symm.trans hdrop⟩

namespace Workspace

variable {χ : Type}

/-- A parse has told the same in both workspaces, the headers apart. -/
structure Told (u v : Workspace Plain χ) : Prop where
  shapeCount : v.session.shapeCount = u.session.shapeCount
  error : v.session.error = u.session.error
  memo : v.memo = u.memo

theorem Told.symm {u v : Workspace Plain χ} (H : Told u v) : Told v u :=
  ⟨H.shapeCount.symm, H.error.symm, H.memo.symm⟩

theorem Told.trans {u v w : Workspace Plain χ} (H : Told u v) (H' : Told v w) : Told u w :=
  ⟨H'.shapeCount.trans H.shapeCount, H'.error.trans H.error, H'.memo.trans H.memo⟩

/-- `n` bytes were taken of `bytes`, and the others are left. -/
def Took (n : Nat) (bytes : Bytes) (left? : Option Bytes) : Prop :=
  n ≤ bytes.length ∧ left? = some (bytes.drop n)

theorem Told.forgotten {u v : Workspace Plain χ} (H : Told u v) :
    Told (u.updateSession .forget) (v.updateSession .forget) :=
  ⟨rfl, H.error, H.memo⟩

theorem Told.concluded {α : Type} {u v : Workspace Plain χ} (H : Told u v) (o : Except Fault α) :
    Told (u.concluded o) (v.concluded o) := by
  rw [concluded_eq, concluded_eq, H.error]
  exact { H with error := rfl }

/-! ## Headers behind handles -/

/-- In the workspace `w` a header was read of the bytes behind a handle, and the session keeps
it. -/
structure HeaderTaken (w : Workspace Plain χ) (handle : Handle) (bytes : Bytes)
    (v : Workspace Plain χ) : Prop where
  session : { v.session with header := none, indexHeader := none } =
    { w.session with header := none, indexHeader := none }
  tree : v.tree = w.tree
  memo : v.memo = w.memo
  left : v.left? handle = some (bytes.drop 100)
  others : ∀ other, other ≠ handle → v.left? other = w.left? other

variable {u v w : Workspace Plain χ} {handle handle' : Handle} {bytes shp shp' shx shx' : Bytes}
  {h index : Header}

theorem HeaderTaken.told (H : HeaderTaken w handle bytes v) : Told w v :=
  ⟨(congrArg Session.shapeCount H.session :), (congrArg Session.error H.session :), H.memo⟩

theorem checkIndex_begins (hshx : w.session.shx = some handle) (hleft : w.left? handle = some bytes)
    (H : h.Begins bytes) : ∃ v, checkIndex w = .ok () v ∧ HeaderTaken w handle bytes v := by
  obtain ⟨v, hv, hbytes⟩ := checkIndex_left hshx hleft H.read
  refine ⟨_, hv, ?_, hbytes.through.tree, hbytes.memo, hbytes.left, hbytes.through.others⟩
  exact congrArg ({ · with header := none, indexHeader := none }) hbytes.through.session

theorem beginReading_begins (hshp : w.session.shp = some handle)
    (hleft : w.left? handle = some bytes) (H : h.Begins bytes) :
    ∃ v, beginReading w = .ok (handle, .start h.contentLength Reading.warnsByDefault) v ∧
      HeaderTaken w handle bytes v := by
  obtain ⟨v, hv, hbytes⟩ := beginReading_left hshp hleft H.read
  refine ⟨_, hv, ?_, hbytes.through.tree, hbytes.memo, hbytes.left, hbytes.through.others⟩
  exact congrArg ({ · with header := none, indexHeader := none }) hbytes.through.session

/-! ## Records -/

/-- Where the same is left of both contents, as much of the one was taken as of the other. -/
theorem took_of_sameRecords (R : SameRecords shp shp') {n : Nat} (hn : n ≤ (shp.drop 100).length) :
    ∃ m, Took m shp (some ((shp.drop 100).drop n)) ∧
      Took m shp' (some ((shp.drop 100).drop n)) := by
  obtain ⟨h, h', hbegins, hbegins', -⟩ := R.headers
  have hle := hbegins.length_le
  have hle' := hbegins'.length_le
  have hn' : n ≤ (shp'.drop 100).length := R.rest.symm ▸ hn
  rw [List.length_drop] at hn hn'
  refine ⟨100 + n, ⟨by omega, ?_⟩, by omega, ?_⟩
  · rw [List.drop_drop]
  · rw [← R.rest, List.drop_drop]

/-- Both workspaces have been told the same of the records, and as many bytes are gone from behind
the one handle as from behind the other. -/
structure ReadAlike (shp shp' : Bytes) (handle handle' : Handle) (u v u' v' : Workspace Plain χ) :
    Prop where
  told : Told u' v'
  taken : ∃ n, Took n shp (u'.left? handle) ∧ Took n shp' (v'.left? handle')
  leftShp : u'.session.shp = some handle
  rightShp : v'.session.shp = some handle'
  leftOthers : ∀ other, other ≠ handle → u'.left? other = u.left? other
  rightOthers : ∀ other, other ≠ handle' → v'.left? other = v.left? other

theorem readRecords_told (act : Shape → χ → Except Fault Bool × χ)
    (H : Told u v) (R : SameRecords shp shp') (hshp : u.session.shp = some handle)
    (hshp' : v.session.shp = some handle') (hu : u.left? handle = some shp)
    (hv : v.left? handle' = some shp') :
    Alike (ReadAlike shp shp' handle handle' u v) (readRecords (bystander act) u)
      (readRecords (bystander act) v) := by
  obtain ⟨h, h', hbegins, hbegins', hlength⟩ := R.headers
  obtain ⟨u₁, hbegin, hu₁⟩ := beginReading_begins hshp hu hbegins
  obtain ⟨v₁, hbegin', hv₁⟩ := beginReading_begins hshp' hv hbegins'
  have hcontent : h'.contentLength = h.contentLength := by
    simp only [Header.contentLength, hlength]
  have hleft' : v₁.left? handle' = some (shp.drop 100) := R.rest ▸ hv₁.left
  have H₁ : Told u₁ v₁ := hu₁.told.symm.trans (H.trans hv₁.told)
  rw [readRecords_of_ok hbegin, readRecords_of_ok hbegin', hcontent]
  refine (learned_left_alike hu₁.left hleft' H₁.memo act _).mono ?_
  rintro u₂ v₂ ⟨t, hu₂, hv₂⟩
  -- The bytes that are left of both are those of one desk.
  obtain ⟨n, hn, htaken⟩ := hu₂.taken _ hu₁.left
  have htaken' : v₂.left? handle' = some ((shp.drop 100).drop n) :=
    hv₂.left.trans (hu₂.left.symm.trans htaken)
  constructor
  · refine ⟨?_, ?_, hv₂.memo.trans hu₂.memo.symm⟩
    · rw [hu₂.session, hv₂.session]
    · rw [hu₂.session, hv₂.session]
      exact H₁.error
  · rw [htaken, htaken']
    exact took_of_sameRecords R hn
  · rw [hu₂.session]
    exact (congrArg Session.shp hu₁.session).trans hshp
  · rw [hv₂.session]
    exact (congrArg Session.shp hv₁.session).trans hshp'
  · exact fun other hother => (hu₂.others other hother).trans (hu₁.others other hother)
  · exact fun other hother => (hv₂.others other hother).trans (hv₁.others other hother)

/-! ## Parses -/

/-- A file of the shapefile at a path can be opened, and has these bytes. -/
def Stored (tree : FileTree) (path : String) (c : Constituent) (bytes : Bytes) : Prop :=
  ∃ name file, tree.Opens (Path.basePath path) c name file ∧ file.rest = bytes

/-- A parse of the shapefile at a path up to where the files are closed. -/
def parseOpen {σ : Type} [Source σ] (path : String) (consumer : Consumer σ χ) : Action σ χ Unit :=
  fun w => (do load path; readRecords consumer : Action σ χ Unit) (w.updateSession .forget)

/-- The bytes that are left of the records. -/
def recordsLeft? (w : Workspace Plain χ) : Option Bytes := w.session.shp.bind w.left?

/-- A workspace whose session is to read two streams. -/
def posed (i j : Nat) (w : Workspace Plain χ) : Workspace Plain χ :=
  w.updateSession ({ · with shp := some (.stream i), shx := some (.stream j) })

/-- Parses of streams have told the same in both workspaces. They took as many bytes of the one
`.shp` as of the other, and of each `.shx` they took its header. -/
structure StreamedAlike (i j : Nat) (shp shp' shx shx' : Bytes) (u v : Workspace Plain χ) :
    Prop where
  told : Told u v
  records : ∃ n, Took n shp (u.left? (.stream i)) ∧ Took n shp' (v.left? (.stream i))
  leftIndex : Took 100 shx (u.left? (.stream j))
  rightIndex : Took 100 shx' (v.left? (.stream j))

theorem left_concluded {α : Type} (o : Except Fault α) (w : Workspace Plain χ) (i : Nat) :
    (w.concluded o).left? (.stream i) = w.left? (.stream i) := by
  rw [concluded_eq]
  rfl

theorem StreamedAlike.concluded {α : Type} {i j : Nat} (H : StreamedAlike i j shp shp' shx shx' u v)
    (o : Except Fault α) :
    StreamedAlike i j shp shp' shx shx' (u.concluded o) (v.concluded o) := by
  refine ⟨H.told.concluded o, ?_, ?_, ?_⟩
  · simp only [left_concluded]
    exact H.records
  · rw [left_concluded]
    exact H.leftIndex
  · rw [left_concluded]
    exact H.rightIndex

theorem posed_begins {i j : Nat} (hij : i ≠ j) (hshp : w.left? (.stream i) = some shp)
    (hshx : w.left? (.stream j) = some shx) (H : index.Begins shx) :
    ∃ v, checkIndex (posed i j w) = .ok () v ∧ Told w v ∧ v.session.shp = some (.stream i) ∧
      v.left? (.stream i) = some shp ∧ v.left? (.stream j) = some (shx.drop 100) := by
  obtain ⟨v, hcheck, hv⟩ := checkIndex_begins (w := posed i j w) rfl hshx H
  have hne : Handle.stream i ≠ .stream j := fun h => hij (Handle.stream.inj h)
  refine ⟨v, hcheck, { hv.told with }, ?_, (hv.others _ hne).trans hshp, hv.left⟩
  exact (congrArg Session.shp hv.session :)

theorem load_begins {path : String} (hpath : '\x00' ∉ path.toList)
    (hshp : Stored w.tree path .shp shp) (hshx : Stored w.tree path .shx shx)
    (H : index.Begins shx) :
    ∃ v handle, load path w = .ok ⟨⟩ v ∧ Told w v ∧ v.session.shp = some handle ∧
      v.left? handle = some shp := by
  obtain ⟨shpPath, shpFile, hshp, rfl⟩ := hshp
  obtain ⟨shxPath, shxFile, hshx, rfl⟩ := hshx
  have hleft : (indexOpened path shxPath shxFile w).left? (.file w.files.length) =
      some shxFile.rest := left_addFile shxPath shxFile _
  obtain ⟨v, hcheck, hv⟩ := checkIndex_begins rfl hleft H
  have hbase : v.session.basePath = Path.basePath path :=
    (congrArg Session.basePath hv.session :)
  refine ⟨_, _, load_of_ok hpath hshx hcheck hbase (hv.tree ▸ hshp), ?_, rfl,
    left_addFile shpPath shpFile v⟩
  exact { hv.told with }

section Alike
variable (H : Told u v) (R : SameRecords shp shp') (hindex : ∃ index : Header, index.Begins shx)
  (hindex' : ∃ index : Header, index.Begins shx') (act : Shape → χ → Except Fault Bool × χ)
include H R hindex hindex'

theorem parseOpen_told {path : String} (hpath : '\x00' ∉ path.toList)
    (hshp : Stored u.tree path .shp shp) (hshp' : Stored v.tree path .shp shp')
    (hshx : Stored u.tree path .shx shx) (hshx' : Stored v.tree path .shx shx') :
    Alike (fun u' v' => Told u' v' ∧ ∃ n, Took n shp u'.recordsLeft? ∧ Took n shp' v'.recordsLeft?)
      (parseOpen path (bystander act) u) (parseOpen path (bystander act) v) := by
  obtain ⟨index, hindex⟩ := hindex
  obtain ⟨index', hindex'⟩ := hindex'
  obtain ⟨u₁, handle, hload, hu, hleft, hbytes⟩ :=
    load_begins (w := u.updateSession .forget) hpath hshp hshx hindex
  obtain ⟨v₁, handle', hload', hv, hleft', hbytes'⟩ :=
    load_begins (w := v.updateSession .forget) hpath hshp' hshx' hindex'
  have hloaded : Told u₁ v₁ := hu.symm.trans (H.forgotten.trans hv)
  simp only [parseOpen]
  rw [bind_of_ok hload, bind_of_ok hload']
  refine (readRecords_told act hloaded R hleft hleft' hbytes hbytes').mono fun u₂ v₂ h => ?_
  refine ⟨h.told, ?_⟩
  simp only [recordsLeft?, h.leftShp, h.rightShp, Option.bind_some]
  exact h.taken

theorem parseStreams_told {i j : Nat} (hij : i ≠ j) (hshp : u.left? (.stream i) = some shp)
    (hshp' : v.left? (.stream i) = some shp') (hshx : u.left? (.stream j) = some shx)
    (hshx' : v.left? (.stream j) = some shx') :
    Alike (StreamedAlike i j shp shp' shx shx')
      (parseStreams (some (.stream i)) (some (.stream j)) (bystander act) u)
      (parseStreams (some (.stream i)) (some (.stream j)) (bystander act) v) := by
  obtain ⟨index, hindex⟩ := hindex
  obtain ⟨index', hindex'⟩ := hindex'
  obtain ⟨u₁, hcheck, hu, hleft, hbytes, hrest⟩ :=
    posed_begins (w := u.updateSession .forget) hij hshp hshx hindex
  obtain ⟨v₁, hcheck', hv, hleft', hbytes', hrest'⟩ :=
    posed_begins (w := v.updateSession .forget) hij hshp' hshx' hindex'
  have hchecked : Told u₁ v₁ := hu.symm.trans (H.forgotten.trans hv)
  have hne : Handle.stream j ≠ .stream i := fun h => hij (Handle.stream.inj h).symm
  refine parsing_alike (fun o h => h.concluded o) ?_
  rw [modify_bind, modify_bind]
  simp only [posed] at hcheck hcheck'
  rw [bind_of_ok hcheck, bind_of_ok hcheck']
  refine (readRecords_told act hchecked R hleft hleft' hbytes hbytes').mono fun u₂ v₂ h => ?_
  refine ⟨h.told, h.taken, ⟨hindex.length_le, ?_⟩, hindex'.length_le, ?_⟩
  · exact (h.leftOthers _ hne).trans hrest
  · exact (h.rightOthers _ hne).trans hrest'

end Alike

/-- Only the length in the header of the records and the records themselves have influence on what a
parse delivers. Whatever else the headers and the index hold, the consumer has the same in mind in
the end (all it was handed, say), the outcome is the same, the session tells the same number of
shapes and the same message, and as many bytes of the records were taken. Of a stream of the index
just the header is taken. -/
theorem parse_blind_to_headers (hsession : v.session = u.session) (hmemo : v.memo = u.memo)
    (R : SameRecords shp shp') (hindex : ∃ index : Header, index.Begins shx)
    (hindex' : ∃ index : Header, index.Begins shx') (act : Shape → χ → Except Fault Bool × χ) :
    (∀ path : String, '\x00' ∉ path.toList →
        Stored u.tree path .shp shp → Stored v.tree path .shp shp' →
        Stored u.tree path .shx shx → Stored v.tree path .shx shx' →
        Alike Told (parse path (bystander act) u) (parse path (bystander act) v) ∧
          ∃ n, Took n shp (endState (parseOpen path (bystander act) u)).recordsLeft? ∧
            Took n shp' (endState (parseOpen path (bystander act) v)).recordsLeft?) ∧
      ∀ i j : Nat, i ≠ j →
        u.left? (.stream i) = some shp → v.left? (.stream i) = some shp' →
        u.left? (.stream j) = some shx → v.left? (.stream j) = some shx' →
        Alike (StreamedAlike i j shp shp' shx shx')
          (parseStreams (some (.stream i)) (some (.stream j)) (bystander act) u)
          (parseStreams (some (.stream i)) (some (.stream j)) (bystander act) v) := by
  have H : Told u v := ⟨by rw [hsession], by rw [hsession], hmemo⟩
  refine ⟨fun path hpath hshp hshp' hshx hshx' => ?_, fun i j hij hshp hshp' hshx hshx' =>
    parseStreams_told H R hindex hindex' act hij hshp hshp' hshx hshx'⟩
  have hopen := parseOpen_told H R hindex hindex' act hpath hshp hshp' hshx hshx'
  refine ⟨parsing_alike (fun o h => h.concluded o) (hopen.mono fun _ _ h => h.1), ?_⟩
  exact (Desk.endState_alike hopen).2

def otherHeader : Header :=
  ⟨Header.magic, 152, 7, 8, ⟨⟨5⟩, ⟨6⟩⟩, ⟨⟨7⟩, ⟨0⟩⟩, ⟨⟨1⟩, ⟨0⟩⟩, ⟨⟨0⟩, ⟨9⟩⟩⟩

theorem otherHeader_storable : otherHeader.IsStorable :=
  ⟨by decide, by decide, by decide, by decide, by decide⟩

theorem Copied.stored {w : Workspace Plain χ} {path : String} {c : Constituent} {i : Nat}
    (H : Copied path c w i) (hleft : w.left? (.stream i) = some bytes) :
    Stored w.tree path c bytes := by
  obtain ⟨name, file, hopens, hstream⟩ := H
  exact ⟨name, file, hopens, Option.some.inj ((left_stream hstream).symm.trans hleft)⟩

/-- The consumer fails at the second of two records. The headers differ in the reserved bytes, the
version, the shape type and the ranges, and the indexes in what follows their headers too. -/
theorem parse_blind_to_headers_two_records :
    let records := StoredRecord.encodeAll [⟨7, 2, .null⟩, ⟨-1, 10, .point ⟨⟨3⟩, ⟨4⟩⟩⟩]
    let shp := sampleHeader.encode (List.replicate 20 7) ++ records
    let shp' := otherHeader.encode (List.replicate 20 0) ++ records
    let shx := sampleHeader.encode (List.replicate 20 0) ++ [1, 2, 3]
    let shx' := otherHeader.encode (List.replicate 20 9) ++ [4]
    let act : Shape → Nat → Except Fault Bool × Nat :=
      fun _ n => (if n = 0 then .ok true else .error .closedFile, n + 1)
    let u := copies shp shx
    let v := copies shp' shx'
    (Alike Told (parse "a.shp" (bystander act) u) (parse "a.shp" (bystander act) v) ∧
        ∃ n, Took n shp (endState (parseOpen "a.shp" (bystander act) u)).recordsLeft? ∧
          Took n shp' (endState (parseOpen "a.shp" (bystander act) v)).recordsLeft?) ∧
      Alike (StreamedAlike 0 1 shp shp' shx shx')
        (parseStreams (some (.stream 0)) (some (.stream 1)) (bystander act) u)
        (parseStreams (some (.stream 0)) (some (.stream 1)) (bystander act) v) := by
  intro records shp shp' shx shx' act u v
  have hrecords : SameRecords shp shp' :=
    .of_encode sampleHeader_storable otherHeader_storable (by decide) (by decide) rfl rfl rfl _
  have hindex : sampleHeader.Begins shx :=
    ⟨_, Header.read_append [1, 2, 3] sampleHeader_storable (by decide) rfl⟩
  have hindex' : otherHeader.Begins shx' :=
    ⟨_, Header.read_append [4] otherHeader_storable (by decide) rfl⟩
  have H := parse_blind_to_headers (u := u) (v := v) rfl rfl hrecords ⟨_, hindex⟩ ⟨_, hindex'⟩ act
  refine ⟨H.1 "a.shp" (by decide) ?_ ?_ ?_ ?_, H.2 0 1 (by decide) rfl rfl rfl rfl⟩
  · exact (copied_shp shp shx).stored rfl
  · exact (copied_shp shp' shx').stored rfl
  · exact (copied_shx shp shx).stored rfl
  · exact (copied_shx shp' shx').stored rfl

end Workspace
end Shapefile
