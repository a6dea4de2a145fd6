import Shapefile.Proofs.Extension
import Shapefile.Proofs.Interruption
import Shapefile.Proofs.Stopping
import Shapefile.Shape.Collection

/-! # The export of shapes

A collection is exported shape by shape, and fails at the first shape that is no point and not
nothing either (`Collection.geoJson_of_first`). The type code alone decides, which need not go with
the class of a shape. The shapes that come of a shapefile have the codes of the two types that can
be decoded, so their export succeeds (`export_faithful`). -/

namespace Shapefile

open Desk (outcome endState)

/-! ## Shapes and collections -/

namespace Shape

/-- The shape is a point or nothing, as far as its type code tells. -/
def IsExportable (s : Shape) : Prop :=
  s.typeCode = ShapeType.null.code ∨ s.typeCode = ShapeType.point.code

instance (s : Shape) : Decidable s.IsExportable :=
  inferInstanceAs (Decidable (_ ∨ _))

/-- What a shape of any other type is refused with. -/
def refusal (s : Shape) : Fault :=
  match s.type? with
  | some t => .noGeoJson t.name
  | none => .noSuchType s.typeCode

theorem geoJson_of_point {s : Shape} (h : s.typeCode = ShapeType.point.code) :
    s.geoJson = .ok ⟨s.points.head?⟩ := if_pos h

theorem geoJson_of_ne {s : Shape} (h : s.typeCode ≠ ShapeType.point.code) :
    s.geoJson = .error s.refusal := by
  rw [geoJson, if_neg h, refuse, typeName, refusal]
  cases htype : s.type? with
  | none => rw [ShapeType.nameOfCode_of_none htype]; rfl
  | some t => rw [ShapeType.nameOfCode_of_some htype]; rfl

theorem exists_wellKnownText {s : Shape} (h : s.IsExportable) :
    ∃ text, s.wellKnownText = .ok text := by
  rcases h with hnull | hpoint
  · exact ⟨_, if_pos hnull⟩
  · have hne : s.typeCode ≠ ShapeType.null.code := by
      rw [hpoint]
      decide
    rw [wellKnownText, if_neg hne, if_pos hpoint]
    cases s.points with
    | nil => exact ⟨_, rfl⟩
    | cons p _ => exact ⟨_, rfl⟩

end Shape

namespace Collection

/-- The points of a collection. A point without coordinates is one of them. -/
def geoPoints (c : Collection) : List GeoPoint :=
  (c.shapes.filter fun s => s.typeCode = ShapeType.point.code).map fun s => ⟨s.points.head?⟩

variable {s : Shape} {shapes before after : List Shape}

theorem geoPoints_cons_of_point (h : s.typeCode = ShapeType.point.code) :
    geoPoints ⟨s :: shapes⟩ = ⟨s.points.head?⟩ :: geoPoints ⟨shapes⟩ := by
  rw [geoPoints, List.filter_cons_of_pos (by simpa using h)]
  rfl

theorem geoPoints_cons_of_null (h : s.typeCode = ShapeType.null.code) :
    geoPoints ⟨s :: shapes⟩ = geoPoints ⟨shapes⟩ := by
  rw [geoPoints, List.filter_cons_of_neg (by rw [h]; decide)]
  rfl

theorem geoJson_cons_of_null (h : s.typeCode = ShapeType.null.code) :
    geoJson ⟨s :: shapes⟩ = geoJson ⟨shapes⟩ := by
  have hleft : (s.typeCode != ShapeType.null.code) = false := by simp [h]
  simp only [geoJson, List.filter_cons, hleft, Bool.false_eq_true, if_false]

theorem geoJson_cons_of_ne (h : s.typeCode ≠ ShapeType.null.code) :
    geoJson ⟨s :: shapes⟩ = do
      let point ← s.geoJson
      let points ← geoJson ⟨shapes⟩
      return point :: points := by
  have hleft : (s.typeCode != ShapeType.null.code) = true := bne_iff_ne.mpr h
  simp only [geoJson, List.filter_cons, hleft, if_true, List.mapM_cons]

theorem geoJson_of_exportable (h : ∀ s ∈ shapes, s.IsExportable) :
    geoJson ⟨shapes⟩ = .ok (geoPoints ⟨shapes⟩) := by
  induction shapes with
  | nil => rfl
  | cons s shapes ih =>
    obtain ⟨hs, hshapes⟩ := List.forall_mem_cons.mp h
    have hrest := ih hshapes
    rcases hs with hnull | hpoint
    · rw [geoJson_cons_of_null hnull, hrest, geoPoints_cons_of_null hnull]
    · have hne : s.typeCode ≠ ShapeType.null.code := by
        rw [hpoint]
        decide
      rw [geoJson_cons_of_ne hne, Shape.geoJson_of_point hpoint, hrest,
        geoPoints_cons_of_point hpoint]
      rfl

/-- The first shape that cannot be exported is the one that is told about. -/
theorem geoJson_of_first (hbefore : ∀ t ∈ before, t.IsExportable) (hs : ¬ s.IsExportable) :
    geoJson ⟨before ++ s :: after⟩ = .error s.refusal := by
  induction before with
  | nil =>
    rw [List.nil_append, geoJson_cons_of_ne fun h => hs (.inl h),
      Shape.geoJson_of_ne fun h => hs (.inr h)]
    rfl
  | cons t before ih =>
    obtain ⟨ht, hbefore⟩ := List.forall_mem_cons.mp hbefore
    have hrest := ih hbefore
    rw [List.cons_append]
    by_cases hnull : t.typeCode = ShapeType.null.code
    · rw [geoJson_cons_of_null hnull, hrest]
    · rw [geoJson_cons_of_ne hnull, Shape.geoJson_of_point (ht.resolve_left hnull), hrest]
      rfl

theorem geoJson_succeeds_iff (c : Collection) :
    (∃ points, c.geoJson = .ok points) ↔ ∀ s ∈ c.shapes, s.IsExportable := by
  refine ⟨fun ⟨points, hpoints⟩ s hs => ?_, fun h => ⟨_, geoJson_of_exportable h⟩⟩
  by_contra hrefused
  -- Of the shapes that cannot be exported the first one stands in the way.
  have hsome : (c.shapes.find? fun s => decide ¬ s.IsExportable).isSome :=
    List.find?_isSome.mpr ⟨s, hs, by simpa using hrefused⟩
  obtain ⟨t, ht⟩ := Option.isSome_iff_exists.mp hsome
  obtain ⟨hrefused, before, after, hsplit, hbefore⟩ := List.find?_eq_some_iff_append.mp ht
  have herror : c.geoJson = .error t.refusal := by
    rw [show c = ⟨before ++ t :: after⟩ from congrArg mk hsplit]
    exact geoJson_of_first (fun t ht => by simpa using hbefore t ht) (by simpa using hrefused)
  cases herror.symm.trans hpoints

end Collection

/-! ## The shapes of a file -/

/-- The position of a point. -/
def Content.position? : Content → Option Position
  | null => none
  | point p => some p

namespace StoredRecord

/-- The positions of the points among the records. -/
def positions (rs : List StoredRecord) : List Position := rs.filterMap fun r => r.content.position?

theorem typeCode_shape (r : StoredRecord) (place : Nat) :
    (r.shape place).typeCode = r.content.type.code :=
  (ShapeType.ofCode?_eq_some_iff.mp (r.content.type?_shape (some place) (some r.number))).symm

theorem points_shape (r : StoredRecord) (place : Nat) :
    (r.shape place).points.head? = r.content.position? := by
  rw [shape]
  cases r.content <;> rfl

theorem shape_exportable (r : StoredRecord) (place : Nat) : (r.shape place).IsExportable := by
  rw [Shape.IsExportable, typeCode_shape]
  cases r.content with
  | null => exact .inl rfl
  | point p => exact .inr rfl

theorem shapes_exportable {rs : List StoredRecord} {first : Nat} :
    ∀ s ∈ shapes first rs, s.IsExportable := by
  induction rs generalizing first with
  | nil => exact fun _ h => nomatch h
  | cons r rs ih =>
    rw [shapes_cons]
    exact List.forall_mem_cons.mpr ⟨r.shape_exportable first, ih⟩

theorem geoPoints_shapes (first : Nat) (rs : List StoredRecord) :
    Collection.geoPoints ⟨shapes first rs⟩ = (positions rs).map fun p => ⟨some p⟩ := by
  induction rs generalizing first with
  | nil => rfl
  | cons r rs ih =>
    have hrest := ih (first + 1)
    have hcode := r.typeCode_shape first
    have hpoints := r.points_shape first
    rw [shapes_cons, positions]
    cases hc : r.content with
    | null =>
      rw [hc] at hcode
      rw [Collection.geoPoints_cons_of_null hcode, List.filterMap_cons_none (by rw [hc]; rfl)]
      exact hrest
    | point p =>
      rw [hc] at hcode hpoints
      rw [Collection.geoPoints_cons_of_point hcode, hpoints, hrest,
        List.filterMap_cons_some (by rw [hc]; rfl), List.map_cons]
      rfl

end StoredRecord

namespace Workspace

variable {σ χ : Type} [Source σ]

theorem parse_of_nul {path : String} (h : '\x00' ∈ (Path.basePath path).toList)
    (consumer : Consumer σ χ) (w : Workspace σ χ) :
    outcome (parse path consumer w) = .error .nulInPath := by
  have hnul : (Path.basePath path ++ "." ++ Constituent.shx.extension).contains '\x00' = true := by
    rw [String.contains_char_eq, decide_eq_true_eq]
    simp [h]
  have hload : load path (w.updateSession .forget) = .error .nulInPath
      ((w.updateSession .forget).updateSession ({ · with basePath := Path.basePath path })) := by
    rw [load, modify_bind]
    exact bind_of_error (if_pos hnul)
  rw [parse, parsing_eq, outcome_mapState, bind_of_error hload]
  rfl

/-- All shapes at once come of a parse that goes through all its stages. -/
theorem staged_of_shapes {path : String} {w v : Workspace σ χ} {shapes : List Shape}
    (h : Workspace.shapes path w = .ok shapes v) :
    ∃ done, Staged w.tree (Path.basePath path) (fun _ memo => (true, memo)) w.memo w.log done ∧
      done.outcome = .ok () ∧ done.handed.reverse = shapes := by
  rw [shapes_eq] at h
  cases hr : parse path (watcher gathering) (w.withMemo ([], w.memo)) with
  | error f u =>
    rw [hr] at h
    cases h
  | ok _ u =>
    rw [hr] at h
    have hclean : '\x00' ∉ (Path.basePath path).toList := by
      intro hnul
      have hfail := parse_of_nul hnul (watcher gathering) (w.withMemo ([], w.memo))
      rw [hr] at hfail
      cases hfail
    obtain ⟨path', hbase, hchars⟩ := Path.exists_basePath_eq path
    have hpath' : '\x00' ∉ path'.toList := by
      intro hnul
      rcases hchars _ hnul with hnul | heq
      · exact hclean hnul
      · cases heq
    have hstaged := (body_staged hpath' (fun _ memo => (true, memo))
      (w := w.withMemo ([], w.memo)) rfl rfl).1
    have hr' : parsing (do load path'; readRecords (watcher (noting fun _ memo => (true, memo))))
        (w.withMemo ([], w.memo)) = .ok () u := by
      rw [parse_of_basePath hbase.symm] at hr
      exact hr
    rw [← parsing_report, hbase, hr'] at hstaged
    injection h with hshapes _
    exact ⟨report (.ok () u), hstaged, rfl, hshapes⟩

/-- A reading at a desk that gets through hands over the shapes of accepted records. -/
theorem accepted_of_runAtDesk {header : Header} {bytes : Bytes} {log : List Entry} {memo : χ}
    {r : EStateM.Result Fault (Reading × Desk Plain (List Shape × χ)) Nat}
    (hr : runAtDesk (fun _ memo => (true, memo)) header ⟨bytes⟩ log ([], memo) = r)
    (hok : (outcome r).map (fun _ => ()) = .ok ()) :
    ∃ rs tail, bytes = StoredRecord.encodeAll rs ++ tail ∧
      StoredRecord.Accepted header.contentLength rs ∧
      (endState r).2.memo.1.reverse = StoredRecord.shapes 0 rs := by
  obtain ⟨rs, tail, rfl, H, hend⟩ := StoredRecord.framed_until header.contentLength bytes
  have hmore : wantsMore (noting fun _ (memo : χ) => (true, memo)) (StoredRecord.shapes 0 rs)
      ([], memo) = true := wantsMore_of_true (fun _ _ => rfl) _ _
  subst hr
  rcases hend with hend | ⟨hleft, f, n, unread, hrej⟩
  · refine ⟨rs, tail, rfl, StoredRecord.accepted_iff.mpr ⟨H, hend⟩, ?_⟩
    rw [runAtDesk, Desk.run_used_up H rfl hmore hend]
    simp only [endState, mindAfter_noting, List.append_nil, List.reverse_reverse]
  · rw [runAtDesk, Desk.run_rejection H rfl hmore hleft hrej] at hok
    cases hok

/-- All shapes at once are those of the records that follow the header of a file. -/
theorem accepted_of_shapes {path : String} {w v : Workspace σ χ} {shapes : List Shape}
    (h : Workspace.shapes path w = .ok shapes v) :
    ∃ name file header rs tail, w.tree.Opens (Path.basePath path) .shp name file ∧
      headerOf file = .ok header ⟨StoredRecord.encodeAll rs ++ tail⟩ ∧
      StoredRecord.Accepted header.contentLength rs ∧ shapes = StoredRecord.shapes 0 rs := by
  obtain ⟨done, hstaged, hok, rfl⟩ := staged_of_shapes h
  cases hstaged with
  | noIndexFile | badIndex | noMainFile | badHeader => cases hok
  | @records _ name _ file _ header _ rest _ _ shp shpHeader =>
    obtain ⟨rs, tail, hbytes, H, hhanded⟩ := accepted_of_runAtDesk rfl hok
    refine ⟨name, file, header, rs, tail, shp, ?_, H, hhanded⟩
    rw [shpHeader, ← hbytes]

end Workspace

/-- The export of a collection loses, reorders and invents nothing. It succeeds if and only if every
shape is a point or nothing, and gives the points then. Else the fault is about the first other
shape, and tells the name of its shape type or that there is no such type. So the shapes of a
shapefile can be exported, with the positions of its points in the order of the file. -/
theorem export_faithful :
    (∀ c : Collection,
      ((∃ points, c.geoJson = .ok points) ↔ ∀ s ∈ c.shapes, s.IsExportable) ∧
      ((∀ s ∈ c.shapes, s.IsExportable) → c.geoJson = .ok c.geoPoints) ∧
      ∀ before s after, c.shapes = before ++ s :: after → (∀ t ∈ before, t.IsExportable) →
        ¬ s.IsExportable →
        (∀ type, s.type? = some type → c.geoJson = .error (.noGeoJson type.name)) ∧
        (s.type? = none → c.geoJson = .error (.noSuchType s.typeCode))) ∧
    ∀ (σ χ : Type) [Source σ] (path : String) (w v : Workspace σ χ) (shapes : List Shape),
      Workspace.shapes path w = .ok shapes v →
      ∃ name file header rs tail, w.tree.Opens (Path.basePath path) .shp name file ∧
        headerOf file = .ok header ⟨StoredRecord.encodeAll rs ++ tail⟩ ∧
        StoredRecord.Accepted header.contentLength rs ∧
        shapes = StoredRecord.shapes 0 rs ∧
        Collection.geoJson ⟨shapes⟩ = .ok ((StoredRecord.positions rs).map fun p => ⟨some p⟩) ∧
        ∀ s ∈ shapes, ∃ text, s.wellKnownText = .ok text := by
  refine ⟨fun c => ⟨c.geoJson_succeeds_iff, Collection.geoJson_of_exportable, ?_⟩, ?_⟩
  · intro before s after hsplit hbefore hs
    have hrefused : c.geoJson = .error s.refusal := by
      rw [show c = ⟨before ++ s :: after⟩ from congrArg Collection.mk hsplit]
      exact Collection.geoJson_of_first hbefore hs
    refine ⟨fun type htype => ?_, fun htype => ?_⟩
    · rw [hrefused, Shape.refusal, htype]
    · rw [hrefused, Shape.refusal, htype]
  · intro σ χ _ path w v shapes h
    obtain ⟨name, file, header, rs, tail, shp, shpHeader, H, rfl⟩ :=
      Workspace.accepted_of_shapes h
    refine ⟨name, file, header, rs, tail, shp, shpHeader, H, rfl, ?_, fun s hs => ?_⟩
    · rw [Collection.geoJson_of_exportable StoredRecord.shapes_exportable,
        StoredRecord.geoPoints_shapes]
    · exact Shape.exists_wellKnownText (StoredRecord.shapes_exportable s hs)

/-- Three records with one point among them, and two collections with a shape that is refused. -/
theorem export_faithful_three_records :
    (∃ shapes v, Workspace.shapes "a.shp" Workspace.threeRecords = .ok shapes v ∧
      Collection.geoJson ⟨shapes⟩ = .ok [⟨some ⟨⟨3⟩, ⟨4⟩⟩⟩] ∧
      ∀ s ∈ shapes, ∃ text, s.wellKnownText = .ok text) ∧
    Collection.geoJson ⟨[.null none none, .make "Point" (some 5) [] none none]⟩ =
      .error (.noGeoJson "POLYGON") ∧
    Collection.geoJson ⟨[.null none none, .make "NullShape" (some 2) [] none none]⟩ =
      .error (.noSuchType 2) := by
  have hnull : ∀ t ∈ [Shape.null none none], t.IsExportable := by decide
  refine ⟨?_, ?_, ?_⟩
  · obtain ⟨u, hparsed, hmemo⟩ := Workspace.threeRecords_parsed
      (fun shape (memo : List Shape × Nat) => (shape :: memo.1, memo.2)) ([], 0)
    have hgathered : u.memo.1.reverse = StoredRecord.shapes 0 sampleRecords := by
      rw [show u.memo = _ from hmemo.trans (Workspace.mindAfter_gathering _ _ _), List.append_nil,
        List.reverse_reverse]
    have hshapes : Workspace.shapes "a.shp" Workspace.threeRecords =
        .ok u.memo.1.reverse (u.withMemo u.memo.2) :=
      congrArg Workspace.handBack hparsed
    rw [hgathered] at hshapes
    obtain ⟨_, _, _, _, _, -, -, -, -, -, htexts⟩ :=
      export_faithful.2 Plain Nat "a.shp" Workspace.threeRecords _ _ hshapes
    have hexported := (export_faithful.1 ⟨StoredRecord.shapes 0 sampleRecords⟩).2.1
      StoredRecord.shapes_exportable
    rw [StoredRecord.geoPoints_shapes] at hexported
    exact ⟨_, _, hshapes, hexported, htexts⟩
  · exact ((export_faithful.1 _).2.2 _ _ [] rfl hnull (by decide)).1 .polygon (by decide)
  · exact ((export_faithful.1 _).2.2 _ _ [] rfl hnull (by decide)).2 (by decide)

end Shapefile
