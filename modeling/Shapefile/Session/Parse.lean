import Shapefile.Path
import Shapefile.Session.Workspace

/-! Parsing a shapefile: the index header is checked first, then the header of the records, and then
the records are read. Of the index nothing but its header is read. -/

namespace Shapefile.Workspace

variable {σ χ : Type} [Source σ]

/-- Reads the header of the index. -/
def checkIndex : Action σ χ Unit := fun w =>
  match w.session.shx with
  | none => .error (.noConstituent .shx) w
  | some handle =>
    match Header.read (feed handle) w with
    | .ok header w =>
      .ok () ((w.updateSession ({ · with indexHeader := some header })).note (.indexHeader header))
    | .error f w => .error f w

/-- Opens the files of the shapefile at a path, and checks the index in between. -/
def load (path : String) : Action σ χ Unit := do
  modify (·.updateSession ({ · with basePath := Path.basePath path }))
  let shx ← openConstituent .shx
  modify (·.updateSession ({ · with shx := some shx }))
  checkIndex
  let shp ← openConstituent .shp
  modify (·.updateSession ({ · with shp := some shp }))

/-- Reads the header of the records, and gives a reading of what it announces. -/
def beginReading : Action σ χ (Handle × Reading) := fun w =>
  match w.session.shp with
  | none => .error (.noConstituent .shp) w
  | some handle =>
    match Header.read (feed handle) w with
    | .ok header w =>
      .ok (handle, .start header.contentLength Reading.warnsByDefault)
        ((w.updateSession ({ · with header := some header })).note (.mainHeader header))
    | .error f w => .error f w

/-- A consumer of a workspace as a consumer of a reading, which it does not use. -/
def besideReading (consumer : Consumer σ χ) : Reading.Consumer (Workspace σ χ) :=
  fun shape (rd, w) =>
    match consumer shape w with
    | .ok more w => .ok more (rd, w)
    | .error f w => .error f (rd, w)

/-- Hands the shapes of the records to a consumer. The session learns their number when the reading
ends, also if it fails. -/
def readRecords (consumer : Consumer σ χ) : Action σ χ Unit := do
  let (handle, reading) ← beginReading
  fun w =>
    match Reading.run (link handle) (besideReading consumer) (reading, w) with
    | .ok _ (rd, w) => .ok () (w.updateSession ({ · with shapeCount := rd.shapeCount }))
    | .error f (rd, w) => .error f (w.updateSession ({ · with shapeCount := rd.shapeCount }))

/-- Parses the shapefile at a path. -/
def parse (path : String) (consumer : Consumer σ χ) : Action σ χ Unit :=
  parsing do
    load path
    readRecords consumer

/-- Parses streams of the user from where they are. They are not closed. -/
def parseStreams (shp shx : Option Handle) (consumer : Consumer σ χ) : Action σ χ Unit :=
  parsing do
    modify (·.updateSession ({ · with shp, shx }))
    checkIndex
    readRecords consumer

/-- The shapes of the shapefile at a path. -/
def shapes (path : String) : Action σ χ (List Shape) := fun w =>
  let gather : Consumer σ (List Shape × χ) := fun shape w =>
    .ok true (w.withMemo (shape :: w.memo.1, w.memo.2))
  match parse path gather (w.withMemo ([], w.memo)) with
  | .ok _ w => .ok w.memo.1.reverse (w.withMemo w.memo.2)
  | .error f w => .error f (w.withMemo w.memo.2)

/-- Puts a session aside, into the memo, and another one into its place. -/
def putAside (session : Session) (w : Workspace σ χ) : Workspace σ (Session × χ) :=
  { w with session, memo := (w.session, w.memo) }

/-- Takes up the session that was put aside. -/
def takeUp (w : Workspace σ (Session × χ)) : Workspace σ χ :=
  { w with session := w.memo.1, memo := w.memo.2 }

/-- Parses the shapefile at a path in a session of its own, which is given back. The consumer meets
the session that was there before. -/
def parseApart (path : String) (consumer : Consumer σ χ) : Action σ χ Session := fun w =>
  let handOver : Consumer σ (Session × χ) := fun shape w =>
    match consumer shape w.takeUp with
    | .ok more w' => .ok more (w'.putAside w.session)
    | .error f w' => .error f (w'.putAside w.session)
  match parse path handOver (w.putAside .init) with
  | .ok _ w => .ok w.session w.takeUp
  | .error f w => .error f w.takeUp

end Shapefile.Workspace
