import Shapefile.Proofs.PlainReading
import Shapefile.Session.Parse

/-! # Parsing streams of the user

What is read from a stream in a workspace is read as if the stream stood alone: a header as from the
stream itself, and the records as at a desk. So a parse of streams comes to what their headers and a
run at a desk come to (`Workspace.parseStreams_of_run`). -/

namespace Shapefile.Workspace

variable {σ χ : Type}

def setStream (place : Nat) (stream : σ) (w : Workspace σ χ) : Workspace σ χ :=
  { w with streams := w.streams.set place stream }

/-- A consumer that leaves the workspace alone, apart from what it has in mind. -/
def watcher (answer : Shape → χ → Bool × χ) : Consumer σ χ := fun shape w =>
  .ok (answer shape w.memo).1 (w.withMemo (answer shape w.memo).2)

/-- A workspace after a reading at a desk that stands for the stream at a place. -/
def afterDesk (place : Nat) (d : Desk σ χ) (w : Workspace σ χ) : Workspace σ χ :=
  { w with log := d.log, memo := d.memo }.setStream place d.source

variable {w : Workspace σ χ} {i j place : Nat} {stream : σ}

theorem setStream_self (h : w.streams[place]? = some stream) : w.setStream place stream = w := by
  obtain ⟨hlt, rfl⟩ := List.getElem?_eq_some_iff.mp h
  simp only [setStream, List.set_getElem_self]

theorem getElem?_setStream (hlt : place < w.streams.length) (stream : σ) :
    (w.setStream place stream).streams[place]? = some stream :=
  List.getElem?_set_self hlt

theorem setStream_setStream (stream stream' : σ) :
    (w.setStream place stream).setStream place stream' = w.setStream place stream' := by
  simp only [setStream, List.set_set]

theorem watcher_simulates (answer : Shape → χ → Bool × χ) (shape : Shape) :
    Simulates (Beside fun (d : Desk σ χ) v => v = w.afterDesk place d)
      (Desk.watcher answer shape) (besideReading (watcher answer) shape) := by
  rintro ⟨rd, d⟩ ⟨_, _⟩ ⟨rfl, rfl⟩
  exact .ok ⟨rfl, rfl⟩

variable [Source σ]

theorem feed_setStream (hlt : place < w.streams.length) (stream : σ) (n : Int) :
    feed (.stream place) n (w.setStream place stream) =
      match Source.read n stream with
      | .ok data stream => .ok data (w.setStream place stream)
      | .error f stream => .error f (w.setStream place stream) := by
  simp only [feed, getElem?_setStream hlt]
  cases Source.read n stream with
  | ok data stream' => exact congrArg _ (setStream_setStream stream stream')
  | error f stream' => exact congrArg _ (setStream_setStream stream stream')

theorem feed_simulates_stream (hlt : place < w.streams.length) (n : Int) :
    Simulates (fun (stream : σ) v => v = w.setStream place stream) (Source.read n)
      (feed (.stream place) n) := by
  rintro stream _ rfl
  rw [feed_setStream hlt]
  cases Source.read n stream with
  | ok data stream => exact .ok rfl
  | error f stream => exact .error rfl

theorem header_read_stream {h : Header} {stream' : σ} (hw : w.streams[place]? = some stream)
    (hread : Header.read Source.read stream = .ok h stream') :
    Header.read (feed (.stream place)) w = .ok h (w.setStream place stream') := by
  obtain ⟨hlt, -⟩ := List.getElem?_eq_some_iff.mp hw
  obtain ⟨_, heq, rfl⟩ := (Header.read_simulates (feed_simulates_stream hlt)).eq_ok
    (setStream_self hw).symm hread
  exact heq

theorem link_simulates_stream (hlt : place < w.streams.length) :
    Link.Simulates (fun (d : Desk σ χ) v => v = w.afterDesk place d) Desk.link
      (link (.stream place)) where
  feed n := by
    rintro d _ rfl
    have hfeed := feed_setStream (w := { w with log := d.log, memo := d.memo }) hlt d.source n
    simp only [link, Desk.link, Desk.feed, afterDesk, hfeed]
    cases Source.read n d.source with
    | ok data stream => exact .ok rfl
    | error f stream => exact .error rfl
  log entry _ := by
    rintro d _ rfl
    rfl

theorem run_stream {answer : Shape → χ → Bool × χ} {rd rd' : Reading} {d : Desk σ χ} {n : Nat}
    (hw : w.streams[place]? = some stream)
    (hrun : Desk.run (Desk.watcher answer) (rd, ⟨stream, [], w.log, w.memo⟩) = .ok n (rd', d)) :
    Reading.run (link (.stream place)) (besideReading (watcher answer)) (rd, w) =
      .ok n (rd', w.afterDesk place d) := by
  obtain ⟨hlt, -⟩ := List.getElem?_eq_some_iff.mp hw
  have hself : w = w.afterDesk place ⟨stream, [], w.log, w.memo⟩ := (setStream_self hw).symm
  obtain ⟨⟨_, _⟩, heq, rfl, rfl⟩ :=
    (Reading.run_simulates (link_simulates_stream hlt) (watcher_simulates answer)).eq_ok
      (t := (rd, w)) ⟨rfl, hself⟩ hrun
  exact heq

/-! ## Parses -/

def opened (i j : Nat) (w : Workspace σ χ) : Workspace σ χ :=
  (w.updateSession .forget).updateSession
    ({ · with shp := some (.stream i), shx := some (.stream j) })

def indexed (place : Nat) (stream : σ) (h : Header) (w : Workspace σ χ) : Workspace σ χ :=
  ((w.setStream place stream).updateSession ({ · with indexHeader := some h })).note
    (.indexHeader h)

theorem checkIndex_stream {h : Header} {stream' : σ} (hshx : w.session.shx = some (.stream place))
    (hw : w.streams[place]? = some stream)
    (hread : Header.read Source.read stream = .ok h stream') :
    checkIndex w = .ok () (w.indexed place stream' h) := by
  simp only [checkIndex, hshx, header_read_stream hw hread]
  rfl

theorem beginReading_stream {h : Header} {stream' : σ}
    (hshp : w.session.shp = some (.stream place)) (hw : w.streams[place]? = some stream)
    (hread : Header.read Source.read stream = .ok h stream') :
    beginReading w =
      .ok (.stream place, .start h.contentLength Reading.warnsByDefault)
        (((w.setStream place stream').updateSession ({ · with header := some h })).note
          (.mainHeader h)) := by
  simp only [beginReading, hshp, header_read_stream hw hread]

theorem readRecords_stream {answer : Shape → χ → Bool × χ} {h : Header} {stream' : σ}
    {rd : Reading} {d : Desk σ χ} {n : Nat}
    (hshp : w.session.shp = some (.stream place)) (hw : w.streams[place]? = some stream)
    (hread : Header.read Source.read stream = .ok h stream')
    (hrun : Desk.run (Desk.watcher answer) (.start h.contentLength Reading.warnsByDefault,
      ⟨stream', [], .mainHeader h :: w.log, w.memo⟩) = .ok n (rd, d)) :
    readRecords (watcher answer) w =
      .ok () ((w.afterDesk place d).updateSession
        ({ · with header := some h, shapeCount := rd.shapeCount })) := by
  obtain ⟨hlt, -⟩ := List.getElem?_eq_some_iff.mp hw
  refine (bind_of_ok (beginReading_stream hshp hw hread)).trans ?_
  have hplace : (((w.setStream place stream').updateSession ({ · with header := some h })).note
      (.mainHeader h)).streams[place]? = some stream' := getElem?_setStream hlt stream'
  simp only [run_stream hplace hrun]
  refine congrArg _ ?_
  simp only [afterDesk, setStream, updateSession, note, List.set_set]

/-- A parse of two streams whose headers are accepted, when a run at a desk reads the records. -/
theorem parseStreams_of_run {answer : Shape → χ → Bool × χ} {shp shp' shx shx' : σ}
    {h index : Header} {rd : Reading} {d : Desk σ χ} {n : Nat}
    (hshp : w.streams[i]? = some shp) (hshx : w.streams[j]? = some shx) (hij : i ≠ j)
    (hindex : Header.read Source.read shx = .ok index shx')
    (hheader : Header.read Source.read shp = .ok h shp')
    (hrun : Desk.run (Desk.watcher answer) (.start h.contentLength Reading.warnsByDefault,
      ⟨shp', [], .mainHeader h :: .indexHeader index :: w.log, w.memo⟩) = .ok n (rd, d)) :
    parseStreams (some (.stream i)) (some (.stream j)) (watcher answer) w =
      .ok () ({ w with
        streams := (w.streams.set j shx').set i d.source
        session := { w.session with
          header := some h, indexHeader := some index, shapeCount := rd.shapeCount }
        log := d.log
        memo := d.memo } : Workspace σ χ).release := by
  have hshp' : (w.streams.set j shx')[i]? = some shp := by
    rw [List.getElem?_set_ne hij.symm, hshp]
  have hcheck : checkIndex (w.opened i j) = .ok () ((w.opened i j).indexed j shx' index) :=
    checkIndex_stream rfl hshx hindex
  have hread : readRecords (watcher answer) ((w.opened i j).indexed j shx' index) = .ok () _ :=
    readRecords_stream rfl hshp' hheader hrun
  have hbody : (do
      modify (·.updateSession ({ · with shp := some (.stream i), shx := some (.stream j) }))
      checkIndex
      readRecords (watcher answer) : Action σ χ Unit) (w.updateSession .forget) = .ok () _ :=
    (bind_of_ok rfl).trans ((bind_of_ok hcheck).trans hread)
  simp only [parseStreams, parsing, within, hbody]
  rfl

end Shapefile.Workspace
