import Shapefile.Proofs.Forgetting
import Shapefile.Proofs.ReadingExchanges

/-! # Reading is fail-stop

A parse of streams asks for fields only, and the first answer that is not exact is the last
exchange: nothing comes after it but the end of the parse, with the fault of that answer
(`Workspace.fail_stop`). What the parse makes of the streams is what it makes of the exact answers
alone, and answers that are cut off at a request, on either stream, show what came before it. -/

namespace Shapefile

open Desk (outcome endState)

variable {σ χ : Type}

namespace Workspace

/-- Workspaces that differ in nothing but their streams, of which there are `n`. -/
structure SameButStreams {τ : Type} (n : Nat) (w : Workspace σ χ) (w' : Workspace τ χ) : Prop where
  tree : w'.tree = w.tree
  files : w'.files = w.files
  session : w'.session = w.session
  iterators : w'.iterators = w.iterators
  log : w'.log = w.log
  memo : w'.memo = w.memo
  length : w.streams.length = n
  length' : w'.streams.length = n

/-- Workspaces in which the same has been made of the streams. -/
structure SameDecoded {τ : Type} (w : Workspace σ χ) (w' : Workspace τ χ) : Prop where
  header : w'.session.header = w.session.header
  indexHeader : w'.session.indexHeader = w.session.indexHeader
  shapeCount : w'.session.shapeCount = w.session.shapeCount
  memo : w'.memo = w.memo

variable {n : Nat}

theorem SameButStreams.decoded {w : Workspace σ χ} {w' : Workspace Plain χ}
    (h : SameButStreams n w w') : SameDecoded w w' := by
  constructor <;> first | rw [h.session] | exact h.memo

theorem SameButStreams.updated {w : Workspace σ χ} {w' : Workspace Plain χ}
    (h : SameButStreams n w w') (f : Session → Session) :
    SameButStreams n (w.updateSession f) (w'.updateSession f) :=
  { h with session := congrArg f h.session }

/-- What is left of the stream at a place. -/
def tape (w : Workspace Plain χ) (place : Nat) : Bytes := (w.streams.getD place ⟨[]⟩).rest

theorem besideReading_eq (consumer : Consumer σ χ) :
    besideReading consumer = fun shape => Reading.beside (consumer shape) := by
  funext shape ⟨rd, w⟩
  simp only [besideReading, Reading.beside]
  cases consumer shape w <;> rfl

theorem endState_learned (r : EStateM.Result Fault (Reading × Workspace σ χ) Nat) :
    endState (learned r) =
      (endState r).2.updateSession ({ · with shapeCount := (endState r).1.shapeCount }) := by
  cases r <;> rfl

variable [Source σ] (act : Shape → χ → Except Fault Bool × χ)

def partners (n : Nat) : Partners (Fin n) (Workspace σ χ) where
  feed place := feed (.stream place)
  consumer := bystander act
  Unnoticed w w' := w'.streams = w.streams ∧ w'.memo = w.memo

theorem feed_stream_of_ok {place : Nat} {k : Int} {w : Workspace σ χ} {stream stream' : σ}
    {data : Bytes} (hw : w.streams[place]? = some stream)
    (h : Source.read k stream = .ok data stream') :
    feed (.stream place) k w = .ok data (w.setStream place stream') := by
  simp only [feed, hw, h]
  rfl

theorem feed_stream_answers {place : Nat} {w : Workspace σ χ} {stream : σ}
    (hw : w.streams[place]? = some stream) (k : Int) :
    outcome (feed (.stream place) k w) = outcome (Source.read k stream) ∧
      endState (feed (.stream place) k w) =
        w.setStream place (endState (Source.read k stream)) := by
  simp only [feed, hw]
  cases Source.read k stream <;> exact ⟨rfl, rfl⟩

theorem feed_stream_same (place : Nat) (k : Int) (w : Workspace σ χ) :
    ∃ streams, streams.length = w.streams.length ∧
      endState (feed (.stream place) k w) = { w with streams } := by
  cases hw : w.streams[place]? with
  | none => exact ⟨w.streams, rfl, by simp only [feed, hw, endState]⟩
  | some stream => exact ⟨_, List.length_set, (feed_stream_answers hw k).2⟩

omit [Source σ] in
theorem endState_bystander (shape : Shape) (w : Workspace σ χ) :
    endState (bystander act shape w) = w.withMemo (act shape w.memo).2 := by
  simp only [bystander]
  split <;> rename_i hact <;> rw [hact] <;> rfl

theorem handed_of_heard {w v : Workspace σ (List Shape × χ)} {es : List (Exchange (Fin n))}
    (H : (partners (keeping act) n).Hears w es v) : v.memo.1 = w.memo.1 ++ handedShapes es := by
  refine Option.some.inj (H.recorded (fun w => some w.memo.1) (fun place k w => ?_)
    (fun shape w => ?_) fun h => by rw [h.2])
  · obtain ⟨streams, -, hfeed⟩ := feed_stream_same place.val k w
    simp only [partners, hfeed]
    exact congrArg some (List.append_nil _).symm
  · simp only [partners, endState_bystander]
    rfl

/-- The consumer keeps a list of the shapes too. -/
def replay (n : Nat) :
    Replay (Fin n) (Workspace σ (List Shape × χ)) (Workspace Plain (List Shape × χ)) where
  Hears := (partners (keeping act) n).Hears
  Same := SameButStreams n
  Decoded := SameDecoded
  tape w' place := w'.tape place
  shapes w := some w.memo.1
  shapes' w' := some w'.memo.1
  nothing := .nothing
  append := .append
  decoded := SameButStreams.decoded
  handed H := congrArg some (handed_of_heard act H)
  recorded h := congrArg (fun memo => some memo.1) h.memo

theorem SameButStreams.feed_stream {w : Workspace σ χ} {w' : Workspace Plain χ}
    (h : SameButStreams n w w') (place : Nat) (k : Int) (p : Plain) :
    SameButStreams n (endState (feed (.stream place) k w)) (w'.setStream place p) := by
  obtain ⟨streams, hlength, hfeed⟩ := feed_stream_same place k w
  rw [hfeed]
  exact { h with
    length := hlength.trans h.length
    length' := List.length_set.trans h.length' }

theorem getElem?_of_lt {w : Workspace Plain χ} {place : Nat} (h : place < w.streams.length) :
    w.streams[place]? = some ⟨w.tape place⟩ := by
  rw [tape, List.getD_eq_getElem?_getD, List.getElem?_eq_getElem h]
  rfl

theorem tape_setStream_self {w : Workspace Plain χ} {place : Nat} (h : place < w.streams.length)
    (p : Plain) : (w.setStream place p).tape place = p.rest := by
  rw [tape, List.getD_eq_getElem?_getD, getElem?_setStream h]
  rfl

theorem tape_setStream_ne (w : Workspace Plain χ) {place other : Nat} (h : place ≠ other)
    (p : Plain) : (w.setStream place p).tape other = w.tape other := by
  rw [tape, tape, List.getD_eq_getElem?_getD, List.getD_eq_getElem?_getD, setStream,
    List.getElem?_set_ne h]

theorem replay_carries (place : Fin n) :
    (replay (σ := σ) act n).Carries place (feed (.stream place)) (feed (.stream place)) where
  heard k w := .answered place k w
  exact {k w u w' data rest} hsame hfeed hlength htape := by
    have hlt : place.val < w'.streams.length := hsame.length' ▸ place.isLt
    have hplace : w'.tape place = data ++ rest place := by
      rw [← Exchange.bytes_of_length hlength place]
      exact congrFun htape place
    have hread : Plain.read k ⟨w'.tape place⟩ = .ok data ⟨rest place⟩ :=
      hplace ▸ Plain.read_of_length hlength _
    have hsame' := hsame.feed_stream place k ⟨rest place⟩
    rw [hfeed] at hsame'
    refine ⟨_, feed_stream_of_ok (getElem?_of_lt hlt) hread, hsame', funext fun other => ?_⟩
    by_cases hother : place = other
    · cases hother
      exact tape_setStream_self hlt _
    · have htape : w'.tape other = _ ++ rest other := congrFun htape other
      rw [Exchange.bytes_of_ne hother, List.nil_append] at htape
      exact (tape_setStream_ne w' (Fin.val_ne_of_ne hother) _).trans htape
  short {k w w'} hsame htape := by
    have hlt : place.val < w'.streams.length := hsame.length' ▸ place.isLt
    have htape : w'.tape place = [] := htape
    have hread : Plain.read k ⟨w'.tape place⟩ = .ok [] ⟨[]⟩ := htape ▸ Plain.read_nil k
    refine ⟨_, feed_stream_of_ok (getElem?_of_lt hlt) hread, hsame.feed_stream place k ⟨[]⟩,
      funext fun other => ?_⟩
    by_cases hother : place = other
    · cases hother
      exact (tape_setStream_self hlt _).trans htape.symm
    · exact tape_setStream_ne w' (Fin.val_ne_of_ne hother) _

theorem replay_links (place : Fin n) :
    (replay (σ := σ) act n).Links place (link (.stream place)) (link (.stream place)) where
  carries := replay_carries act place
  logged _ _ := .unnoticed ⟨rfl, rfl⟩
  same entry _ _ hsame := { hsame with log := congrArg (entry :: ·) hsame.log }
  leaves _ _ := ⟨rfl, rfl⟩
  decoded _ _ _ h := ⟨{ h with }, { h with }⟩

theorem bystander_failStops (shape : Shape) :
    FailStops (replay (σ := σ) act n) (bystander (keeping act) shape)
      (bystander (keeping act) shape) := by
  intro w
  refine .of_alike (.handed shape w) (List.forall_mem_singleton.mpr ⟨shape, rfl⟩) fun hsame => ?_
  simp only [bystander, hsame.memo]
  split
  · exact .ok ⟨{ hsame with memo := rfl }, rfl⟩
  · exact .error ⟨{ hsame with memo := rfl }, rfl⟩

theorem run_failStops (place : Fin n) :
    FailStops (replay (σ := σ) act n).reading
      (Reading.run (link (.stream place)) (besideReading (bystander (keeping act))))
      (Reading.run (link (.stream place)) (besideReading (bystander (keeping act)))) := by
  rw [besideReading_eq, besideReading_eq]
  exact Reading.run_failStops (replay_links act place) fun shape =>
    Reading.beside_failStops (bystander_failStops act shape)

/-- What a session keeps of its own. -/
theorem updateSession_failStops {f : Session → Session} {entry : Entry} :
    FailStops (replay (σ := σ) act n) (modify fun w => (w.updateSession f).note entry)
      (modify fun w => (w.updateSession f).note entry) :=
  .modify (fun _ => .unnoticed ⟨rfl, rfl⟩) fun hsame =>
    ⟨{ hsame.updated f with log := congrArg (entry :: ·) hsame.log }, rfl⟩

/-- The records of a stream, as far as the session learns of them. -/
def recordsOf (place : Nat) (rd : Reading) : Action σ (List Shape × χ) Unit := fun w =>
  learned (Reading.run (link (.stream place)) (besideReading (bystander (keeping act))) (rd, w))

theorem recordsOf_failStops (place : Fin n) (rd : Reading) :
    FailStops (replay (σ := σ) act n) (recordsOf act place rd) (recordsOf act place rd) := by
  intro w
  have hrun := run_failStops act place (rd, w)
  unfold recordsOf
  generalize Reading.run (link (.stream place)) (besideReading (bystander (keeping act)))
    (rd, w) = r at hrun ⊢
  refine hrun.wrap (fun h => ?_) ?_ rfl fun {w'} hsame =>
    ⟨(rd, w'), ⟨rfl, hsame⟩, rfl, ?_, fun hy => ?_⟩
  · rw [endState_learned]
    exact Partners.Hears.after h ⟨rfl, rfl⟩
  · rintro f t rfl
    exact ⟨_, rfl⟩
  · intro rest halike
    generalize Reading.run (link (.stream place)) (besideReading (bystander (keeping act)))
      (rd, w') = r' at halike ⊢
    cases halike with
    | ok h =>
      obtain ⟨⟨hreading, hsame⟩, htape⟩ := h
      simp only [learned, hreading]
      exact .ok ⟨hsame.updated _, htape⟩
    | error h =>
      obtain ⟨⟨hreading, hsame⟩, htape⟩ := h
      simp only [learned, hreading]
      exact .error ⟨hsame.updated _, htape⟩
  · rw [hy]
    refine ⟨_, rfl, rfl, rfl, ?_⟩
    rintro f t rfl ⟨hcount, h⟩
    exact { h with shapeCount := hcount.2 }

/-! ## Parses -/

section
variable {w : Workspace σ (List Shape × χ)}

theorem checkIndex_of_none (h : w.session.shx = none) :
    checkIndex w = .error (.noConstituent .shx) w := by
  simp only [checkIndex, h]

theorem checkIndex_of_some {handle : Handle} (h : w.session.shx = some handle) :
    checkIndex w = (Header.read (feed handle) >>= fun header =>
      modify fun w => (w.updateSession ({ · with indexHeader := some header })).note
        (.indexHeader header) : Action σ (List Shape × χ) Unit) w := by
  cases hread : Header.read (feed handle) w with
  | ok header v =>
    rw [bind_of_ok hread]
    simp only [checkIndex, h, hread]
    rfl
  | error f v =>
    rw [bind_of_error hread]
    simp only [checkIndex, h, hread]

theorem readRecords_of_none (consumer : Consumer σ (List Shape × χ)) (h : w.session.shp = none) :
    readRecords consumer w = .error (.noConstituent .shp) w :=
  bind_of_error (by simp only [beginReading, h])

theorem readRecords_of_some {place : Nat} (h : w.session.shp = some (.stream place)) :
    readRecords (bystander (keeping act)) w =
      (Header.read (feed (.stream place)) >>= fun header => do
        modify fun w => (w.updateSession ({ · with header := some header })).note
          (.mainHeader header)
        recordsOf act place (.start header.contentLength Reading.warnsByDefault) :
          Action σ (List Shape × χ) Unit) w := by
  cases hread : Header.read (feed (.stream place)) w with
  | ok header v =>
    rw [bind_of_ok hread]
    exact readRecords_of_ok (by simp only [beginReading, h, hread])
  | error f v =>
    rw [bind_of_error hread]
    exact bind_of_error (by simp only [beginReading, h, hread])

end

variable {w : Workspace σ (List Shape × χ)}

theorem checkIndex_stopsAt {shx : Option (Fin n)}
    (h : w.session.shx = shx.map (.stream ·.val)) :
    StopsAt (replay act n) w (checkIndex w) checkIndex := by
  cases shx with
  | none =>
    rw [checkIndex_of_none h]
    refine .quiet (.nothing w) fun hsame => ?_
    rw [checkIndex_of_none (hsame.session ▸ h)]
    exact .error ⟨hsame, rfl⟩
  | some place =>
    rw [checkIndex_of_some h]
    refine StopsAt.congr ?_ fun hsame => checkIndex_of_some (hsame.session ▸ h)
    exact ((Header.read_failStops (replay_carries act place)).bind fun _ =>
      updateSession_failStops act) w

theorem readRecords_stopsAt {shp : Option (Fin n)}
    (h : w.session.shp = shp.map (.stream ·.val)) :
    StopsAt (replay act n) w (readRecords (bystander (keeping act)) w)
      (readRecords (bystander (keeping act))) := by
  cases shp with
  | none =>
    rw [readRecords_of_none _ h]
    refine .quiet (.nothing w) fun hsame => ?_
    rw [readRecords_of_none _ (hsame.session ▸ h)]
    exact .error ⟨hsame, rfl⟩
  | some place =>
    rw [readRecords_of_some act h]
    refine StopsAt.congr ?_ fun hsame => readRecords_of_some act (hsame.session ▸ h)
    exact ((Header.read_failStops (replay_carries act place)).bind fun header =>
      (updateSession_failStops act).bind fun _ => recordsOf_failStops act place _) w

omit [Source σ] in
theorem SameDecoded.concluded {α β : Type} {w : Workspace σ χ} {w' : Workspace Plain χ}
    (h : SameDecoded w w') (o : Except Fault α) (o' : Except Fault β) :
    SameDecoded (w.concluded o) (w'.concluded o') := by
  rw [concluded_eq, concluded_eq]
  exact { h with }

omit [Source σ] in
theorem SameButStreams.concluded {α : Type} {w : Workspace σ χ} {w' : Workspace Plain χ}
    (h : SameButStreams n w w') (o : Except Fault α) :
    SameButStreams n (w.concluded o) (w'.concluded o) ∧ (w'.concluded o).tape = w'.tape := by
  rw [concluded_eq, concluded_eq]
  exact ⟨{ h with
    files := by simp only [release, updateSession, h.files, h.session]
    session := by simp only [release, updateSession, h.session] }, rfl⟩

theorem concluded_unnoticed {α : Type} (o : Except Fault α) (w : Workspace σ χ) :
    (partners act n).Unnoticed w (w.concluded o) := by
  rw [concluded_eq]
  exact ⟨rfl, rfl⟩

theorem parsing_stopsAt {α : Type} {body : Action σ (List Shape × χ) α}
    {body' : Action Plain (List Shape × χ) α}
    (H : StopsAt (replay act n) (w.updateSession .forget) (body (w.updateSession .forget)) body') :
    StopsAt (replay act n) w (parsing body w) (parsing body') := by
  rw [parsing_eq]
  generalize body (w.updateSession .forget) = r at H ⊢
  refine H.wrap (fun {es} h => ?_) ?_ rfl fun {w'} hsame =>
    ⟨w'.updateSession .forget, hsame.updated .forget, rfl, ?_, fun {f' t'} hy => ?_⟩
  · have hforgotten : (partners (keeping act) n).Unnoticed w (w.updateSession .forget) := ⟨rfl, rfl⟩
    rw [endState_mapState]
    exact (Partners.Hears.before hforgotten h).after (concluded_unnoticed (keeping act) _ _)
  · rintro f t rfl
    exact ⟨_, rfl⟩
  · intro rest halike
    rw [parsing_eq]
    generalize body' (w'.updateSession .forget) = r' at halike ⊢
    cases halike with
    | @ok a t t' h =>
      obtain ⟨hsame, htape⟩ := h.1.concluded (.ok a)
      exact .ok ⟨hsame, (congrArg (· ∘ Fin.val) htape).trans h.2⟩
    | @error f t t' h =>
      obtain ⟨hsame, htape⟩ := h.1.concluded (.error f : Except Fault α)
      exact .error ⟨hsame, (congrArg (· ∘ Fin.val) htape).trans h.2⟩
  · rw [parsing_eq, hy]
    refine ⟨t'.concluded (.error f' : Except Fault α), rfl, ?_, ?_, ?_⟩
    · rw [concluded_eq]
      rfl
    · rw [concluded_eq]
      rfl
    · rintro f t rfl h
      exact h.concluded (.error f : Except Fault α) (.error f' : Except Fault α)

/-- What is read of streams, one of the records and one of the index, of which either may be
missing. -/
theorem parseStreams_stopsAt (shp shx : Option (Fin n))
    (w : Workspace σ (List Shape × χ)) :
    StopsAt (replay act n) w
      (parseStreams (shp.map (.stream ·.val)) (shx.map (.stream ·.val)) (bystander (keeping act)) w)
      (parseStreams (shp.map (.stream ·.val)) (shx.map (.stream ·.val))
        (bystander (keeping act))) := by
  let pose (session : Session) : Session :=
    { session with shp := shp.map (.stream ·.val), shx := shx.map (.stream ·.val) }
  refine parsing_stopsAt act (StopsAt.bind (.quiet (.unnoticed ⟨rfl, rfl⟩) fun hsame =>
    .ok ⟨hsame.updated pose, rfl⟩) fun {_ u} hposed => ?_)
  cases hposed
  refine (checkIndex_stopsAt act rfl).bind fun {_ v} hchecked => ?_
  have hshp := checkIndex_shp ((w.updateSession .forget).updateSession pose)
  rw [hchecked] at hshp
  exact readRecords_stopsAt act hshp

theorem asked_feed_stream (place other : Fin n) (k : Int) (w : Workspace Adaptive χ) :
    (endState (feed (.stream place) k w)).streams[other.val]?.map Adaptive.asked =
      (w.streams[other.val]?.map Adaptive.asked).map
        (· ++ requests [.answered place k (outcome (feed (.stream place) k w))] other) := by
  cases hplace : w.streams[place.val]? with
  | none =>
    have hfeed : feed (.stream place) k w = .error .closedFile w := by simp only [feed, hplace]
    rw [hfeed]
    by_cases hother : place = other
    · cases hother
      simp only [endState, hplace, Option.map_none]
    · simp only [endState, requests_ne hother, map_append_nil]
  | some stream =>
    obtain ⟨hlt, -⟩ := List.getElem?_eq_some_iff.mp hplace
    obtain ⟨houtcome, hstate⟩ := feed_stream_answers hplace k
    rw [houtcome, hstate]
    by_cases hother : place = other
    · cases hother
      simp only [getElem?_setStream hlt, hplace, Option.map_some, requests_self,
        Adaptive.asked_read]
    · simp only [setStream, List.getElem?_set_ne (Fin.val_ne_of_ne hother), requests_ne hother,
        map_append_nil]

theorem asked_of_heard {w v : Workspace Adaptive (List Shape × χ)} {es : List (Exchange (Fin n))}
    (H : (replay act n).Hears w es v) (place : Fin n) :
    v.streams[place.val]?.map Adaptive.asked =
      (w.streams[place.val]?.map Adaptive.asked).map (· ++ requests es place) := by
  refine Partners.Hears.recorded (S := partners (keeping act) n)
    (fun w => w.streams[place.val]?.map Adaptive.asked)
    (fun asked k w => asked_feed_stream asked place k w) (fun shape w => ?_)
    (fun h => by rw [h.1]) H
  simp only [partners, endState_bystander]
  exact (map_append_nil _).symm

/-- Plain byte strings in the place of the streams of a workspace. -/
def withTapes (w : Workspace σ χ) (tapes : Fin w.streams.length → Bytes) : Workspace Plain χ :=
  { w with streams := List.ofFn fun place => Plain.mk (tapes place) }

omit [Source σ] in
theorem tape_withTapes (w : Workspace σ χ) (tapes : Fin w.streams.length → Bytes)
    (place : Fin w.streams.length) : (w.withTapes tapes).tape place = tapes place := by
  rw [tape, withTapes, List.getD_eq_getElem?_getD, List.getElem?_ofFn, dif_pos place.isLt]
  rfl

omit [Source σ] in
theorem withTapes_same (w : Workspace σ χ) (tapes : Fin w.streams.length → Bytes) :
    SameButStreams w.streams.length w (w.withTapes tapes) :=
  ⟨rfl, rfl, rfl, rfl, rfl, rfl, rfl, List.length_ofFn⟩

/-- The requests to a stream of a workspace so far. -/
def asked (w : Workspace Adaptive χ) (place : Nat) : List Request :=
  (w.streams[place]?.map Adaptive.asked).getD []

/-- Reading is fail-stop, whatever the streams answer and whatever a consumer does that leaves them
and the session alone. The exchanges take place in the order of the list, requests to different
streams and shapes handed over alike: with tapes that are cut off at any request, the same reading
comes to that request, after the shapes and the answers that are before it in the list, and ends
there. -/
theorem fail_stop (act : Shape → χ → Except Fault Bool × χ) :
    (∀ stream : Adaptive, ∃ es,
      Source.replay.Shows (fun s _ => s.asked) es stream (Header.read Source.read stream)
          (Header.read Source.read (Plain.mk (exactBytes es ()))) ∧
        Source.replay.InOrder es stream (Header.read Source.read)) ∧
    (∀ rd (d : Desk Adaptive (List Shape × χ)), ∃ es,
      let consumer {σ : Type} : Desk.Consumer σ (List Shape × χ) := Desk.bystander (keeping act)
      let r := Desk.run consumer (rd, d)
      (Desk.replay act).reading.Shows (fun s _ => s.2.source.asked) es (rd, d) r
          (Desk.run consumer (rd, d.withTape (exactBytes es ()))) ∧
        (endState r).2.memo.1 = d.memo.1 ++ handedShapes es ∧
        (Desk.replay act).reading.InOrder es (rd, d) (Desk.run consumer)) ∧
    (∀ rounds rd (d : Desk Adaptive (List Shape × χ)), ∃ es,
      let body {σ : Type} : Desk.Consumer σ (List Shape × χ) := Desk.bystander (keeping act)
      let r := Desk.iterating body rounds (rd, d)
      (Desk.replay act).reading.Shows (fun s _ => s.2.source.asked) es (rd, d) r
          (Desk.iterating body rounds (rd, d.withTape (exactBytes es ()))) ∧
        (endState r).2.memo.1 = d.memo.1 ++ handedShapes es ∧
        (Desk.replay act).reading.InOrder es (rd, d) (Desk.iterating body rounds)) ∧
    ∀ (w : Workspace Adaptive (List Shape × χ)) (shp shx : Option (Fin w.streams.length)), ∃ es,
      let consumer {σ : Type} : Consumer σ (List Shape × χ) := bystander (keeping act)
      let r := parseStreams (shp.map (.stream ·.val)) (shx.map (.stream ·.val)) consumer w
      (replay act w.streams.length).Shows (fun v place => v.asked place) es w r
          (parseStreams (shp.map (.stream ·.val)) (shx.map (.stream ·.val)) consumer
            (w.withTapes (exactBytes es))) ∧
        (endState r).memo.1 = w.memo.1 ++ handedShapes es ∧
        (replay act w.streams.length).InOrder es w
          (parseStreams (shp.map (.stream ·.val)) (shx.map (.stream ·.val)) consumer) := by
  refine ⟨fun stream => ?_, fun rd d => ?_, fun rounds rd d => ?_, fun w shp shx => ?_⟩
  · exact (Header.read_failStops Source.replay_carries stream).shows Source.asked_of_heard
      (fun es => Plain.mk (exactBytes es ())) fun es => ⟨trivial, rfl⟩
  · obtain ⟨es, h, horder⟩ := (Desk.run_failStops act (rd, d)).shows
      (Desk.asked_of_heard act) (fun es => (rd, d.withTape (exactBytes es ())))
      fun es => ⟨⟨rfl, rfl, rfl, rfl⟩, rfl⟩
    exact ⟨es, h, Desk.handed_of_heard act h.hears, horder⟩
  · obtain ⟨es, h, horder⟩ := (Desk.iterating_failStops act rounds (rd, d)).shows
      (Desk.asked_of_heard act) (fun es => (rd, d.withTape (exactBytes es ())))
      fun es => ⟨⟨rfl, rfl, rfl, rfl⟩, rfl⟩
    exact ⟨es, h, Desk.handed_of_heard act h.hears, horder⟩
  · have hrecorded {es v} (H : (replay act w.streams.length).Hears w es v)
        (place : Fin w.streams.length) : v.asked place = w.asked place ++ requests es place := by
      have hplace : w.streams[place.val]? = some w.streams[place] := List.getElem?_eq_getElem _
      have hasked := asked_of_heard act H place
      simp only [asked, hasked, hplace, Option.map_some, Option.getD_some]
    obtain ⟨es, h, horder⟩ := (parseStreams_stopsAt act shp shx w).shows hrecorded
      (fun es => w.withTapes (exactBytes es))
      fun es => ⟨withTapes_same w _, funext (tape_withTapes w _)⟩
    exact ⟨es, h, handed_of_heard act h.hears, horder⟩

end Workspace
end Shapefile
