import Shapefile.Proofs.SideBySide

/-! # What a handle leads to

The bytes that are left behind a handle are all that a reading learns of its workspace. So the
records of a file or a stream are read as at a desk that has these bytes
(`Workspace.run_standsFor`), whatever else there is. -/

namespace Shapefile

open Desk (outcome endState)

variable {χ : Type}

/-- A consumer at a desk that uses nothing but what it has in mind. It may fail. -/
def Desk.bystander {σ : Type} (act : Shape → χ → Except Fault Bool × χ) : Desk.Consumer σ χ :=
  fun shape (rd, d) =>
    match act shape d.memo with
    | (.ok more, memo) => .ok more (rd, { d with memo })
    | (.error f, memo) => .error f (rd, { d with memo })

namespace Workspace

/-- A consumer that leaves the workspace alone, apart from what it has in mind. It may fail. -/
def bystander {σ : Type} (act : Shape → χ → Except Fault Bool × χ) : Consumer σ χ := fun shape w =>
  match act shape w.memo with
  | (.ok more, memo) => .ok more (w.withMemo memo)
  | (.error f, memo) => .error f (w.withMemo memo)

/-- The bytes that are left of an open file or of a stream. -/
def left? (w : Workspace Plain χ) : Handle → Option Bytes
  | .file place => w.files[place]?.join.map OpenFile.rest
  | .stream place => w.streams[place]?.map Plain.rest

theorem left_stream {w : Workspace Plain χ} {i : Nat} {bytes : Bytes}
    (h : w.streams[i]? = some ⟨bytes⟩) : w.left? (.stream i) = some bytes := by
  simp only [left?, h, Option.map_some]

theorem left_addFile (path : String) (file : OpenFile) (w : Workspace Plain χ) :
    (w.addFile path file).2.left? (.file w.files.length) = some file.rest := by
  simp only [left?, addFile, List.getElem?_concat_length, Option.join_some, Option.map_some]

/-- In the workspace `w` something was read through a handle, and nothing else was touched but the
log and what the consumers have in mind. -/
structure ReadThrough (w : Workspace Plain χ) (handle : Handle) (v : Workspace Plain χ) : Prop where
  session : v.session = w.session
  tree : v.tree = w.tree
  others : ∀ other, other ≠ handle → v.left? other = w.left? other
  taken : ∀ bytes, w.left? handle = some bytes →
    ∃ n ≤ bytes.length, v.left? handle = some (bytes.drop n)

theorem ReadThrough.refl (w : Workspace Plain χ) (handle : Handle) : ReadThrough w handle w :=
  ⟨rfl, rfl, fun _ _ => rfl, fun _ h => ⟨0, Nat.zero_le _, h⟩⟩

variable {w v : Workspace Plain χ} {handle : Handle} {bytes : Bytes}

theorem ReadThrough.trans {u : Workspace Plain χ} (H : ReadThrough u handle w)
    (H' : ReadThrough w handle v) : ReadThrough u handle v := by
  refine ⟨H'.session.trans H.session, H'.tree.trans H.tree,
    fun other h => (H'.others other h).trans (H.others other h), fun bytes h => ?_⟩
  obtain ⟨n, hn, hw⟩ := H.taken bytes h
  obtain ⟨m, hm, hv⟩ := H'.taken _ hw
  rw [List.length_drop] at hm
  rw [List.drop_drop] at hv
  exact ⟨n + m, by omega, hv⟩

theorem cut_eq_drop (n : Int) (bytes : Bytes) :
    ∃ m ≤ bytes.length, (Bytes.cut n bytes).2 = bytes.drop m := by
  refine ⟨(Bytes.cut n bytes).1.length, ?_, (Bytes.drop_length_cut n bytes).symm⟩
  have hlength := congrArg List.length (Bytes.cut_append n bytes)
  rw [List.length_append] at hlength
  omega

/-- What is left can be read, and the rest of it is left then. -/
theorem feed_left (h : w.left? handle = some bytes) (n : Int) :
    ∃ v, feed handle n w = .ok (Bytes.cut n bytes).1 v ∧
      v.left? handle = some (Bytes.cut n bytes).2 ∧ v.memo = w.memo ∧
      ReadThrough w handle v := by
  have htaken {v : Workspace Plain χ} (hv : v.left? handle = some (Bytes.cut n bytes).2)
      (bytes' : Bytes) (h' : w.left? handle = some bytes') :
      ∃ m ≤ bytes'.length, v.left? handle = some (bytes'.drop m) := by
    cases h.symm.trans h'
    obtain ⟨m, hm, heq⟩ := cut_eq_drop n bytes
    exact ⟨m, hm, heq ▸ hv⟩
  cases handle with
  | file place =>
    obtain ⟨file, hfile, rfl⟩ := Option.map_eq_some_iff.mp h
    have hfile : w.files[place]? = some (some file) := Option.join_eq_some_iff.mp hfile
    obtain ⟨hlt, -⟩ := List.getElem?_eq_some_iff.mp hfile
    have hleft : (w.withFile place (file.read n).2).left? (.file place) =
        some (Bytes.cut n file.rest).2 := by
      simp only [left?, getElem?_withFile hlt, Option.join_some, Option.map_some,
        OpenFile.rest_read]
    refine ⟨_, ?_, hleft, rfl, rfl, rfl, fun other hother => ?_, htaken hleft⟩
    · simp only [feed, hfile]
      rfl
    · cases other with
      | stream place' => rfl
      | file place' =>
        have hne : place ≠ place' := fun h => hother (h ▸ rfl)
        simp only [left?, withFile, List.getElem?_set_ne hne]
  | stream place =>
    obtain ⟨stream, hstream, rfl⟩ := Option.map_eq_some_iff.mp h
    obtain ⟨hlt, -⟩ := List.getElem?_eq_some_iff.mp hstream
    have hleft : (w.setStream place ⟨(Bytes.cut n stream.rest).2⟩).left? (.stream place) =
        some (Bytes.cut n stream.rest).2 := by
      simp only [left?, getElem?_setStream hlt, Option.map_some]
    refine ⟨_, ?_, hleft, rfl, rfl, rfl, fun other hother => ?_, htaken hleft⟩
    · simp only [feed, hstream]
      rfl
    · cases other with
      | file place' => rfl
      | stream place' =>
        have hne : place ≠ place' := fun h => hother (h ▸ rfl)
        simp only [left?, setStream, List.getElem?_set_ne hne]

/-! ## Headers -/

/-- A byte string that stands alone stands for a handle in the workspace `w`. -/
structure BytesFor (w : Workspace Plain χ) (handle : Handle) (p : Plain) (v : Workspace Plain χ) :
    Prop where
  left : v.left? handle = some p.rest
  memo : v.memo = w.memo
  through : ReadThrough w handle v

theorem feed_bytesFor (n : Int) :
    Simulates (BytesFor w handle) (Plain.read n) (feed handle n) := by
  rintro ⟨rest⟩ v ⟨hleft, hmemo, hthrough⟩
  obtain ⟨u, hfeed, hleft', hmemo', hthrough'⟩ := feed_left hleft n
  rw [hfeed]
  exact .ok ⟨hleft', hmemo'.trans hmemo, hthrough.trans hthrough'⟩

theorem header_read_left (h : w.left? handle = some bytes) :
    Alike (BytesFor w handle) (Header.read Plain.read ⟨bytes⟩) (Header.read (feed handle) w) :=
  Header.read_simulates feed_bytesFor ⟨h, rfl, .refl w handle⟩

theorem checkIndex_left {index : Header} {p : Plain} (hshx : w.session.shx = some handle)
    (h : w.left? handle = some bytes) (hread : Header.read Plain.read ⟨bytes⟩ = .ok index p) :
    ∃ v, checkIndex w =
        .ok () ((v.updateSession ({ · with indexHeader := some index })).note
          (.indexHeader index)) ∧ BytesFor w handle p v := by
  obtain ⟨v, hv, hbytes⟩ := (Header.read_simulates feed_bytesFor).eq_ok
    (⟨h, rfl, .refl w handle⟩ : BytesFor w handle ⟨bytes⟩ w) hread
  simp only [checkIndex, hshx, hv]
  exact ⟨v, rfl, hbytes⟩

theorem beginReading_left {header : Header} {p : Plain} (hshp : w.session.shp = some handle)
    (h : w.left? handle = some bytes) (hread : Header.read Plain.read ⟨bytes⟩ = .ok header p) :
    ∃ v, beginReading w =
        .ok (handle, .start header.contentLength Reading.warnsByDefault)
          ((v.updateSession ({ · with header := some header })).note (.mainHeader header)) ∧
      BytesFor w handle p v := by
  obtain ⟨v, hv, hbytes⟩ := (Header.read_simulates feed_bytesFor).eq_ok
    (⟨h, rfl, .refl w handle⟩ : BytesFor w handle ⟨bytes⟩ w) hread
  simp only [beginReading, hshp, hv]
  exact ⟨v, rfl, hbytes⟩

/-! ## Records -/

/-- A desk stands for a handle in the workspace `w`. -/
structure StandsFor (w : Workspace Plain χ) (handle : Handle) (d : Desk Plain χ)
    (v : Workspace Plain χ) : Prop where
  left : v.left? handle = some d.source.rest
  memo : v.memo = d.memo
  through : ReadThrough w handle v

theorem link_standsFor : Link.Simulates (StandsFor w handle) Desk.link (link handle) where
  feed n := by
    rintro d v ⟨hleft, hmemo, hthrough⟩
    obtain ⟨u, hfeed, hleft', hmemo', hthrough'⟩ := feed_left hleft n
    simp only [link, hfeed]
    exact .ok ⟨hleft', hmemo'.trans hmemo, hthrough.trans hthrough'⟩
  log entry _ := by
    rintro d v ⟨hleft, hmemo, hthrough⟩
    exact ⟨hleft, hmemo, { hthrough with }⟩

theorem bystander_standsFor (act : Shape → χ → Except Fault Bool × χ) (shape : Shape) :
    Simulates (Beside (StandsFor w handle)) (Desk.bystander act shape)
      (besideReading (bystander act) shape) := by
  rintro ⟨rd, d⟩ ⟨_, v⟩ ⟨rfl, hleft, hmemo, hthrough⟩
  simp only at hmemo
  simp only [Desk.bystander, besideReading, bystander, hmemo]
  split
  · exact .ok ⟨rfl, hleft, rfl, { hthrough with }⟩
  · exact .error ⟨rfl, hleft, rfl, { hthrough with }⟩

theorem run_standsFor (act : Shape → χ → Except Fault Bool × χ) (rd : Reading)
    (h : w.left? handle = some bytes) :
    Alike (Beside (StandsFor w handle))
      (Desk.run (Desk.bystander act) (rd, ⟨⟨bytes⟩, [], [], w.memo⟩))
      (Reading.run (link handle) (besideReading (bystander act)) (rd, w)) :=
  Reading.run_simulates link_standsFor (bystander_standsFor act)
    ⟨rfl, h, rfl, .refl w handle⟩

/-! ## Two handles -/

theorem alike_of_common {ρ σ τ α : Type} {R : ρ → σ → Prop} {S : ρ → τ → Prop}
    {q : EStateM.Result Fault ρ α} {r : EStateM.Result Fault σ α} {s : EStateM.Result Fault τ α}
    (h : Alike R q r) (h' : Alike S q s) : Alike (fun u v => ∃ d, R d u ∧ S d v) r s := by
  cases h with
  | ok h => cases h' with | ok h' => exact .ok ⟨_, h, h'⟩
  | error h => cases h' with | error h' => exact .error ⟨_, h, h'⟩

variable {u : Workspace Plain χ} {handle' : Handle}

theorem header_read_alike (hu : u.left? handle = some bytes) (hv : v.left? handle' = some bytes) :
    Alike (fun u' v' => ∃ p, BytesFor u handle p u' ∧ BytesFor v handle' p v')
      (Header.read (feed handle) u) (Header.read (feed handle') v) :=
  alike_of_common (header_read_left hu) (header_read_left hv)

/-- The session has learned what came of a reading at a desk that stood for a handle. -/
structure Learned (w : Workspace Plain χ) (handle : Handle) (t : Reading × Desk Plain χ)
    (v : Workspace Plain χ) : Prop where
  session : v.session = { w.session with shapeCount := t.1.shapeCount }
  left : v.left? handle = some t.2.source.rest
  memo : v.memo = t.2.memo
  others : ∀ other, other ≠ handle → v.left? other = w.left? other
  taken : ∀ bytes, w.left? handle = some bytes →
    ∃ n ≤ bytes.length, v.left? handle = some (bytes.drop n)

theorem learned_of_beside {t : Reading × Desk Plain χ} {s : Reading × Workspace Plain χ}
    (H : Beside (StandsFor w handle) t s) :
    Learned w handle t (s.2.updateSession ({ · with shapeCount := s.1.shapeCount })) := by
  obtain ⟨hrd, hleft, hmemo, hthrough⟩ := H
  refine ⟨?_, hleft, hmemo, hthrough.others, hthrough.taken⟩
  rw [hrd, ← hthrough.session]
  rfl

/-- Through two handles that the same bytes are left behind the same comes of the records. -/
theorem learned_left_alike (hu : u.left? handle = some bytes) (hv : v.left? handle' = some bytes)
    (hmemo : v.memo = u.memo) (act : Shape → χ → Except Fault Bool × χ) (rd : Reading) :
    Alike (fun u' v' => ∃ t, Learned u handle t u' ∧ Learned v handle' t v')
      (learned (Reading.run (link handle) (besideReading (bystander act)) (rd, u)))
      (learned (Reading.run (link handle') (besideReading (bystander act)) (rd, v))) := by
  have hrun := alike_of_common (run_standsFor act rd hu) (hmemo ▸ run_standsFor act rd hv)
  generalize Reading.run (link handle) _ (rd, u) = r at hrun ⊢
  generalize Reading.run (link handle') _ (rd, v) = r' at hrun ⊢
  cases hrun with
  | ok h =>
    obtain ⟨t, h, h'⟩ := h
    exact .ok ⟨t, learned_of_beside h, learned_of_beside h'⟩
  | error h =>
    obtain ⟨t, h, h'⟩ := h
    exact .error ⟨t, learned_of_beside h, learned_of_beside h'⟩

end Workspace
end Shapefile
