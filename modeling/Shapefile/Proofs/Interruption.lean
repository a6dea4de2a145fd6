import Shapefile.Proofs.Entries
import Shapefile.Proofs.Forgetting

/-! # Sessions that are used from inside a parse

A consumer may use the session that hands it a shape: it may close it, or parse another path with
it. A reading that goes on afterwards depends on what it has in its own hands. A parse of a path
reads from a file of the session, which is closed by then, so it ends with the shape at hand
(`Workspace.parse_interrupted`). A parse of streams reads from the user's, and goes on as if nothing
had happened (`Workspace.parseStreams_interrupted`). -/

namespace Shapefile.Workspace

open Desk (outcome endState)

variable {σ χ ψ : Type}

/-- What is done with a session while it parses. -/
inductive Interruption (σ χ : Type) where
  | close
  | parse (path : String) (consumer : Outsider σ χ)

/-- The streams of the user are not used. -/
def Interruption.SparesStreams : Interruption σ χ → Prop
  | close => True
  | parse _ consumer =>
    ∀ shape w, (endState (consumer.act shape w)).streams = (w : Workspace σ χ).streams

/-- What a consumer has in mind that interrupts a parse: the shapes that it was handed, the latest
first, the message of the session right after the interruption, and what the consumer has in mind
that takes part in it. -/
structure Notes (χ : Type) where
  shapes : List Shape
  message? : Option String
  memo : χ

namespace Notes

def start (memo : χ) : Notes χ := ⟨[], none, memo⟩

def add (shape : Shape) (notes : Notes χ) : Notes χ :=
  { notes with shapes := shape :: notes.shapes }

end Notes

/-- Takes note of every shape, and wants all of them. -/
def listing : Consumer σ (Notes χ) := watcher fun shape notes => (true, notes.add shape)

section
variable [Source σ]

/-- The workspace after an interruption, whatever its outcome. -/
def Interruption.perform (w : Workspace σ χ) : Interruption σ χ → Workspace σ χ
  | close => endState (Workspace.close w)
  | parse path consumer => endState (Workspace.parse path consumer.act w)

/-- Takes note of every shape and wants all of them, and uses the session when it is handed the
`k`th one. -/
def interrupting (k : Nat) (i : Interruption σ χ) : Consumer σ (Notes χ) := fun shape w =>
  if w.memo.shapes.length + 1 = k then
    let v := i.perform (w.withMemo w.memo.memo)
    .ok true (v.withMemo ⟨shape :: w.memo.shapes, some v.session.error, v.memo⟩)
  else listing shape w

end

/-- A parse that is cut off: it has handed over the first `k` shapes, and ends without a fault only
if these take all that the header promises. The message of the session is the one that the
interruption left, and no file is left open. -/
structure CutOff (k : Nat) (full cut : EStateM.Result Fault (Workspace σ (Notes χ)) Unit) :
    Prop where
  shapes : (endState cut).memo.shapes.reverse = (endState full).memo.shapes.reverse.take k
  outcome : ∃ h, (endState full).session.header = some h ∧
    outcome cut =
      if h.contentLength ≤ sizeTaken ((endState full).memo.shapes.reverse.take k) then .ok ()
      else .error .closedFile
  shapeCount : (endState cut).session.shapeCount = k
  message : (endState cut).memo.message? = some (endState cut).session.error
  closed : ∀ place, ¬ (endState cut).IsOpen place
  released : (endState cut).IsReleased

/-- Two parses of which one does not feel that it is interrupted. -/
structure Undisturbed (full cut : EStateM.Result Fault (Workspace σ (Notes χ)) Unit) : Prop where
  outcome : outcome cut = outcome full
  shapes : (endState cut).memo.shapes = (endState full).memo.shapes
  shapeCount : (endState cut).session.shapeCount = (endState full).session.shapeCount
  streams : (endState cut).streams = (endState full).streams

variable [Source σ]

/-! ## Parses that read from files -/

section
variable {α β : Type} {path : String} {w v : Workspace σ χ} {handle : Handle} {rd : Reading}

/-- What is read from a file leaves the streams alone. -/
theorem link_file_streams (place : Nat) (streams : List σ) :
    Link.Simulates (Alongside fun w : Workspace σ χ => w.streams = streams) (link (.file place))
      (link (.file place)) where
  feed n := by
    rintro w _ ⟨rfl, h⟩
    simp only [link, feed]
    split
    · exact .ok ⟨rfl, h⟩
    · exact .error ⟨rfl, h⟩
  log entry _ := by
    rintro w _ ⟨rfl, h⟩
    exact ⟨rfl, h⟩

omit [Source σ] in
theorem streams_bind {x : Action σ χ α} {f : α → Action σ χ β}
    (hx : (endState (x w)).streams = w.streams)
    (hf : ∀ a v, x w = .ok a v → (endState (f a v)).streams = v.streams) :
    (endState ((x >>= f) w)).streams = w.streams := by
  cases h : x w with
  | ok a v =>
    rw [h] at hx
    rw [bind_of_ok h]
    exact (hf a v h).trans hx
  | error e v =>
    rw [h] at hx
    rw [bind_of_error h]
    exact hx

theorem header_read_streams (place : Nat) (w : Workspace σ χ) :
    (endState (Header.read (feed (.file place)) w)).streams = w.streams :=
  (Desk.endState_alike (Header.read_simulates (link_file_streams place w.streams).feed
    ⟨rfl, rfl⟩)).2

theorem checkIndex_streams {place : Nat} (h : w.session.shx = some (.file place)) :
    (endState (checkIndex w)).streams = w.streams := by
  have hread := header_read_streams place w
  simp only [checkIndex, h]
  cases hr : Header.read (feed (.file place)) w with
  | ok header v | error f v =>
    rw [hr] at hread
    exact hread

theorem beginReading_streams {place : Nat} (h : w.session.shp = some (.file place)) :
    (endState (beginReading w)).streams = w.streams := by
  have hread := header_read_streams place w
  simp only [beginReading, h]
  cases hr : Header.read (feed (.file place)) w with
  | ok header v | error f v =>
    rw [hr] at hread
    exact hread

omit [Source σ] in
theorem openConstituent_streams (c : Constituent) (w : Workspace σ χ) :
    (endState (openConstituent c w)).streams = w.streams := by
  simp only [openConstituent]
  split
  · rfl
  · split
    · rfl
    · split <;> rfl

omit [Source σ] in
theorem openConstituent_file {c : Constituent} (h : openConstituent c w = .ok handle v) :
    ∃ place, handle = .file place := by
  simp only [openConstituent] at h
  split at h
  · cases h
  · split at h
    · cases h
      exact ⟨_, rfl⟩
    · split at h
      · cases h
        exact ⟨_, rfl⟩
      · cases h

theorem load_streams (path : String) (w : Workspace σ χ) :
    (endState (load path w)).streams = w.streams := by
  refine streams_bind rfl fun _ u _ => ?_
  refine streams_bind (openConstituent_streams .shx u) fun shx u hshx => ?_
  obtain ⟨place, rfl⟩ := openConstituent_file hshx
  refine streams_bind rfl fun _ v hv => ?_
  cases hv
  refine streams_bind (checkIndex_streams rfl) fun _ v _ => ?_
  exact streams_bind (openConstituent_streams .shp v) fun _ _ _ => rfl

theorem load_shp (h : load path w = .ok () v) : ∃ place, v.session.shp = some (.file place) := by
  obtain ⟨_, _, -, h⟩ := bind_eq_ok h
  obtain ⟨_, _, -, h⟩ := bind_eq_ok h
  obtain ⟨_, _, -, h⟩ := bind_eq_ok h
  obtain ⟨_, _, -, h⟩ := bind_eq_ok h
  obtain ⟨handle, _, hshp, h⟩ := bind_eq_ok h
  cases h
  obtain ⟨place, rfl⟩ := openConstituent_file hshp
  exact ⟨place, rfl⟩

theorem beginReading_handle (h : beginReading w = .ok (handle, rd) v) :
    w.session.shp = some handle ∧
      ∃ header, v.session.header = some header ∧
        rd = .start header.contentLength Reading.warnsByDefault := by
  simp only [beginReading] at h
  split at h
  · cases h
  · rename_i hshp
    split at h
    · cases h
      exact ⟨hshp, _, rfl, rfl⟩
    · cases h

/-- A parse of a path reads from a file that it opened, as many bytes as the header promises. -/
theorem opening_file (h : opening path w = .ok (handle, rd) v) :
    (∃ place, handle = .file place) ∧
      ∃ header, v.session.header = some header ∧
        rd = .start header.contentLength Reading.warnsByDefault := by
  obtain ⟨_, u, hload, hbegin⟩ := bind_eq_ok h
  obtain ⟨place, hshp⟩ := load_shp hload
  obtain ⟨hhandle, hheader⟩ := beginReading_handle hbegin
  exact ⟨⟨place, Option.some.inj (hhandle.symm.trans hshp)⟩, hheader⟩

omit [Source σ] in
theorem concluded_streams (o : Except Fault α) (w : Workspace σ χ) :
    (w.concluded o).streams = w.streams := by
  rw [concluded_eq]
  rfl

/-- A parse of a path leaves the streams alone if its consumer does. -/
theorem parse_streams {consumer : Consumer σ χ}
    (C : ∀ shape w, (endState (consumer shape w)).streams = w.streams) (w : Workspace σ χ) :
    (endState (parse path consumer w)).streams = w.streams := by
  rw [parse, parsing_eq, endState_mapState, concluded_streams]
  refine streams_bind (w := w.updateSession .forget) (load_streams path _) fun _ u hload => ?_
  obtain ⟨place, hshp⟩ := load_shp hload
  refine streams_bind (beginReading_streams hshp) ?_
  rintro ⟨handle, rd⟩ v hbegin
  obtain ⟨hhandle, -⟩ := beginReading_handle hbegin
  obtain rfl : .file place = handle := Option.some.inj (hshp.symm.trans hhandle)
  have hconsumer (shape : Shape) :
      Preserves (fun u : Workspace σ χ => u.streams = v.streams) (consumer shape) :=
    fun u h => (C shape u).trans h
  have hrun := Desk.endState_alike (Reading.run_simulates (link_file_streams place v.streams)
    (besideReading_simulates fun shape => (hconsumer shape).simulates) (s := (rd, v))
    (t := (rd, v)) ⟨rfl, rfl, rfl⟩)
  simp only
  cases hr : Reading.run (link (.file place)) (besideReading consumer) (rd, v) with
  | ok n t | error f t =>
    rw [hr] at hrun
    exact hrun.2.2

theorem untouched_of_gives {shapes : List Shape} {s t : Reading × Workspace σ χ}
    (H : Gives (Reading.advance (link handle)) shapes s t) : Untouched s.2 t.2 := by
  induction H with
  | nil s => exact .refl s.2
  | @cons _ _ s _ _ first _ ih =>
    have hnext : Untouched s.2 (endState (Reading.advance (link handle) (s.1, s.2))).2 :=
      next_untouched s.2 handle .suspended s.1
    rw [first] at hnext
    exact hnext.trans ih

end

/-! ## Interruptions -/

namespace Interruption

variable {w : Workspace σ χ}

theorem perform_ownsOpen (i : Interruption σ χ) (h : OwnsOpen w) : OwnsOpen (i.perform w) := by
  cases i with
  | close => exact ownsOpen_enduring.released h
  | parse path consumer =>
    refine ownsOpen_enduring.parse path (fun shape v hv place => ?_) h
    have H := consumer.untouched shape v
    rw [H.session, H.opens]
    exact hv place

theorem perform_released (i : Interruption σ χ) (w : Workspace σ χ) :
    (i.perform w).IsReleased := by
  cases i with
  | close => exact release_released w
  | parse path consumer => exact parsing_released _ w

/-- An interruption closes whatever the session has open. -/
theorem perform_closed (i : Interruption σ χ) (h : OwnsOpen w) (place : Nat) :
    ¬ (i.perform w).IsOpen place :=
  not_isOpen (i.perform_ownsOpen h) (i.perform_released w) place

theorem perform_streams {i : Interruption σ χ} (H : i.SparesStreams) (w : Workspace σ χ) :
    (i.perform w).streams = w.streams := by
  cases i with
  | close => rfl
  | parse path consumer => exact parse_streams H w

end Interruption

/-! ## A parse of a path -/

omit [Source σ] in
theorem mindAfter_add (shapes : List Shape) (notes : Notes χ) :
    mindAfter (fun shape notes => (true, Notes.add shape notes)) shapes notes =
      { notes with shapes := shapes.reverse ++ notes.shapes } := by
  induction shapes generalizing notes with
  | nil => rfl
  | cons shape shapes ih =>
    rw [List.reverse_cons, List.append_assoc]
    exact ih (notes.add shape)

section
variable {k : Nat} {shape : Shape} {w : Workspace σ (Notes χ)}

theorem interrupting_of_ne (h : w.memo.shapes.length + 1 ≠ k) (i : Interruption σ χ) :
    interrupting k i shape w = .ok true (w.withMemo (w.memo.add shape)) := if_neg h

theorem interrupting_of_eq (h : w.memo.shapes.length + 1 = k) {i : Interruption σ χ}
    {u : Workspace σ χ} (hu : i.perform (w.withMemo w.memo.memo) = u) :
    interrupting k i shape w =
      .ok true (u.withMemo ⟨shape :: w.memo.shapes, some u.session.error, u.memo⟩) := by
  rw [← hu]
  exact if_pos h

omit [Source σ] in
theorem besideReading_of_ok {consumer : Consumer σ ψ} {w v : Workspace σ ψ} {more : Bool}
    (h : consumer shape w = .ok more v) (rd : Reading) :
    besideReading consumer shape (rd, w) = .ok more (rd, v) := by
  simp only [besideReading, h]

end

theorem advance_attached (handle : Handle) (session : Session) (iterators : List Session.Iterator)
    (memo : ψ) (s : Reading × Workspace σ χ) :
    Reading.advance (link handle) (s.1, s.2.attached session iterators memo) =
      mapState (fun t => (t.1, t.2.attached session iterators memo))
        (Reading.advance (link handle) s) := by
  have hadvance := Reading.advance_simulates (link_attached handle session iterators memo) (s := s)
    (t := (s.1, s.2.attached session iterators memo)) ⟨rfl, rfl⟩
  exact eq_mapState _ (hadvance.mono fun _ _ h => Prod.ext h.1.symm h.2)

theorem settle_log (handle : Handle) (s : Reading × Workspace σ χ) :
    ∃ log, (Reading.settle (link handle) s).2 = { s.2 with log } := by
  obtain ⟨rd, w⟩ := s
  simp only [Reading.settle]
  split
  · exact ⟨_, rfl⟩
  · exact ⟨w.log, rfl⟩

/-- Until its shape comes, a consumer that is to interrupt only takes note. -/
theorem interrupting_calm {before earlier later : List Shape} {shape : Shape}
    (hsplit : before = earlier ++ shape :: later) (i : Interruption σ χ) (session : Session)
    (iterators : List Session.Iterator) (memo : χ) (rd : Reading) (e : Workspace σ Unit) :
    besideReading (interrupting (before.length + 1) i) shape (rd, e.attached session iterators
        (mindAfter (fun shape notes => (true, Notes.add shape notes)) earlier (.start memo))) =
      .ok true (rd, e.attached session iterators
        (mindAfter (fun shape notes => (true, Notes.add shape notes)) (earlier ++ [shape])
          (.start memo))) := by
  rw [mindAfter_append, mindAfter_add, hsplit]
  refine besideReading_of_ok (interrupting_of_ne ?_ i) rd
  simp [attached, Notes.start]

section
variable {v : Workspace σ Unit} {rd : Reading} {place : Nat} {before : List Shape} {shape : Shape}
  {t : Reading × Workspace σ Unit} {u : Workspace σ χ}

/-- Past the interruption, what is left of the delivery is what the reading has in its hands. -/
theorem deliver_interrupted (hready : rd.phase = .ready)
    (H : Gives (Reading.advance (link (.file place))) (before ++ [shape])
      ({ rd with phase := .reading }, v) t)
    (iterators : List Session.Iterator) (memo : χ) (i : Interruption σ χ)
    (hu : i.perform (t.2.attached v.session iterators memo) = u) :
    ∃ fuel, Reading.deliver (link (.file place))
        (besideReading (interrupting (before.length + 1) i)) (rd.left.toNat + 1) .fresh
        (rd, v.refitted iterators (.start memo)) =
      Reading.deliver (link (.file place)) (besideReading (interrupting (before.length + 1) i))
        (fuel + 1) .suspended
        (t.1, u.withMemo ⟨shape :: before.reverse, some u.session.error, u.memo⟩) := by
  obtain ⟨s, hbefore, hlast⟩ := Gives.append_iff.mp H
  obtain ⟨fuel, hfuel, heq⟩ := Reading.deliver_along _
    (fun notes => link_attached (.file place) v.session iterators notes) hbefore
    (fun earlier shape' later hsplit =>
      interrupting_calm hsplit i v.session iterators memo)
    (Nat.lt_succ_self _)
  rw [mindAfter_add, Notes.start, List.append_nil] at heq
  cases hlast with
  | cons first rest =>
    cases rest
    have hadvance := advance_attached (.file place) v.session iterators
      (⟨before.reverse, none, memo⟩ : Notes χ) s
    rw [first] at hadvance
    have hconsumer : besideReading (interrupting (before.length + 1) i) shape
        (t.1, t.2.attached v.session iterators ⟨before.reverse, none, memo⟩) =
          .ok true (t.1, u.withMemo ⟨shape :: before.reverse, some u.session.error, u.memo⟩) :=
      besideReading_of_ok (interrupting_of_eq
        (w := t.2.attached v.session iterators ⟨before.reverse, none, memo⟩)
        (congrArg (· + 1) List.length_reverse) hu) t.1
    have hgave := Reading.gave_of_advance first
    obtain ⟨fuel, rfl⟩ : ∃ n, fuel = n + 2 := by
      have := hgave.left
      have := hgave.less
      exact ⟨fuel - 2, by omega⟩
    exact ⟨fuel, (Reading.deliver_fresh hready).trans
      (heq.trans (Reading.deliver_of_more hadvance hconsumer))⟩

/-- After the interruption the reading ends: quietly if its budget is used up, and if not because
its file is closed. -/
theorem run_interrupted (hready : rd.phase = .ready)
    (H : Gives (Reading.advance (link (.file place))) (before ++ [shape])
      ({ rd with phase := .reading }, v) t)
    (iterators : List Session.Iterator) (memo : χ) (i : Interruption σ χ)
    (hu : i.perform (t.2.attached v.session iterators memo) = u) (hclosed : ¬ u.IsOpen place) :
    let notes : Notes χ := ⟨shape :: before.reverse, some u.session.error, u.memo⟩
    ∃ rd' log, rd'.shapeCount = t.1.shapeCount ∧
      Reading.run (link (.file place)) (besideReading (interrupting (before.length + 1) i))
          (rd, v.refitted iterators (.start memo)) =
        if t.1.left ≤ 0 then .ok rd'.shapeCount (rd', { u.withMemo notes with log })
        else .error .closedFile (rd', { u.withMemo notes with log }) := by
  intro notes
  obtain ⟨fuel, hdeliver⟩ := deliver_interrupted hready H iterators memo i hu
  obtain ⟨log, hlog⟩ := settle_log (.file place) (t.1, u.withMemo notes)
  have hcount := Reading.shapeCount_settle (link (.file place)) (t.1, u.withMemo notes)
  by_cases hleft : t.1.left ≤ 0
  · refine ⟨_, log, hcount, ?_⟩
    rw [if_pos hleft, ← hlog]
    exact Reading.run_of_ok (hdeliver.trans
      (Reading.deliver_of_end (Reading.advance_of_left hleft)))
  · have hclosed : ¬ (u.withMemo notes).IsOpen place := hclosed
    refine ⟨{ (Reading.settle (link (.file place)) (t.1, u.withMemo notes)).1 with
      phase := .failed }, log, hcount, ?_⟩
    rw [if_neg hleft, ← hlog]
    exact Reading.run_of_error (hdeliver.trans
      (Reading.deliver_of_error (advance_of_closed hclosed hleft)))

end

/-- What is left of a parse that was interrupted: of its own it adds the number of its shapes. -/
structure LeftBy (u : Workspace σ χ) (notes : Notes χ) (n : Nat) (e : Workspace σ (Notes χ)) :
    Prop where
  memo : e.memo = notes
  shapeCount : e.session.shapeCount = n
  error : e.session.error = u.session.error
  opens : ∀ place, e.IsOpen place → u.IsOpen place
  released : e.IsReleased

omit [Source σ] in
theorem leftBy_concluded (u : Workspace σ χ) (notes : Notes χ) (log : List Entry) (n : Nat)
    {o : Except Fault Unit} (ho : o = .ok () ∨ o = .error .closedFile) :
    LeftBy u notes n ((({ u.withMemo notes with log } : Workspace σ (Notes χ)).updateSession
      ({ · with shapeCount := n })).concluded o) := by
  rw [concluded_eq]
  -- A closed file is no fault that a message is kept of.
  have herror : lastAfter o u.session.error = u.session.error := by
    rcases ho with rfl | rfl <;> rfl
  exact ⟨rfl, rfl, herror, fun _ h => (isOpen_release.mp h).1, release_released _⟩

/-- A parse whose run ends after an interruption, quietly or because its file is closed. -/
theorem parse_leftBy {path : String} {w : Workspace σ χ} {v : Workspace σ Unit} {handle : Handle}
    {rd rd' : Reading} (h : opening path (w.updateSession .forget).bare = .ok (handle, rd) v)
    {consumer : Consumer σ (Notes χ)} {u : Workspace σ χ} {notes : Notes χ} {log : List Entry}
    {spent : Prop} [Decidable spent]
    (hrun : Reading.run (link handle) (besideReading consumer)
        (rd, v.refitted w.iterators (.start w.memo)) =
      if spent then .ok rd'.shapeCount (rd', { u.withMemo notes with log })
      else .error .closedFile (rd', { u.withMemo notes with log })) :
    outcome (parse path consumer (w.withMemo (.start w.memo))) =
        (if spent then .ok () else .error .closedFile) ∧
      LeftBy u notes rd'.shapeCount
        (endState (parse path consumer (w.withMemo (.start w.memo)))) := by
  by_cases hspent : spent
  · rw [if_pos hspent] at hrun
    rw [parse_of_ok h hrun, if_pos hspent]
    exact ⟨rfl, leftBy_concluded u notes log _ (.inl rfl)⟩
  · rw [if_neg hspent] at hrun
    rw [parse_of_ok h hrun, if_neg hspent]
    exact ⟨rfl, leftBy_concluded u notes log _ (.inr rfl)⟩

theorem exists_middle {shapes : List Shape} {k : Nat} (hk : 0 < k) (h : k ≤ shapes.length) :
    ∃ before shape after, shapes = before ++ shape :: after ∧ before.length + 1 = k := by
  have hlt : k - 1 < shapes.length := by omega
  refine ⟨shapes.take (k - 1), shapes[k - 1], shapes.drop (k - 1 + 1), ?_, ?_⟩
  · rw [← List.drop_eq_getElem_cons hlt, List.take_append_drop]
  · rw [List.length_take]
    omega

/-- Files that are opened before the records are read are the session's. -/
theorem ownsOpen_of_gives {path : String} {w v : Workspace σ χ} {handle : Handle} {rd : Reading}
    (h : opening path w = .ok (handle, rd) v) (howns : OwnsOpen w) {shapes : List Shape}
    {rd' : Reading} {t : Reading × Workspace σ χ}
    (H : Gives (Reading.advance (link handle)) shapes (rd', v) t)
    (iterators : List Session.Iterator) (memo : ψ) :
    OwnsOpen (t.2.attached v.session iterators memo) := by
  have hopening := Preserves.of_simulates (P := OwnsOpen)
    (opening_simulates ownsOpen_enduring.lasting.lockstep path) howns
  rw [h] at hopening
  exact fun place => (hopening place).trans ((untouched_of_gives H).opens place).symm

theorem listing_of_drains {path : String} {w : Workspace σ χ} {v : Workspace σ Unit}
    {handle : Handle} {rd : Reading}
    (h : opening path (w.updateSession .forget).bare = .ok (handle, rd) v)
    {shapes : List Shape} {r : EStateM.Result Fault (Reading × Workspace σ Unit) (Option Shape)}
    (H : Drains (Reading.advance (link handle)) shapes ({ rd with phase := .reading }, v) r)
    {header : Header} (hheader : v.session.header = some header) :
    (endState (parse path listing (w.withMemo (.start w.memo)))).memo.shapes.reverse = shapes ∧
      (endState (parse path listing (w.withMemo (.start w.memo)))).session.header =
        some header := by
  obtain ⟨-, hend⟩ := parse_of_drains (w := w) h H
    (wantsMore_of_true (fun _ _ => rfl) shapes _ :
      wantsMore (fun shape notes => (true, Notes.add shape notes)) shapes (.start w.memo) = true)
  rw [mindAfter_add, concluded_eq] at hend
  rw [listing, hend]
  exact ⟨(congrArg _ (List.append_nil _)).trans (List.reverse_reverse shapes), hheader⟩

/-- A parse is cut off where it is interrupted. -/
theorem parse_interrupted {w : Workspace σ χ} (howns : OwnsOpen w) (path : String) {k : Nat}
    (hk : 0 < k) (i : Interruption σ χ)
    (hdelivered : k ≤ (endState (parse path listing
      (w.withMemo (.start w.memo)))).memo.shapes.length) :
    CutOff k (parse path listing (w.withMemo (.start w.memo)))
      (parse path (interrupting k i) (w.withMemo (.start w.memo))) := by
  cases h : opening path (w.updateSession .forget).bare with
  | error f v =>
    rw [parse_of_error h] at hdelivered
    exact absurd hk (Nat.not_lt_of_le hdelivered)
  | ok opened v =>
    obtain ⟨handle, rd⟩ := opened
    obtain ⟨⟨place, rfl⟩, header, hheader, rfl⟩ := opening_file h
    obtain ⟨shapes, r, H⟩ := Reading.exists_drains (link (.file place))
      (({ Reading.start header.contentLength Reading.warnsByDefault with phase := .reading }, v) :
        Reading × Workspace σ Unit)
    obtain ⟨hshapes, hheader⟩ := listing_of_drains h H hheader
    rw [← List.length_reverse, hshapes] at hdelivered
    obtain ⟨before, shape, after, rfl, rfl⟩ := exists_middle hk hdelivered
    have htake : (before ++ shape :: after).take (before.length + 1) = before ++ [shape] := by
      rw [List.take_append, List.take_of_length_le (Nat.le_succ _), Nat.add_sub_cancel_left]
      rfl
    rw [List.append_cons] at H
    obtain ⟨t, Ht⟩ := H.gives
    have hown := ownsOpen_of_gives h (fun place => howns place) Ht w.iterators w.memo
    have hclosed := i.perform_closed hown
    generalize hu : i.perform (t.2.attached v.session w.iterators w.memo) = u at hclosed
    obtain ⟨rd, log, hcount, hrun⟩ :=
      run_interrupted rfl Ht w.iterators w.memo i hu (hclosed place)
    have hleft : t.1.left = header.contentLength - sizeTaken (before ++ [shape]) :=
      Reading.left_of_gives Ht
    rw [Reading.shapeCount_of_gives Ht, List.length_append, List.length_singleton,
      show Reading.shapeCount _ + _ = before.length + 1 from Nat.zero_add _] at hcount
    obtain ⟨houtcome, hend⟩ := parse_leftBy h hrun
    have hspent : t.1.left ≤ 0 ↔ header.contentLength ≤ sizeTaken (before ++ [shape]) := by omega
    refine ⟨?_, ⟨header, hheader, ?_⟩, ?_, ?_, ?_, hend.released⟩
    · rw [hend.memo, hshapes, htake]
      exact List.reverse_cons.trans (congrArg (· ++ [shape]) (List.reverse_reverse before))
    · rw [houtcome, hshapes, htake, if_congr hspent rfl rfl]
    · rw [hend.shapeCount, hcount]
    · rw [hend.memo, hend.error]
    · exact fun place hopen => hclosed place (hend.opens place hopen)

/-! ## A parse of streams -/

/-- Two workspaces with the same streams, in which the same shapes were handed over. -/
structure Abreast (w v : Workspace σ (Notes χ)) : Prop where
  streams : v.streams = w.streams
  shapes : v.memo.shapes = w.memo.shapes

/-- The same number of shapes is known too. -/
structure Even (w v : Workspace σ (Notes χ)) : Prop extends Abreast w v where
  shapeCount : v.session.shapeCount = w.session.shapeCount

omit [Source σ] in
theorem Even.refl (w : Workspace σ (Notes χ)) : Even w w := ⟨⟨rfl, rfl⟩, rfl⟩

omit [Source σ] in
theorem Even.concluded {w v : Workspace σ (Notes χ)} {α : Type} (H : Even w v)
    (o : Except Fault α) : Even (w.concluded o) (v.concluded o) := by
  rw [concluded_eq, concluded_eq]
  exact { H with }

theorem link_abreast (place : Nat) :
    Link.Simulates (Abreast (σ := σ) (χ := χ)) (link (.stream place)) (link (.stream place)) where
  feed n := by
    intro w v H
    simp only [link, feed, H.streams]
    cases w.streams[place]? with
    | none => exact .error H
    | some stream =>
      simp only
      cases Source.read n stream with
      | ok data stream => exact .ok ⟨rfl, H.shapes⟩
      | error f stream => exact .error ⟨rfl, H.shapes⟩
  log entry _ {_ _} H := { H with }

theorem interrupting_abreast {i : Interruption σ χ} (hi : i.SparesStreams) (k : Nat)
    (shape : Shape) : Simulates Abreast (listing shape) (interrupting k i shape) := by
  intro w v H
  have hshapes := congrArg (shape :: ·) H.shapes
  by_cases h : v.memo.shapes.length + 1 = k
  · rw [interrupting_of_eq h rfl]
    exact .ok ⟨(i.perform_streams hi _).trans H.streams, hshapes⟩
  · rw [interrupting_of_ne h]
    exact .ok ⟨H.streams, hshapes⟩

theorem readRecords_abreast {i : Interruption σ χ} (hi : i.SparesStreams) (k : Nat)
    {w : Workspace σ (Notes χ)} {shp : Option Nat} (hshp : w.session.shp = shp.map .stream) :
    Alike Even (readRecords listing w) (readRecords (interrupting k i) w) := by
  cases hbegin : beginReading w with
  | error f v =>
    have herror (consumer : Consumer σ (Notes χ)) : readRecords consumer w = .error f v :=
      bind_of_error hbegin
    rw [herror, herror]
    exact .error (.refl v)
  | ok begun v =>
    obtain ⟨handle, rd⟩ := begun
    obtain ⟨place, -, rfl⟩ := Option.map_eq_some_iff.mp
      (hshp.symm.trans (beginReading_handle hbegin).1)
    rw [readRecords_of_ok hbegin, readRecords_of_ok hbegin]
    exact learned_alike (link_abreast place) (interrupting_abreast hi k)
      (fun _ H => { H with shapeCount := rfl }) rd ⟨rfl, rfl⟩

/-- A parse of streams does not feel that it is interrupted. -/
theorem parseStreams_interrupted {i : Interruption σ χ} (hi : i.SparesStreams) (k : Nat)
    (shp shx : Option Nat) (w : Workspace σ (Notes χ)) :
    Undisturbed (parseStreams (shp.map .stream) (shx.map .stream) listing w)
      (parseStreams (shp.map .stream) (shx.map .stream) (interrupting k i) w) := by
  have halike : Alike Even (parseStreams (shp.map .stream) (shx.map .stream) listing w)
      (parseStreams (shp.map .stream) (shx.map .stream) (interrupting k i) w) := by
    refine parsing_alike (fun o H => H.concluded o) ?_
    generalize hposed : (w.updateSession .forget).updateSession
      ({ · with shp := shp.map .stream, shx := shx.map .stream }) = posed
    have hshp := checkIndex_shp posed
    have hbody (consumer : Consumer σ (Notes χ)) : (do
        modify (·.updateSession ({ · with shp := shp.map .stream, shx := shx.map .stream }))
        checkIndex
        readRecords consumer : Action σ (Notes χ) Unit) (w.updateSession .forget) =
          (checkIndex >>= fun _ => readRecords consumer) posed := by
      rw [← hposed]
      rfl
    rw [hbody, hbody]
    cases hcheck : checkIndex posed with
    | error f v =>
      rw [bind_of_error hcheck, bind_of_error hcheck]
      exact .error (.refl v)
    | ok _ v =>
      rw [hcheck, ← hposed] at hshp
      rw [bind_of_ok hcheck, bind_of_ok hcheck]
      exact readRecords_abreast hi k hshp
  obtain ⟨⟨hstreams, hshapes⟩, hcount⟩ := Desk.endState_alike halike
  exact ⟨Desk.outcome_alike halike, hshapes, hcount, hstreams⟩

/-! ## Parses of either kind -/

/-- Two files and two streams that hold three records. -/
def threeRecords : Workspace Plain Nat :=
  copies (sampleHeader.encode (List.replicate 20 7) ++ (StoredRecord.encodeAll sampleRecords ++ []))
    (sampleHeader.encode (List.replicate 20 0) ++ [])

/-- The three records are read from the files as from the streams, and those as at a desk. -/
theorem threeRecords_parsed {ψ : Type} (note : Shape → ψ → ψ) (memo : ψ) :
    ∃ u, parse "a.shp" (watcher fun shape memo => (true, note shape memo))
        (threeRecords.withMemo memo) = .ok () u ∧
      u.memo = mindAfter (fun shape memo => (true, note shape memo))
        (StoredRecord.shapes 0 sampleRecords) memo := by
  have hzeros : (List.replicate 20 0 : Bytes).length = 20 := List.length_replicate
  have hsevens : (List.replicate 20 7 : Bytes).length = 20 := List.length_replicate
  have hindex := Header.read_append [] sampleHeader_storable (by decide) hzeros
  have hheader := Header.read_append (StoredRecord.encodeAll sampleRecords ++ [])
    sampleHeader_storable (by decide) hsevens
  have hframed : StoredRecord.Framed sampleHeader.contentLength sampleRecords :=
    StoredRecord.framed_of_exact sampleRecords_exact (by decide)
  have hrun : Desk.run _ (.start _ Reading.warnsByDefault, _) = _ := Desk.run_used_up
    (d := ⟨⟨StoredRecord.encodeAll sampleRecords ++ []⟩, [],
      [.mainHeader sampleHeader, .indexHeader sampleHeader], memo⟩) hframed rfl
    (wantsMore_of_true (fun _ _ => rfl) _ _ :
      wantsMore (fun shape memo => (true, note shape memo)) _ _ = true) (by decide)
  have hparsed := parseStreams_of_run (w := threeRecords.withMemo memo) (i := 0) (j := 1)
    rfl rfl (by decide) hindex hheader hrun
  have hstreamed : Alike Facing
      (parse "a.shp" (watcher fun shape memo => (true, note shape memo))
        (threeRecords.withMemo memo))
      (parseStreams (some (.stream 0)) (some (.stream 1))
        (watcher fun shape memo => (true, note shape memo)) (threeRecords.withMemo memo)) :=
    parse_streamed (w := threeRecords.withMemo memo) (by decide) (by decide) (copied_shp _ _)
      (copied_shx _ _) fun shape memo => (.ok true, note shape memo)
  rw [hparsed] at hstreamed
  generalize parse "a.shp" _ (threeRecords.withMemo memo) = r at hstreamed ⊢
  cases hstreamed with
  | ok H => exact ⟨_, rfl, H.memo.symm⟩

theorem threeRecords_delivered :
    (endState (parse "a.shp" listing
      (threeRecords.withMemo (.start 0)))).memo.shapes.length = 3 := by
  obtain ⟨u, hparsed, hmemo⟩ := threeRecords_parsed Notes.add (Notes.start 0)
  rw [show parse "a.shp" listing (threeRecords.withMemo (.start 0)) = .ok () u from hparsed]
  exact congrArg (fun notes => notes.shapes.length) hmemo

/-- A session may be closed, or be used for another parse, from inside a parse. In whatever state a
session is, a parse of a path that is interrupted so is cut off after the shape at hand, and a parse
of streams does not feel it. -/
theorem interruption_contained {w : Workspace σ χ} (hw : Reachable w.view) {k : Nat} (hk : 0 < k)
    (i : Interruption σ χ) :
    (∀ path,
      k ≤ (endState (parse path listing (w.withMemo (.start w.memo)))).memo.shapes.length →
        CutOff k (parse path listing (w.withMemo (.start w.memo)))
          (parse path (interrupting k i) (w.withMemo (.start w.memo)))) ∧
      (i.SparesStreams → ∀ shp shx : Option Nat,
        Undisturbed
          (parseStreams (shp.map .stream) (shx.map .stream) listing (w.withMemo (.start w.memo)))
          (parseStreams (shp.map .stream) (shx.map .stream) (interrupting k i)
            (w.withMemo (.start w.memo)))) := by
  have howns : OwnsOpen w := hw.ownsOpen
  exact ⟨fun path => parse_interrupted howns path hk i,
    fun hi shp shx => parseStreams_interrupted hi k shp shx _⟩

/-- When the second of three shapes is handed over, a path is parsed that leads nowhere. -/
theorem interruption_contained_second :
    let i : Interruption Plain Nat := .parse "b" ⟨fun _ w => .ok true w, fun _ w => .refl w⟩
    CutOff 2 (parse "a.shp" listing (threeRecords.withMemo (.start 0)))
        (parse "a.shp" (interrupting 2 i) (threeRecords.withMemo (.start 0))) ∧
      Undisturbed
        (parseStreams (some (.stream 0)) (some (.stream 1)) listing
          (threeRecords.withMemo (.start 0)))
        (parseStreams (some (.stream 0)) (some (.stream 1)) (interrupting 2 i)
          (threeRecords.withMemo (.start 0))) := by
  intro i
  have hreachable : Reachable threeRecords.view :=
    ⟨threeRecords.tree, threeRecords.streams, .answer true, .inl rfl⟩
  obtain ⟨hpath, hstreams⟩ := interruption_contained hreachable (k := 2) (by decide) i
  refine ⟨hpath "a.shp" ?_, hstreams (fun _ _ => rfl) (some 0) (some 1)⟩
  rw [show threeRecords.memo = 0 from rfl, threeRecords_delivered]
  decide

end Shapefile.Workspace
