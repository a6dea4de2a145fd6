import Mathlib.Data.List.Basic
import Shapefile.Proofs.Client
import Shapefile.Proofs.Files
import Shapefile.Proofs.RoundTrip

/-! # The stages of a parse

A parse opens the index and reads its header, opens the file with the records and reads its header,
and then reads the records. What comes of it is decided by the first stage that fails
(`Workspace.parse_staged`): later stages leave no trace. -/

namespace Shapefile

open Desk (outcome endState)

variable {σ χ : Type}

/-! ## Paths -/

namespace Path

theorem mem_of_mem_stem {c : Char} {path : List Char} (h : c ∈ stem path) : c ∈ path := by
  simp only [stem] at h
  split at h
  · rename_i before hback
    split at h
    · exact h
    · have hsuffix : '.' :: before <:+ path.reverse := hback ▸ List.dropWhile_suffix _
      have hmem := hsuffix.subset (List.mem_cons_of_mem '.' (List.mem_reverse.mp h))
      exact List.mem_reverse.mp hmem
  · exact h

theorem contains_extended {path : String} (h : '\x00' ∉ path.toList) (file : Constituent) :
    (basePath path ++ "." ++ file.extension).contains '\x00' = false := by
  rw [String.contains_char_eq, decide_eq_false_iff_not]
  have hstem : '\x00' ∉ stem path.toList := fun hmem => h (mem_of_mem_stem hmem)
  cases file <;> simp [basePath, hstem, Constituent.extension]

end Path

/-! ## Opening -/

/-- The file that is opened is the one with the extension in lower case, or else the one with the
extension in upper case. -/
inductive FileTree.Opens (t : FileTree) (base : String) (c : Constituent) :
    String → OpenFile → Prop where
  | lower {file : OpenFile} (lower : t.open? (base ++ "." ++ c.extension) = .ok file) :
    Opens t base c (base ++ "." ++ c.extension) file
  | upper {cause : PathFault} {file : OpenFile}
      (lower : t.open? (base ++ "." ++ c.extension) = .error cause)
      (upper : t.open? (base ++ "." ++ c.upperExtension) = .ok file) :
    Opens t base c (base ++ "." ++ c.upperExtension) file

/-- Neither can be opened. The fault tells about the one with the extension in lower case. -/
inductive FileTree.Refuses (t : FileTree) (base : String) (c : Constituent) : Fault → Prop where
  | intro {cause cause' : PathFault}
      (lower : t.open? (base ++ "." ++ c.extension) = .error cause)
      (upper : t.open? (base ++ "." ++ c.upperExtension) = .error cause') :
    Refuses t base c (.openFailed (base ++ "." ++ c.extension) cause)

section
variable {t : FileTree} {base path path' : String} {c : Constituent} {file file' : OpenFile}
  {f f' : Fault}

theorem FileTree.Opens.unique (H : t.Opens base c path file) (H' : t.Opens base c path' file') :
    path = path' ∧ file = file' := by
  cases H with
  | lower lower =>
    cases H' with
    | lower lower' | upper lower' =>
      cases lower.symm.trans lower'
      try exact ⟨rfl, rfl⟩
  | upper lower upper =>
    cases H' with
    | lower lower' => cases lower.symm.trans lower'
    | upper _ upper' =>
      cases upper.symm.trans upper'
      exact ⟨rfl, rfl⟩

theorem FileTree.Refuses.unique (H : t.Refuses base c f) (H' : t.Refuses base c f') : f = f' := by
  obtain ⟨lower, -⟩ := H
  obtain ⟨lower', -⟩ := H'
  cases lower.symm.trans lower'
  rfl

theorem FileTree.Opens.not_refuses (H : t.Opens base c path file) : ¬ t.Refuses base c f := by
  rintro ⟨lower, upper⟩
  cases H with
  | lower lower' => cases lower.symm.trans lower'
  | upper _ upper' => cases upper.symm.trans upper'

end

namespace Workspace

theorem openConstituent_cases (c : Constituent) (w : Workspace σ χ)
    (h : (w.session.basePath ++ "." ++ c.extension).contains '\x00' = false) :
    (∃ path file, w.tree.Opens w.session.basePath c path file ∧
        openConstituent c w = .ok (.file w.files.length) (w.addFile path file).2) ∨
      ∃ f, w.tree.Refuses w.session.basePath c f ∧ openConstituent c w = .error f w := by
  simp only [openConstituent, h, Bool.false_eq_true, if_false]
  cases hlower : w.tree.open? (w.session.basePath ++ "." ++ c.extension) with
  | ok file => exact .inl ⟨_, file, .lower hlower, rfl⟩
  | error cause =>
    cases hupper : w.tree.open? (w.session.basePath ++ "." ++ c.upperExtension) with
    | ok file => exact .inl ⟨_, file, .upper hlower hupper, rfl⟩
    | error cause' => exact .inr ⟨_, .intro hlower hupper, rfl⟩

end Workspace

/-! ## Consumers that note what they are handed -/

/-- Notes each shape, the latest first, and answers as told. -/
def noting (answer : Shape → χ → Bool × χ) (shape : Shape) (memo : List Shape × χ) :
    Bool × (List Shape × χ) :=
  ((answer shape memo.2).1, (shape :: memo.1, (answer shape memo.2).2))

namespace Desk

/-- The reading has counted what was handed over. -/
def Counted (s : Reading × Desk σ (List Shape × χ)) : Prop :=
  s.1.shapeCount = s.2.memo.1.length

variable [Source σ]

theorem settle_counted {s : Reading × Desk σ (List Shape × χ)} (h : Counted s) :
    Counted (Reading.settle link s) := by
  obtain ⟨rd, d⟩ := s
  obtain ⟨rd', d', heq, hcount, -, hkept⟩ := settle_kept rd d
  rw [heq, Counted, hkept.memo]
  exact hcount.trans h

theorem deliver_counted (answer : Shape → χ → Bool × χ) (fuel : Nat)
    {s : Reading × Desk σ (List Shape × χ)} (h : Counted s) :
    Counted (endState (Reading.deliver link (watcher (noting answer)) fuel .suspended s)) := by
  induction fuel generalizing s with
  | zero => exact h
  | succ fuel ih =>
    obtain ⟨rd, d⟩ := s
    have hs := advance_advanced rd d
    cases hadvance : Reading.advance link (rd, d) with
    | error f t =>
      rw [hadvance] at hs
      cases hs with
      | failed hcount _ hkept =>
        rw [Reading.deliver_of_error hadvance]
        simp only [endState, Counted, hkept.memo]
        exact hcount.trans h
    | ok shape? t =>
      rw [hadvance] at hs
      cases hs with
      | ended hcount _ hkept =>
        rw [Reading.deliver_of_end hadvance]
        simp only [endState, Counted, hkept.memo]
        exact hcount.trans h
      | @gave shape rd' d' _ hcount _ hkept =>
        have hnoted : Counted
            (rd', { d' with memo := (noting answer shape d'.memo).2 }) := by
          simp only [Counted, noting, List.length_cons, hkept.memo, hcount]
          exact congrArg (· + 1) h
        cases hanswer : (answer shape d'.memo.2).1 with
        | true =>
          have hmore : watcher (noting answer) shape (rd', d') = .ok true _ :=
            congrArg (EStateM.Result.ok · _) hanswer
          rw [Reading.deliver_of_more hadvance hmore]
          exact ih hnoted
        | false =>
          have henough : watcher (noting answer) shape (rd', d') = .ok false _ :=
            congrArg (EStateM.Result.ok · _) hanswer
          rw [Reading.deliver_of_enough hadvance henough]
          exact settle_counted hnoted

theorem run_counted (answer : Shape → χ → Bool × χ) (budget : Int) (warns : Bool)
    {d : Desk σ (List Shape × χ)} (h : d.memo.1 = []) :
    Counted (endState (Desk.run (watcher (noting answer)) (.start budget warns, d))) := by
  have hstart : Counted (({ Reading.start budget warns with phase := .reading } : Reading), d) := by
    rw [Counted, h]
    rfl
  have hend := deliver_counted answer
    ((Reading.start budget warns).left.toNat + 1) hstart
  rw [← Reading.deliver_fresh rfl] at hend
  simp only [Desk.run, Reading.run]
  cases hr : Reading.deliver link (watcher (noting answer))
      ((Reading.start budget warns).left.toNat + 1) .fresh (.start budget warns, d) with
  | ok _ t | error f t =>
    rw [hr] at hend
    exact hend

end Desk

/-! ## Stages -/

/-- The header that a file begins with, if it has one, and what follows it. -/
def headerOf (file : OpenFile) : EStateM.Result Fault Plain Header :=
  Header.read Plain.read ⟨file.rest⟩

/-- What comes of a parse whose consumer notes what it is handed. -/
structure Report (χ : Type) where
  outcome : Except Fault Unit
  indexHeader : Option Header
  header : Option Header
  shapeCount : Nat
  /-- What the consumer was handed, the latest first. -/
  handed : List Shape
  memo : χ
  log : List Entry
deriving DecidableEq

/-- Reads the records that a header announces, as at a desk that has what follows the header. -/
def runAtDesk (answer : Shape → χ → Bool × χ) (header : Header) (rest : Plain) (log : List Entry)
    (memo : List Shape × χ) : EStateM.Result Fault (Reading × Desk Plain (List Shape × χ)) Nat :=
  Desk.run (Desk.watcher (noting answer))
    (.start header.contentLength Reading.warnsByDefault, ⟨rest, [], log, memo⟩)

/-- What comes of a parse that gets to the records. -/
def recordsReport (index header : Header)
    (r : EStateM.Result Fault (Reading × Desk Plain (List Shape × χ)) Nat) : Report χ :=
  let d := (endState r).2
  ⟨(outcome r).map fun _ => (), some index, some header, d.memo.1.length, d.memo.1, d.memo.2, d.log⟩

/-- What is due to come of a parse, stage by stage. -/
inductive Staged (tree : FileTree) (base : String) (answer : Shape → χ → Bool × χ) (memo : χ)
    (log : List Entry) : Report χ → Prop where
  | noIndexFile {f : Fault} (shx : tree.Refuses base .shx f) :
    Staged tree base answer memo log ⟨.error f, none, none, 0, [], memo, log⟩
  | badIndex {path : String} {file : OpenFile} {f : Fault} {rest : Plain}
      (shx : tree.Opens base .shx path file)
      (shxHeader : headerOf file = .error f rest) :
    Staged tree base answer memo log ⟨.error f, none, none, 0, [], memo, .opened path :: log⟩
  | noMainFile {path : String} {file : OpenFile} {index : Header} {rest : Plain} {f : Fault}
      (shx : tree.Opens base .shx path file)
      (shxHeader : headerOf file = .ok index rest)
      (shp : tree.Refuses base .shp f) :
    Staged tree base answer memo log
      ⟨.error f, some index, none, 0, [], memo, .indexHeader index :: .opened path :: log⟩
  | badHeader {path path' : String} {file file' : OpenFile} {index : Header} {rest rest' : Plain}
      {f : Fault} (shx : tree.Opens base .shx path file)
      (shxHeader : headerOf file = .ok index rest)
      (shp : tree.Opens base .shp path' file')
      (shpHeader : headerOf file' = .error f rest') :
    Staged tree base answer memo log
      ⟨.error f, some index, none, 0, [], memo,
        .opened path' :: .indexHeader index :: .opened path :: log⟩
  | records {path path' : String} {file file' : OpenFile} {index header : Header}
      {rest rest' : Plain} (shx : tree.Opens base .shx path file)
      (shxHeader : headerOf file = .ok index rest) (shp : tree.Opens base .shp path' file')
      (shpHeader : headerOf file' = .ok header rest') :
    Staged tree base answer memo log
      (recordsReport index header (runAtDesk answer header rest'
        (.mainHeader header :: .opened path' :: .indexHeader index :: .opened path :: log)
        ([], memo)))

theorem Staged.counted {tree : FileTree} {base : String} {answer : Shape → χ → Bool × χ} {memo : χ}
    {log : List Entry} {report : Report χ} (H : Staged tree base answer memo log report) :
    report.shapeCount = report.handed.length := by
  cases H <;> rfl

/-- The stages decide what comes of a parse. -/
theorem Staged.unique {tree : FileTree} {base : String} {answer : Shape → χ → Bool × χ} {memo : χ}
    {log : List Entry} {report report' : Report χ} (H : Staged tree base answer memo log report)
    (H' : Staged tree base answer memo log report') : report = report' := by
  cases H with
  | noIndexFile shx =>
    cases H' with
    | noIndexFile shx' => rw [shx.unique shx']
    | badIndex shx' | noMainFile shx' | badHeader shx' | records shx' =>
      exact absurd shx shx'.not_refuses
  | badIndex shx shxHeader =>
    cases H' with
    | noIndexFile shx' => exact absurd shx' shx.not_refuses
    | badIndex shx' shxHeader' | noMainFile shx' shxHeader' | badHeader shx' shxHeader'
    | records shx' shxHeader' =>
      obtain ⟨rfl, rfl⟩ := shx.unique shx'
      cases shxHeader.symm.trans shxHeader'
      try rfl
  | noMainFile shx shxHeader shp =>
    cases H' with
    | noIndexFile shx' => exact absurd shx' shx.not_refuses
    | badIndex shx' shxHeader' =>
      obtain ⟨rfl, rfl⟩ := shx.unique shx'
      cases shxHeader.symm.trans shxHeader'
    | noMainFile shx' shxHeader' shp' =>
      obtain ⟨rfl, rfl⟩ := shx.unique shx'
      cases shxHeader.symm.trans shxHeader'
      rw [shp.unique shp']
    | badHeader _ _ shp' | records _ _ shp' => exact absurd shp shp'.not_refuses
  | badHeader shx shxHeader shp shpHeader | records shx shxHeader shp shpHeader =>
    cases H' with
    | noIndexFile shx' => exact absurd shx' shx.not_refuses
    | badIndex shx' shxHeader' =>
      obtain ⟨rfl, rfl⟩ := shx.unique shx'
      cases shxHeader.symm.trans shxHeader'
    | noMainFile _ _ shp' => exact absurd shp' shp.not_refuses
    | badHeader shx' shxHeader' shp' shpHeader' | records shx' shxHeader' shp' shpHeader' =>
      obtain ⟨rfl, rfl⟩ := shx.unique shx'
      obtain ⟨rfl, rfl⟩ := shp.unique shp'
      cases shxHeader.symm.trans shxHeader'
      cases shpHeader.symm.trans shpHeader'
      try rfl

namespace Workspace

def report (r : EStateM.Result Fault (Workspace σ (List Shape × χ)) Unit) : Report χ :=
  let w := endState r
  ⟨outcome r, w.session.indexHeader, w.session.header, w.session.shapeCount, w.memo.1, w.memo.2,
    w.log⟩

/-- The parts of a workspace that no parse touches are as they were. -/
structure Aside (w v : Workspace σ χ) : Prop where
  tree : v.tree = w.tree
  streams : v.streams = w.streams
  iterators : v.iterators = w.iterators

theorem Aside.trans {u v w : Workspace σ χ} (h : Aside u v) (h' : Aside v w) : Aside u w :=
  ⟨h'.tree.trans h.tree, h'.streams.trans h.streams, h'.iterators.trans h.iterators⟩

/-- The parse that began in the workspace `w` has not come to the header of the records. -/
structure Underway (w : Workspace σ χ) (base : String) (index : Option Header) (log : List Entry)
    (v : Workspace σ χ) : Prop where
  tree : v.tree = w.tree
  streams : v.streams = w.streams
  iterators : v.iterators = w.iterators
  memo : v.memo = w.memo
  log : v.log = log
  basePath : v.session.basePath = base
  indexHeader : v.session.indexHeader = index
  header : v.session.header = none
  shapeCount : v.session.shapeCount = 0

/-- What comes of the stages before the header of the records. -/
inductive Loaded (w : Workspace σ χ) (base : String) :
    EStateM.Result Fault (Workspace σ χ) Unit → Prop where
  | noIndexFile {f : Fault} {v : Workspace σ χ} (shx : w.tree.Refuses base .shx f)
      (state : Underway w base none w.log v) : Loaded w base (.error f v)
  | badIndex {path : String} {file : OpenFile} {f : Fault} {rest : Plain} {v : Workspace σ χ}
      (shx : w.tree.Opens base .shx path file)
      (shxHeader : headerOf file = .error f rest)
      (state : Underway w base none (.opened path :: w.log) v) : Loaded w base (.error f v)
  | noMainFile {path : String} {file : OpenFile} {index : Header} {rest : Plain} {f : Fault}
      {v : Workspace σ χ} (shx : w.tree.Opens base .shx path file)
      (shxHeader : headerOf file = .ok index rest)
      (shp : w.tree.Refuses base .shp f)
      (state : Underway w base (some index) (.indexHeader index :: .opened path :: w.log) v) :
    Loaded w base (.error f v)
  | opened {path path' : String} {file file' : OpenFile} {index : Header} {rest : Plain}
      {v : Workspace σ χ} {place : Nat} (shx : w.tree.Opens base .shx path file)
      (shxHeader : headerOf file = .ok index rest)
      (shp : w.tree.Opens base .shp path' file')
      (state : Underway w base (some index)
        (.opened path' :: .indexHeader index :: .opened path :: w.log) v)
      (handle : v.session.shp = some (.file place))
      (content : v.files[place]? = some (some file')) : Loaded w base (.ok () v)

theorem headerOf_cases [Source σ] {v : Workspace σ χ} {place : Nat} {file : OpenFile}
    (hfile : v.files[place]? = some (some file)) :
    (∃ h rest file', headerOf file = .ok h rest ∧ file'.rest = rest.rest ∧
        Header.read (feed (.file place)) v = .ok h (v.withFile place file')) ∨
      ∃ f rest file', headerOf file = .error f rest ∧
        Header.read (feed (.file place)) v = .error f (v.withFile place file') := by
  have hread := header_read_file hfile
  rw [show Header.read Plain.read ⟨file.rest⟩ = headerOf file from rfl] at hread
  generalize headerOf file = r at hread ⊢
  generalize Header.read (feed (.file place)) v = r' at hread ⊢
  cases hread with
  | @ok h rest _ hupto =>
    obtain ⟨file', hrest, rfl⟩ := hupto
    exact .inl ⟨h, rest, file', rfl, hrest, rfl⟩
  | @error f rest _ hupto =>
    obtain ⟨file', -, rfl⟩ := hupto
    exact .inr ⟨f, rest, file', rfl, rfl⟩

namespace Underway

variable {w v : Workspace σ χ} {base : String} {index : Option Header} {log : List Entry}

theorem aside (H : Underway w base index log v) : Aside w v := ⟨H.tree, H.streams, H.iterators⟩

theorem open_cases (H : Underway w base index log v) {c : Constituent}
    (hbase : (base ++ "." ++ c.extension).contains '\x00' = false) :
    (∃ path file place v', w.tree.Opens base c path file ∧
        openConstituent c v = .ok (.file place) v' ∧
        v'.files[place]? = some (some file) ∧ Underway w base index (.opened path :: log) v') ∨
      ∃ f, w.tree.Refuses base c f ∧ openConstituent c v = .error f v := by
  have hcases := openConstituent_cases c v (by rw [H.basePath]; exact hbase)
  rw [H.basePath, H.tree] at hcases
  rcases hcases with ⟨path, file, hopens, heq⟩ | hrefuses
  · exact .inl ⟨path, file, _, _, hopens, heq, List.getElem?_concat_length,
      { H with log := congrArg _ H.log }⟩
  · exact .inr hrefuses

variable [Source σ] {place : Nat} {file : OpenFile}

theorem checkIndex_file (H : Underway w base none log v) (hshx : v.session.shx = some (.file place))
    (hfile : v.files[place]? = some (some file)) :
    (∃ h rest v', headerOf file = .ok h rest ∧ checkIndex v = .ok () v' ∧
        Underway w base (some h) (.indexHeader h :: log) v') ∨
      ∃ f rest v', headerOf file = .error f rest ∧ checkIndex v = .error f v' ∧
        Underway w base none log v' := by
  simp only [checkIndex, hshx]
  rcases headerOf_cases hfile with ⟨h, rest, file', heq, -, hread⟩ | ⟨f, rest, file', heq, hread⟩
  · rw [hread]
    exact .inl ⟨h, rest, _, heq, rfl, { H with log := congrArg _ H.log, indexHeader := rfl }⟩
  · rw [hread]
    exact .inr ⟨f, rest, _, heq, rfl, { H with }⟩

theorem beginReading_file (H : Underway w base index log v)
    (hshp : v.session.shp = some (.file place)) (hfile : v.files[place]? = some (some file)) :
    (∃ h rest file', headerOf file = .ok h rest ∧ file'.rest = rest.rest ∧
        beginReading v = .ok (.file place, .start h.contentLength Reading.warnsByDefault)
          (((v.withFile place file').updateSession ({ · with header := some h })).note
            (.mainHeader h))) ∨
      ∃ f rest v', headerOf file = .error f rest ∧ beginReading v = .error f v' ∧
        Underway w base index log v' := by
  simp only [beginReading, hshp]
  rcases headerOf_cases hfile with
    ⟨h, rest, file', heq, hrest, hread⟩ | ⟨f, rest, file', heq, hread⟩
  · rw [hread]
    exact .inl ⟨h, rest, file', heq, hrest, rfl⟩
  · rw [hread]
    exact .inr ⟨f, rest, _, heq, rfl, { H with }⟩

end Underway

theorem Underway.report_error {w v : Workspace σ (List Shape × χ)} {base : String}
    {index : Option Header} {log : List Entry} (H : Underway w base index log v) (f : Fault) :
    report (.error f v) = ⟨.error f, index, none, 0, w.memo.1, w.memo.2, log⟩ := by
  simp only [report, outcome, endState, H.indexHeader, H.header, H.shapeCount, H.memo, H.log]

theorem modify_bind {τ α : Type} (f : τ → τ) (k : PUnit → EStateM Fault τ α) (s : τ) :
    (modify f >>= k) s = k ⟨⟩ (f s) := rfl

theorem load_loaded [Source σ] {path : String} (hpath : '\x00' ∉ path.toList)
    (w : Workspace σ χ) :
    Loaded w (Path.basePath path) (load path (w.updateSession .forget)) := by
  have hbase := Path.contains_extended hpath
  have hstart : Underway w (Path.basePath path) none w.log
      ((w.updateSession .forget).updateSession ({ · with basePath := Path.basePath path })) :=
    ⟨rfl, rfl, rfl, rfl, rfl, rfl, rfl, rfl, rfl⟩
  unfold load
  rw [modify_bind]
  rcases hstart.open_cases (hbase .shx) with ⟨path, file, place, v, shx, heq, hfile, H⟩ | h
  · rw [bind_of_ok heq, modify_bind]
    have hshx : Underway w _ none _ (v.updateSession ({ · with shx := some (.file place) })) :=
      { H with }
    rcases hshx.checkIndex_file rfl hfile with ⟨index, rest, v', hindex, heq', H'⟩ | h
    · rw [bind_of_ok heq']
      rcases H'.open_cases (hbase .shp) with ⟨path', file', place', u, shp, heq'', hfile', H''⟩ | h
      · rw [bind_of_ok heq'']
        exact .opened shx hindex shp { H'' with } rfl hfile'
      · obtain ⟨f, hrefuses, heq''⟩ := h
        rw [bind_of_error heq'']
        exact .noMainFile shx hindex hrefuses H'
    · obtain ⟨f, rest, v', hindex, heq', H'⟩ := h
      rw [bind_of_error heq']
      exact .badIndex shx hindex H'
  · obtain ⟨f, hrefuses, heq⟩ := h
    rw [bind_of_error heq]
    exact .noIndexFile hrefuses hstart

/-! ## Parses -/

theorem parsing_report (body : Action σ (List Shape × χ) Unit)
    (w : Workspace σ (List Shape × χ)) :
    report (parsing body w) = report (body (w.updateSession .forget)) := by
  simp only [parsing, within]
  cases body (w.updateSession .forget) with
  | ok _ v => rfl
  | error f v =>
    simp only [report, outcome, endState, release, updateSession, Session.record]
    split
    · rfl
    · split <;> rfl

theorem parsing_aside {body : Action σ χ Unit} {w : Workspace σ χ}
    (h : Aside w (endState (body (w.updateSession .forget)))) :
    Aside w (endState (parsing body w)) := by
  simp only [parsing, within]
  cases hbody : body (w.updateSession .forget) with
  | ok _ v | error f v =>
    rw [hbody] at h
    exact ⟨h.tree, h.streams, h.iterators⟩

/-- The records are read as at a desk that has the rest of the file, and they are counted. -/
theorem run_noting [Source σ] {v : Workspace σ (List Shape × χ)} {place : Nat} {file : OpenFile}
    {header : Header} (hfile : v.files[place]? = some (some file)) (hmemo : v.memo.1 = [])
    (answer : Shape → χ → Bool × χ)
    {d : EStateM.Result Fault (Reading × Desk Plain (List Shape × χ)) Nat}
    (hd : runAtDesk answer header ⟨file.rest⟩ v.log v.memo = d)
    {r : EStateM.Result Fault (Reading × Workspace σ (List Shape × χ)) Nat}
    (hr : Reading.run (link (.file place)) (besideReading (watcher (noting answer)))
      (.start header.contentLength Reading.warnsByDefault, v) = r) :
    outcome r = outcome d ∧ (endState r).1.shapeCount = (endState d).2.memo.1.length ∧
      Aside v (endState r).2 ∧ (endState r).2.session = v.session ∧
      (endState r).2.log = (endState d).2.log ∧ (endState r).2.memo = (endState d).2.memo := by
  have hrun : Alike _ (runAtDesk answer header ⟨file.rest⟩ v.log v.memo) _ :=
    run_file hfile (noting answer) (.start header.contentLength Reading.warnsByDefault)
  have hcounted : Desk.Counted (endState (runAtDesk answer header ⟨file.rest⟩ v.log v.memo)) :=
    Desk.run_counted answer _ _ hmemo
  rw [hd, hr] at hrun
  rw [hd] at hcounted
  cases hrun with
  | @ok n s t h | @error f s t h =>
    obtain ⟨rd, u⟩ := t
    obtain ⟨hrd, file', -, hu⟩ := h
    simp only at hu
    subst hu
    exact ⟨rfl, hrd ▸ hcounted, ⟨rfl, rfl, rfl⟩, rfl, rfl, rfl⟩

/-- What comes of the records. -/
theorem readRecords_report [Source σ] {w v : Workspace σ (List Shape × χ)} {base : String}
    {index : Header} {log : List Entry} (H : Underway w base (some index) log v) {place : Nat}
    {file : OpenFile} (hshp : v.session.shp = some (.file place))
    (hfile : v.files[place]? = some (some file)) (hmemo : w.memo.1 = [])
    (answer : Shape → χ → Bool × χ) {r : EStateM.Result Fault (Workspace σ (List Shape × χ)) Unit}
    (hr : readRecords (watcher (noting answer)) v = r) :
    Aside w (endState r) ∧
      ((∃ f rest, headerOf file = .error f rest ∧
          report r = ⟨.error f, some index, none, 0, w.memo.1, w.memo.2, log⟩) ∨
        ∃ header rest, headerOf file = .ok header rest ∧
          report r = recordsReport index header
            (runAtDesk answer header rest (.mainHeader header :: log) w.memo)) := by
  rcases H.beginReading_file hshp hfile with ⟨header, rest, file', hheader, hrest, heq⟩ | h
  · rw [readRecords, bind_of_ok heq] at hr
    generalize hv' : ((v.withFile place file').updateSession
      ({ · with header := some header })).note (.mainHeader header) = v' at hr
    obtain ⟨hlt, -⟩ := List.getElem?_eq_some_iff.mp hfile
    have hfile' : v'.files[place]? = some (some file') := hv' ▸ getElem?_withFile hlt file'
    have haside : Aside w v' := hv' ▸ ⟨H.tree, H.streams, H.iterators⟩
    have hindex : v'.session.indexHeader = some index := hv' ▸ H.indexHeader
    have hheader' : v'.session.header = some header := hv' ▸ rfl
    have hmemo' : v'.memo = w.memo := hv' ▸ H.memo
    have hlog' : v'.log = .mainHeader header :: log := hv' ▸ congrArg _ H.log
    have hdesk : runAtDesk answer header ⟨file'.rest⟩ v'.log v'.memo =
        runAtDesk answer header rest (.mainHeader header :: log) w.memo := by
      rw [hrest, hmemo', hlog']
    simp only at hr
    have hrun := run_noting hfile' (by rw [hmemo', hmemo]) answer hdesk rfl
    cases hresult : Reading.run (link (.file place)) (besideReading (watcher (noting answer)))
        (.start header.contentLength Reading.warnsByDefault, v') with
    | ok n t | error f t =>
      rw [hresult] at hr hrun
      obtain ⟨hout, hcount, hrun, hsession, hlog, hmemo⟩ := hrun
      subst hr
      refine ⟨haside.trans ⟨hrun.tree, hrun.streams, hrun.iterators⟩,
        .inr ⟨header, rest, hheader, ?_⟩⟩
      rw [recordsReport, ← hout, ← hcount, ← hlog, ← hmemo, ← hindex, ← hheader', ← hsession]
      rfl
  · obtain ⟨f, rest, v', hheader, heq, H'⟩ := h
    rw [readRecords, bind_of_error heq] at hr
    subst hr
    exact ⟨H'.aside, .inl ⟨f, rest, hheader, H'.report_error f⟩⟩

theorem body_staged [Source σ] {path : String} (hpath : '\x00' ∉ path.toList)
    (answer : Shape → χ → Bool × χ) {w : Workspace σ (List Shape × χ)} {memo : χ}
    (hmemo : w.memo = ([], memo)) {r : EStateM.Result Fault (Workspace σ (List Shape × χ)) Unit}
    (hr : (do load path; readRecords (watcher (noting answer)) : Action σ (List Shape × χ) Unit)
      (w.updateSession .forget) = r) :
    Staged w.tree (Path.basePath path) answer memo w.log (report r) ∧ Aside w (endState r) := by
  have hload := load_loaded hpath w
  cases hl : load path (w.updateSession .forget) with
  | error f v =>
    rw [bind_of_error hl] at hr
    rw [hl] at hload
    subst hr
    cases hload with
    | noIndexFile shx H =>
      rw [H.report_error, hmemo]
      exact ⟨.noIndexFile shx, H.aside⟩
    | badIndex shx shxHeader H =>
      rw [H.report_error, hmemo]
      exact ⟨.badIndex shx shxHeader, H.aside⟩
    | noMainFile shx shxHeader shp H =>
      rw [H.report_error, hmemo]
      exact ⟨.noMainFile shx shxHeader shp, H.aside⟩
  | ok _ v =>
    rw [bind_of_ok hl] at hr
    rw [hl] at hload
    cases hload with
    | opened shx shxHeader shp H hshp hfile =>
      obtain ⟨haside, hrecords⟩ :=
        readRecords_report H hshp hfile (congrArg Prod.fst hmemo) answer hr
      refine ⟨?_, haside⟩
      rcases hrecords with ⟨f, rest, shpHeader, hreport⟩ | ⟨header, rest, shpHeader, hreport⟩
      · rw [hreport, hmemo]
        exact .badHeader shx shxHeader shp shpHeader
      · rw [hreport, hmemo]
        exact .records shx shxHeader shp shpHeader

/-- A parse comes to what its stages come to. Whatever happens, the session's number of shapes is
the number of times that the consumer was called. -/
theorem parse_staged [Source σ] {path : String} (hpath : '\x00' ∉ path.toList)
    (answer : Shape → χ → Bool × χ) (w : Workspace σ χ) :
    let r := parse path (watcher (noting answer)) (w.withMemo ([], w.memo))
    (∀ due, Staged w.tree (Path.basePath path) answer w.memo w.log due ↔ due = report r) ∧
      (report r).shapeCount = (report r).handed.length ∧
      (endState r).tree = w.tree ∧ (endState r).streams = w.streams ∧
      (endState r).iterators = w.iterators := by
  intro r
  obtain ⟨hstaged, haside⟩ := body_staged hpath answer (w := w.withMemo ([], w.memo)) rfl rfl
  have hend := parsing_aside haside
  rw [← parsing_report] at hstaged
  refine ⟨fun due => ⟨fun h => h.unique hstaged, ?_⟩, hstaged.counted, hend.tree, hend.streams,
    hend.iterators⟩
  rintro rfl
  exact hstaged

/-- A shapefile that is not in the working directory. Its second record is of a type that cannot be
decoded. -/
def remoteFile : Constituent → Bytes
  | .shx => sampleHeader.encode (List.replicate 20 0)
  | .shp => sampleHeader.encode (List.replicate 20 7) ++
      (StoredRecord.encode ⟨7, 2, .null⟩ ++ (Bytes.ofIntBE 4 8 ++ Meter.encodeHalves 2 ++
        Bytes.ofIntLE 4 ShapeType.polygon.code))

def remoteTree : FileTree where
  nodes := [(["data"], .directory), (["data", "a.shx"], .file (remoteFile .shx)),
    (["data", "a.shp"], .file (remoteFile .shp))]
  home := ["home"]

theorem remoteTree_opens (c : Constituent) :
    remoteTree.Opens "/data/a" c ("/data/a" ++ "." ++ c.extension)
      (.init ["data", "a." ++ c.extension] (remoteFile c)) := by
  refine .lower ?_
  have horigin : remoteTree.origin ("/data/a" ++ "." ++ c.extension) = [] := if_pos (by
    cases c <;> decide +kernel)
  have hnames : FileTree.names ("/data/a" ++ "." ++ c.extension) =
      ["", "data", "a." ++ c.extension] := by
    cases c <;> decide +kernel
  rw [FileTree.open?, FileTree.locate, horigin, hnames]
  cases c <;> rfl

/-- All stages but the last succeed. The consumer is handed one shape before the last one fails. -/
theorem parse_staged_polygon :
    report (parse "/data/a.shp" (watcher (noting fun _ n => (true, n + 1)))
        (.init remoteTree ([] : List Plain) ([], 0))) =
      ⟨.error (.undecodableRecordType 5 "Polygon" (some 8)), some sampleHeader,
        some sampleHeader, 1, [.null (some 0) (some 7)], 1,
        [.mainHeader sampleHeader, .opened "/data/a.shp", .indexHeader sampleHeader,
          .opened "/data/a.shx"]⟩ := by
  have hshx : headerOf (.init ["data", "a.shx"] (remoteFile .shx)) = .ok sampleHeader ⟨[]⟩ := by
    have hreserved : (List.replicate 20 0 : Bytes).length = 20 := List.length_replicate
    have hread := Header.read_append [] sampleHeader_storable (by decide) hreserved
    rwa [List.append_nil] at hread
  have hshp : headerOf (.init ["data", "a.shp"] (remoteFile .shp)) = .ok sampleHeader ⟨_⟩ :=
    Header.read_append _ sampleHeader_storable (by decide) rfl
  have hpath : '\x00' ∉ "/data/a.shp".toList := by decide
  have hstaged := (parse_staged hpath (fun _ n => (true, n + 1))
    (.init remoteTree ([] : List Plain) 0)).1
  rw [show Path.basePath "/data/a.shp" = "/data/a" by decide] at hstaged
  have hdue := (hstaged _).mp (.records (remoteTree_opens .shx) hshx (remoteTree_opens .shp) hshp)
  exact hdue.symm.trans (by decide +kernel)

end Workspace
end Shapefile
