import Shapefile.Proofs.Streams

/-! # Reading open files

What is read from an open file in a workspace is read as if its bytes stood alone: a header as from
the bytes themselves (`Workspace.header_read_file`), and the records as at a desk
(`Workspace.run_file`). How far ahead bytes are fetched makes no difference. -/

namespace Shapefile

variable {σ χ : Type}

namespace Workspace

def withFile (place : Nat) (file : OpenFile) (w : Workspace σ χ) : Workspace σ χ :=
  { w with files := w.files.set place (some file) }

/-- The workspace `w` after the file at a place was read, with `p` left of it. -/
def ReadUpTo (w : Workspace σ χ) (place : Nat) (p : Plain) (v : Workspace σ χ) : Prop :=
  ∃ file : OpenFile, file.rest = p.rest ∧ v = w.withFile place file

/-- The workspace `w` after a reading at a desk that stands for the file at a place. -/
def ReadAtDesk (w : Workspace σ χ) (place : Nat) (d : Desk Plain χ) (v : Workspace σ χ) : Prop :=
  ReadUpTo { w with log := d.log, memo := d.memo } place d.source v

variable {w : Workspace σ χ} {place : Nat} {file : OpenFile}

theorem withFile_self (h : w.files[place]? = some (some file)) : w.withFile place file = w := by
  obtain ⟨hlt, hget⟩ := List.getElem?_eq_some_iff.mp h
  simp only [withFile, ← hget, List.set_getElem_self]

theorem getElem?_withFile (hlt : place < w.files.length) (file : OpenFile) :
    (w.withFile place file).files[place]? = some (some file) := List.getElem?_set_self hlt

theorem withFile_withFile (file file' : OpenFile) :
    (w.withFile place file).withFile place file' = w.withFile place file' := by
  simp only [withFile, List.set_set]

variable [Source σ]

theorem feed_file (hlt : place < w.files.length) (file : OpenFile) (n : Int) :
    feed (.file place) n (w.withFile place file) =
      .ok (Bytes.cut n file.rest).1 (w.withFile place (file.read n).2) := by
  simp only [feed, getElem?_withFile hlt]
  exact congrArg _ (withFile_withFile file _)

theorem feed_simulates_file (hlt : place < w.files.length) (n : Int) :
    Simulates (ReadUpTo w place) (Plain.read n) (feed (.file place) n) := by
  rintro ⟨rest⟩ _ ⟨file, rfl, rfl⟩
  rw [feed_file hlt]
  exact .ok ⟨(file.read n).2, OpenFile.rest_read n file, rfl⟩

theorem header_read_file (h : w.files[place]? = some (some file)) :
    Alike (ReadUpTo w place) (Header.read Plain.read ⟨file.rest⟩)
      (Header.read (feed (.file place)) w) := by
  obtain ⟨hlt, -⟩ := List.getElem?_eq_some_iff.mp h
  exact Header.read_simulates (feed_simulates_file hlt) ⟨file, rfl, (withFile_self h).symm⟩

theorem link_simulates_file (hlt : place < w.files.length) :
    Link.Simulates (ReadAtDesk w place) Desk.link (link (.file place)) where
  feed n := by
    rintro d _ ⟨file, hfile, rfl⟩
    have hfeed := feed_file (w := { w with log := d.log, memo := d.memo }) hlt file n
    have hread : Source.read n d.source =
        .ok (Bytes.cut n file.rest).1 ⟨(Bytes.cut n file.rest).2⟩ := by
      rw [hfile]
      rfl
    simp only [link, Desk.link, Desk.feed, hfeed, hread]
    exact .ok ⟨(file.read n).2, OpenFile.rest_read n file, rfl⟩
  log entry _ := by
    rintro d _ ⟨file, hfile, rfl⟩
    exact ⟨file, hfile, rfl⟩

theorem run_file (h : w.files[place]? = some (some file)) (answer : Shape → χ → Bool × χ)
    (rd : Reading) :
    Alike (Beside (ReadAtDesk w place))
      (Desk.run (Desk.watcher answer) (rd, ⟨⟨file.rest⟩, [], w.log, w.memo⟩))
      (Reading.run (link (.file place)) (besideReading (watcher answer)) (rd, w)) := by
  obtain ⟨hlt, -⟩ := List.getElem?_eq_some_iff.mp h
  refine Reading.run_simulates (link_simulates_file hlt) (fun shape => ?_)
    ⟨rfl, file, rfl, (withFile_self h).symm⟩
  rintro ⟨rd, d⟩ ⟨_, _⟩ ⟨rfl, file, hfile, rfl⟩
  exact .ok ⟨rfl, file, hfile, rfl⟩

end Workspace
end Shapefile
