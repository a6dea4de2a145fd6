import Shapefile.Session.Parse

/-! Iterators over the shapes of a shapefile. An iterator opens the files when it is asked for its
first shape, and the session's files are closed when it ends. -/

namespace Shapefile.Workspace

variable {σ χ : Type}

/-- Makes an iterator, which opens nothing yet, and gives its place. -/
def iterate (path : String) : Action σ χ Nat := fun w =>
  .ok w.iterators.length { w with iterators := w.iterators ++ [.fresh path] }

/-- The iterator at a place. Where none was made it has nothing to give. -/
def iterator (w : Workspace σ χ) (i : Nat) : Session.Iterator := w.iterators.getD i .finished

def setIterator (i : Nat) (it : Session.Iterator) (w : Workspace σ χ) : Workspace σ χ :=
  { w with iterators := w.iterators.set i it }

variable [Source σ]

/-- Asks the records for the next shape, on behalf of the iterator at a place. -/
def resume (i : Nat) (handle : Handle) (reading : Reading) (it : Reading.Iterator) :
    Action σ χ (Option Shape) := fun w =>
  match it.next (link handle) (reading, w) with
  | .ok (some shape) (rd, w) =>
    .ok (some shape) ((w.updateSession ({ · with shapeCount := rd.shapeCount })).setIterator i
      (.suspended handle rd))
  | .ok none (_, w) => .ok none (w.release.setIterator i .finished)
  | .error f (_, w) =>
    .error f ((w.updateSession (.record f)).release.setIterator i .finished)

/-- Asks an iterator for the next shape. The first time, it begins a parse. -/
def next (i : Nat) : Action σ χ (Option Shape) := fun w =>
  match w.iterator i with
  | .fresh path =>
    let opening : Action σ χ (Handle × Reading) := do
      load path
      beginReading
    match opening (w.updateSession .forget) with
    | .ok (handle, reading) w => resume i handle reading .fresh w
    | .error f w => .error f ((w.updateSession (.record f)).release.setIterator i .finished)
  | .suspended handle reading => resume i handle reading .suspended w
  | .finished => .ok none w

/-- Closes an iterator. One that had started closes the session's files, and its reading ends. -/
def closeIterator (i : Nat) : Action σ χ Unit := fun w =>
  match w.iterator i with
  | .suspended handle reading =>
    let (_, w) := Reading.Iterator.suspended.close (link handle) (reading, w.release)
    .ok () (w.setIterator i .finished)
  | _ => .ok () (w.setIterator i .finished)

end Shapefile.Workspace
