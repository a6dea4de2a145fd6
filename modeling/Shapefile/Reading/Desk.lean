import Shapefile.Reading.Basic

/-! A reading at a desk: its source, the iterators that were made of it and its log. Several
iterators and consumers may use one reading, in any order and from inside one another. -/

namespace Shapefile

/-- What lies beside a reading. The memo is for the consumers' own use. -/
structure Desk (σ χ : Type) where
  source : σ
  /-- All iterators made so far, each known by its place in the list. -/
  iterators : List Reading.Iterator
  /-- The lines of the log, the latest first. -/
  log : List Entry
  memo : χ

namespace Desk

variable {σ χ : Type}

def init (source : σ) (memo : χ) : Desk σ χ := ⟨source, [], [], memo⟩

variable [Source σ]

def feed : Feed (Desk σ χ) := fun n d =>
  match Source.read n d.source with
  | .ok data source => .ok data { d with source }
  | .error f source => .error f { d with source }

def link : Link (Desk σ χ) where
  feed := feed
  log entry d := { d with log := entry :: d.log }

/-- Computations on a reading at its desk. -/
abbrev Action (σ χ : Type) := Reading.Action (Desk σ χ)

abbrev Consumer (σ χ : Type) := Reading.Consumer (Desk σ χ)

/-- Makes an iterator, which reads nothing yet, and gives its place. -/
def iterate : Action σ χ Nat
  | (rd, d) => .ok d.iterators.length (rd, { d with iterators := d.iterators ++ [.fresh] })

/-- The iterator at a place. Where none was made it has nothing to give. -/
def iterator (d : Desk σ χ) (i : Nat) : Reading.Iterator := d.iterators.getD i .finished

def setIterator (i : Nat) (it : Reading.Iterator) : Reading × Desk σ χ → Reading × Desk σ χ
  | (rd, d) => (rd, { d with iterators := d.iterators.set i it })

/-- Asks an iterator for the next shape. -/
def next (i : Nat) : Action σ χ (Option Shape) := fun s =>
  let r := (s.2.iterator i).next link s
  match r with
  | .ok shape s => .ok shape (setIterator i (.after r) s)
  | .error f s => .error f (setIterator i (.after r) s)

/-- Closes an iterator. -/
def close (i : Nat) : Action σ χ Unit := fun s =>
  .ok () (setIterator i .finished ((s.2.iterator i).close link s))

def run (consumer : Consumer σ χ) : Action σ χ Nat := Reading.run link consumer

def skip (n : Int) : Action σ χ Bytes := Reading.skip link n

end Desk
end Shapefile
