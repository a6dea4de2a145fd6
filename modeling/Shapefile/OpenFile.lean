import Shapefile.Bytes

/-! Files that are open for reading. Bytes are fetched in blocks, ahead of what is read. If a file
is written anew while it is open, what was fetched stays as it was, and the bytes after it are those
that the file has there now. -/

namespace Shapefile

structure OpenFile where
  /-- The names that lead to the file, or nothing once the file has been removed. -/
  names : Option (List String)
  /-- What is left to read. -/
  rest : Bytes
  /-- How many bytes of the rest have been fetched. -/
  ahead : Nat
  /-- How many bytes of the file have been fetched. -/
  fetched : Nat
deriving DecidableEq, Repr

namespace OpenFile

/-- How many bytes are fetched at a time. -/
def blockSize : Nat := 4096

/-- A file at its start. -/
def init (names : List String) (contents : Bytes) : OpenFile := ⟨some names, contents, 0, 0⟩

/-- How many bytes are fetched beyond `n` bytes if whole blocks are fetched. -/
def surplus (n : Nat) : Nat := (blockSize - n % blockSize) % blockSize

/-- Moves past the next `n` bytes. Those that have not been fetched are, in whole blocks. -/
def advance (n : Nat) (f : OpenFile) : OpenFile :=
  let rest := f.rest.drop n
  if n ≤ f.ahead then { f with rest, ahead := f.ahead - n }
  else
    let ahead := (rest.take (surplus (n - f.ahead))).length
    { f with rest, ahead, fetched := f.fetched + (n - f.ahead) + ahead }

/-- Reads the next `n` bytes, or as many as there are. A negative count takes them all. -/
def read (n : Int) (f : OpenFile) : Bytes × OpenFile :=
  let data := (Bytes.cut n f.rest).1
  (data, f.advance data.length)

/-- The file has been written anew. -/
def overwritten (contents : Bytes) (f : OpenFile) : OpenFile :=
  { f with rest := f.rest.take f.ahead ++ contents.drop f.fetched }

/-- The file has been removed. What is written where it was is another file. -/
def removed (f : OpenFile) : OpenFile := { f with names := none }

@[simp] theorem rest_advance (n : Nat) (f : OpenFile) : (f.advance n).rest = f.rest.drop n := by
  unfold advance
  split <;> rfl

/-- Fetching ahead changes nothing of what is read. -/
@[simp] theorem fst_read (n : Int) (f : OpenFile) : (f.read n).1 = (Bytes.cut n f.rest).1 := rfl

@[simp] theorem rest_read (n : Int) (f : OpenFile) :
    (f.read n).2.rest = (Bytes.cut n f.rest).2 := by
  rw [read, rest_advance, Bytes.drop_length_cut]

end OpenFile
end Shapefile
