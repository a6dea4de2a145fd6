import Shapefile.Source

/-! A byte string that is handed out by a script: answers may be cut or lengthened, and one
request may fail. -/

namespace Shapefile

/-- The request that fails, counted from 1, and its failure. -/
structure Failure where
  call : Int
  fault : Fault

/-- A scripted source. -/
structure Scripted where
  rest : Bytes
  /-- The number of bytes handed out. -/
  position : Nat
  /-- The number of requests answered. -/
  calls : Nat
  /-- The most bytes that one answer has. -/
  chunk : Option Int
  /-- The number of bytes added to a request. -/
  extra : Int
  failure : Option Failure

namespace Scripted

/-- A source that is at its start. -/
def ofBytes (bytes : Bytes) (chunk : Option Int) (extra : Int) (failure : Option Failure) :
    Scripted :=
  ⟨bytes, 0, 0, chunk, extra, failure⟩

/-- The count of bytes that a request for `n` is answered with, before the source runs out.
A negative count means all that is left. -/
def granted (s : Scripted) (n : Int) : Int :=
  let n := if n < 0 then n else n + s.extra
  match s.chunk with
  | some chunk => if n < 0 ∨ chunk < n then chunk else n
  | none => n

def read : Feed Scripted := fun n s =>
  let s := { s with calls := s.calls + 1 }
  let answer : EStateM.Result Fault Scripted Bytes :=
    let (data, rest) := Bytes.cut (s.granted n) s.rest
    .ok data { s with rest, position := s.position + data.length }
  match s.failure with
  | some failure => if failure.call = s.calls then .error failure.fault s else answer
  | none => answer

instance : Source Scripted := ⟨read⟩

end Scripted
end Shapefile
