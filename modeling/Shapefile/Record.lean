import Shapefile.Shape

/-! Records: a header of eight bytes with the record number and the declared length of the content,
then the content, which is a shape type and what belongs to it.

The declared length is checked against the budget only. How many bytes the content takes is told
by its shape type. -/

namespace Shapefile

/-- The header of a record. The length is in bytes and counts the shape type. -/
structure RecordHeader where
  number : Int
  contentLength : Int
deriving DecidableEq, Repr

/-- A record as it was read, with the number of bytes that its content took. -/
structure Record where
  header : RecordHeader
  shape : Shape
  decoded : Nat
deriving DecidableEq, Repr

variable {ε : Type}

def RecordHeader.read (feed : Feed ε) : Metered ε RecordHeader := do
  let number ← Meter.readInt32BE feed
  let words ← Meter.readHalves feed
  return ⟨number, words * 2⟩

/-- The declared length does not fit into the budget. -/
def RecordHeader.overruns (h : RecordHeader) (left : Int) : Bool :=
  decide (h.contentLength < 0 ∨ left < h.contentLength)

namespace Record

/-- Reads the content of a record whose header was read, as the shape with object id `objectId`. -/
def readContent (feed : Feed ε) (objectId : Nat) (header : RecordHeader) : Metered ε Shape := do
  let typeCode ← Meter.readInt32LE feed
  Shape.read feed typeCode (some header.number) (some objectId)

/-- Reads a record, as the shape with object id `objectId`. -/
def read (feed : Feed ε) (objectId : Nat) : Metered ε Record := do
  let header ← RecordHeader.read feed
  let before := (← get).1
  if header.overruns before.left then
    throw (.recordOverrun header.number header.contentLength before.left)
  let shape ← readContent feed objectId header
  let after := (← get).1
  return ⟨header, shape, after.consumed - before.consumed⟩

/-- The record declares another length than its content has. -/
def isMisdeclared (r : Record) : Bool := (r.decoded : Int) != r.header.contentLength

end Record
end Shapefile
