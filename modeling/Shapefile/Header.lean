import Shapefile.Meter
import Shapefile.ShapeType

/-! The header of 100 bytes that both files of a shapefile begin with. All its fields are read
before any is checked, so a file that is too short for them is told to be short whatever they
hold. -/

namespace Shapefile

/-- The least and the greatest value of a coordinate. -/
structure Range where
  low : Binary64
  high : Binary64
deriving DecidableEq, Repr

/-- A file header. The length is in bytes, although files store it in words of two bytes. -/
structure Header where
  fileCode : Int
  fileLength : Int
  version : Int
  typeCode : Int
  x : Range
  y : Range
  z : Range
  m : Range
deriving DecidableEq, Repr

namespace Header

/-- The file code of shapefiles. -/
def magic : Int := 0x270a

/-- The number of bytes in a header. -/
def size : Int := 100

/-- The bound of measures that stand for no data, `-1e39`. -/
def noData : Binary64 := ⟨0xc8078287f49c4a1d⟩

def typeName (h : Header) : Except Fault String := ShapeType.nameOfCode h.typeCode

/-- The bounding box, as its lower left and its upper right corner. -/
def boundingBox (h : Header) : List Binary64 := [h.x.low, h.y.low, h.x.high, h.y.high]

/-- A measure that is at or below the bound stands for no data. -/
def measure? (v : Binary64) : Option Binary64 := if v.exceeds noData then some v else none

/-- The range of the measures, as far as there is data on it. -/
def measures (h : Header) : List (Option Binary64) := [measure? h.m.low, measure? h.m.high]

/-- The number of bytes that follow the header. -/
def contentLength (h : Header) : Int := h.fileLength - size

variable {ε : Type}

def skipWords (feed : Feed ε) : Nat → Metered ε Unit
  | 0 => pure ()
  | n + 1 => do
    let _ ← Meter.readInt32BE feed
    skipWords feed n

def readRange (feed : Feed ε) : Metered ε Range := do
  let low ← Meter.readFloat64LE feed
  let high ← Meter.readFloat64LE feed
  return ⟨low, high⟩

/-- Reads the fields of a header, unchecked. -/
def readFields (feed : Feed ε) : Metered ε Header := do
  let fileCode ← Meter.readInt32BE feed
  skipWords feed 5
  let words ← Meter.readHalves feed
  let version ← Meter.readInt32LE feed
  let typeCode ← Meter.readInt32LE feed
  let x ← readRange feed
  let y ← readRange feed
  let z ← readRange feed
  let m ← readRange feed
  return ⟨fileCode, words * 2, version, typeCode, x, y, z, m⟩

/-- What is wrong with a header: the first defect, if it has one. -/
def defect? (h : Header) : Option Fault :=
  if h.fileCode ≠ magic then some (.wrongMagic h.fileCode)
  else if !ShapeType.isValidCode h.typeCode then some (.invalidFileType h.typeCode)
  else if h.fileLength < size then some (.lengthBelowHeader h.fileLength size)
  else none

/-- Reads and checks a header, under a meter of its own. -/
def read (feed : Feed ε) : EStateM Fault ε Header := fun e =>
  match readFields feed (.start none, e) with
  | .ok h (_, e) =>
    match h.defect? with
    | none => .ok h e
    | some f => .error f e
  | .error f (_, e) => .error f e

def encodeRange (r : Range) : Bytes := r.low.toBytesLE ++ r.high.toBytesLE

/-- The bytes of a header. The 20 reserved bytes carry no meaning. -/
def encode (reserved : Bytes) (h : Header) : Bytes :=
  Bytes.ofIntBE 4 h.fileCode ++ reserved ++ Meter.encodeHalves (h.fileLength / 2) ++
    Bytes.ofIntLE 4 h.version ++ Bytes.ofIntLE 4 h.typeCode ++
    encodeRange h.x ++ encodeRange h.y ++ encodeRange h.z ++ encodeRange h.m

end Header
end Shapefile
