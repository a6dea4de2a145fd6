import Shapefile.Meter
import Shapefile.ShapeType

/-! Shapes: the geometry of one record each. -/

namespace Shapefile

structure Position where
  x : Binary64
  y : Binary64
deriving DecidableEq, Repr

/-- A shape. It holds the code of its shape type, which need not be one of the format, and belongs
to a class by name. The object id is its place among the records, from 0, or -1 for a shape that
comes from nowhere; the record number is the one that is stored with the record. -/
structure Shape where
  className : String
  typeCode : Int
  points : List Position
  objectId : Int
  recordNumber : Option Int
deriving DecidableEq, Repr

namespace Shape

/-- A shape of a given class. Without a shape type it has the one that its class is named for, or
none (0) if there is no such type. -/
def make (className : String) (typeCode : Option Int) (points : List Position)
    (objectId recordNumber : Option Int) : Shape :=
  { className
    typeCode := typeCode.getD ((ShapeType.ofClassName? className).getD .null).code
    points
    objectId := objectId.getD (-1)
    recordNumber }

/-- A shape without geometry. -/
def null (objectId recordNumber : Option Int) : Shape :=
  make ShapeType.null.className (some ShapeType.null.code) [] objectId recordNumber

def point (p : Position) (objectId recordNumber : Option Int) : Shape :=
  make ShapeType.point.className none [p] objectId recordNumber

/-- The shape type of a shape, if it is one of the format. -/
def type? (s : Shape) : Option ShapeType := ShapeType.ofCode? s.typeCode

def typeName (s : Shape) : Except Fault String := ShapeType.nameOfCode s.typeCode

/-- A short text for a shape, which names the shape type where the class does not tell it. -/
def describe (s : Shape) : Except Fault String :=
  if s.className = "Shape" then s.typeName.map fun name => s!"Shape #{s.objectId}: {name}"
  else .ok s!"{s.className} #{s.objectId}"

variable {ε : Type}

/-- Reads what follows the shape type in a record. -/
def read (feed : Feed ε) (typeCode : Int) (recordNumber objectId : Option Int) :
    Metered ε Shape :=
  match ShapeType.ofCode? typeCode with
  | none => throw (.invalidRecordType typeCode recordNumber)
  | some .null => pure (null objectId recordNumber)
  | some .point => do
    let x ← Meter.readFloat64LE feed
    let y ← Meter.readFloat64LE feed
    return point ⟨x, y⟩ objectId recordNumber
  | some t => throw (.undecodableRecordType typeCode t.displayName recordNumber)

end Shape
end Shapefile
