import Shapefile.Record

/-! Records as they are stored. The content of a record that can be decoded is one of two forms,
and its bytes tell how many there are, whatever length the record declares. -/

namespace Shapefile

/-- The content of a record that can be decoded. -/
inductive Content where
  | null
  | point (position : Position)
deriving DecidableEq, Repr

namespace Content

def type : Content → ShapeType
  | null => .null
  | point _ => .point

/-- What follows the shape type. -/
def body : Content → Bytes
  | null => []
  | point p => p.x.toBytesLE ++ p.y.toBytesLE

def encode (c : Content) : Bytes := Bytes.ofIntLE 4 c.type.code ++ c.body

/-- The shape that the content of a record becomes. -/
def shape (objectId recordNumber : Option Int) : Content → Shape
  | null => .null objectId recordNumber
  | point p => .point p objectId recordNumber

def size : Content → Nat
  | null => 4
  | point _ => 20

@[simp] theorem length_encode (c : Content) : c.encode.length = c.size := by
  cases c <;> simp [encode, body, size]

end Content

/-- A record as it is stored, with the length that it declares, in words of two bytes. -/
structure StoredRecord where
  number : Int
  words : Int
  content : Content
deriving DecidableEq, Repr

namespace StoredRecord

def encode (r : StoredRecord) : Bytes :=
  Bytes.ofIntBE 4 r.number ++ Meter.encodeHalves r.words ++ r.content.encode

def size (r : StoredRecord) : Nat := 8 + r.content.size

@[simp] theorem length_encode (r : StoredRecord) : r.encode.length = r.size := by
  simp only [encode, size, Meter.encodeHalves, List.length_append, Bytes.length_ofIntBE,
    Content.length_encode]

end StoredRecord
end Shapefile
