import Shapefile.Fault

/-! The shape types of the format: the code that stands in files, the name, the name used in
messages, and the class of the shapes that records of the type become. -/

namespace Shapefile

inductive ShapeType where
  | null | point | polyline | polygon | multiPoint
  | pointZ | polylineZ | polygonZ | multiPointZ
  | pointM | polylineM | polygonM | multiPointM
  | multiPatch
deriving DecidableEq, Repr

namespace ShapeType

/-- All shape types, by increasing code. -/
def all : List ShapeType :=
  [null, point, polyline, polygon, multiPoint, pointZ, polylineZ, polygonZ, multiPointZ,
    pointM, polylineM, polygonM, multiPointM, multiPatch]

def code : ShapeType → Int
  | null => 0
  | point => 1
  | polyline => 3
  | polygon => 5
  | multiPoint => 8
  | pointZ => 11
  | polylineZ => 13
  | polygonZ => 15
  | multiPointZ => 18
  | pointM => 21
  | polylineM => 23
  | polygonM => 25
  | multiPointM => 28
  | multiPatch => 31

def name : ShapeType → String
  | null => "NULL"
  | point => "POINT"
  | polyline => "POLYLINE"
  | polygon => "POLYGON"
  | multiPoint => "MULTIPOINT"
  | pointZ => "POINTZ"
  | polylineZ => "POLYLINEZ"
  | polygonZ => "POLYGONZ"
  | multiPointZ => "MULTIPOINTZ"
  | pointM => "POINTM"
  | polylineM => "POLYLINEM"
  | polygonM => "POLYGONM"
  | multiPointM => "MULTIPOINTM"
  | multiPatch => "MULTIPATCH"

/-- The name of a shape type in messages. -/
def displayName : ShapeType → String
  | null => "Null"
  | point => "Point"
  | polyline => "Polyline"
  | polygon => "Polygon"
  | multiPoint => "MultiPoint"
  | pointZ => "PointZ"
  | polylineZ => "PolylineZ"
  | polygonZ => "PolygonZ"
  | multiPointZ => "MultiPointZ"
  | pointM => "PointM"
  | polylineM => "PolylineM"
  | polygonM => "PolygonM"
  | multiPointM => "MultiPointM"
  | multiPatch => "MultiPatch"

/-- The shape type with a given code. -/
def ofCode? (code : Int) : Option ShapeType := all.find? (·.code == code)

/-- The shape type with a given name. -/
def ofName? (name : String) : Option ShapeType := all.find? (·.name == name)

/-- The name of the shape type with a given code, which there need not be. -/
def nameOfCode (code : Int) : Except Fault String :=
  match ofCode? code with
  | some t => .ok t.name
  | none => .error (.noSuchType code)

/-- Records of this type can be decoded. -/
def isDecodable : ShapeType → Bool
  | null | point => true
  | _ => false

/-- The class of the shapes that records of this type become. -/
def className : ShapeType → String
  | null => "NullShape"
  | point => "Point"
  | _ => "UnsupportedShape"

/-- The capital of a letter that can become a letter of a type's name. Beside the letters of
ASCII that is the dotless i alone: every other character is left as it is, since neither it nor
its capital occurs in a name. -/
def capital (c : Char) : Char := if c = 'ı' then 'I' else c.toUpper

/-- The shape type that a class is named for, whatever the case of its letters. -/
def ofClassName? (className : String) : Option ShapeType := ofName? (className.map capital)

/-- A code of the format, whether or not its records can be decoded. -/
def isValidCode (code : Int) : Bool := (ofCode? code).isSome

/-- A code whose records can be decoded. -/
def isDecodableCode (code : Int) : Bool := (ofCode? code).any isDecodable

theorem ofCode?_code (t : ShapeType) : ofCode? t.code = some t := by cases t <;> decide

theorem nameOfCode_of_some {code : Int} {t : ShapeType} (h : ofCode? code = some t) :
    nameOfCode code = .ok t.name := by rw [nameOfCode, h]

theorem nameOfCode_of_none {code : Int} (h : ofCode? code = none) :
    nameOfCode code = .error (.noSuchType code) := by rw [nameOfCode, h]

theorem ofCode?_eq_some_iff {code : Int} {t : ShapeType} :
    ofCode? code = some t ↔ t.code = code := by
  refine ⟨fun h => ?_, fun h => h ▸ ofCode?_code t⟩
  simpa using List.find?_some h

end ShapeType
end Shapefile
