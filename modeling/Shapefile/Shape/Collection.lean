import Shapefile.Shape.Geometry

/-! Collections of shapes. -/

namespace Shapefile

/-- Shapes in order. -/
structure Collection where
  shapes : List Shape
deriving DecidableEq, Repr

namespace Collection

def describe (c : Collection) : Except Fault String := do
  let texts ← c.shapes.mapM Shape.describe
  return "Shapes: [" ++ String.intercalate ", " texts ++ "]"

/-- The members of the collection in GeoJSON. Shapes without geometry are left out. -/
def geoJson (c : Collection) : Except Fault (List GeoPoint) :=
  (c.shapes.filter (·.typeCode != ShapeType.null.code)).mapM Shape.geoJson

end Collection
end Shapefile
