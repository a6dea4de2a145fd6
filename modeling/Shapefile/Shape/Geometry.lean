import Shapefile.Decimal.Layout
import Shapefile.Shape

/-! Shapes in the notations of geometry exchange: GeoJSON and Well Known Text. Both have words for
points only; Well Known Text has one for a shape without geometry too. -/

namespace Shapefile

/-- A GeoJSON point. Without coordinates it is a null geometry. -/
structure GeoPoint where
  coordinates : Option Position
deriving DecidableEq, Repr

namespace Shape

/-- The coordinates of Well Known Text have the fewest digits that read back. They are positional
from the fourth place after the point to the sixteenth before it. -/
def coordinateLayout : Layout where
  leastPositional := -4
  mostPositional := 15
  exponentWidth := 2
  infinity := "inf"
  nan := "nan"

/-- A fault that names the shape type, or says that there is no such type. -/
def refuse {α : Type} (s : Shape) (fault : String → Fault) : Except Fault α := do
  throw (fault (← s.typeName))

def geoJson (s : Shape) : Except Fault GeoPoint :=
  if s.typeCode = ShapeType.point.code then .ok ⟨s.points.head?⟩ else s.refuse .noGeoJson

def wellKnownText (s : Shape) : Except Fault String :=
  if s.typeCode = ShapeType.null.code then .ok "GEOMETRYCOLLECTION EMPTY"
  else if s.typeCode = ShapeType.point.code then
    match s.points with
    | [] => .ok "POINT EMPTY"
    | p :: _ => .ok s!"POINT ({coordinateLayout.text p.x} {coordinateLayout.text p.y})"
  else s.refuse .noWellKnownText

end Shape
end Shapefile
