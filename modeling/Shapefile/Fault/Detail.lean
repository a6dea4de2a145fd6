import Shapefile.Shape.Geometry
import Shapefile.Text.Quoted

/-! Details that come with a failure from outside, and the message that is made of them. -/

namespace Shapefile

inductive Detail where
  | absent
  | truth (value : Bool)
  | whole (value : Int)
  | real (value : Binary64)
  | text (value : String)
  | list (items : List Detail)
  | fields (items : List (String × Detail))
deriving Inhabited, Repr

namespace Detail

mutual

/-- A detail among others. Texts are quoted, and numbers are written as coordinates are. -/
def written : Detail → String
  | absent => "None"
  | truth value => if value then "True" else "False"
  | whole value => toString value
  | real value => Shape.coordinateLayout.text value
  | text value => Text.quoted value
  | list items => "[" ++ ", ".intercalate (writtenItems items) ++ "]"
  | fields items => "\x7b" ++ ", ".intercalate (writtenFields items) ++ "\x7d"

def writtenItems : List Detail → List String
  | [] => []
  | item :: items => item.written :: writtenItems items

def writtenFields : List (String × Detail) → List String
  | [] => []
  | (name, item) :: items => (Text.quoted name ++ ": " ++ item.written) :: writtenFields items

end

/-- The message of a failure with these details: a single text as it is, several details in
parentheses. -/
def message : List Detail → String
  | [] => ""
  | [text value] => value
  | [detail] => detail.written
  | details => "(" ++ ", ".intercalate (details.map written) ++ ")"

end Detail
end Shapefile
