import Shapefile.Header

/-! The lines that a reading writes about its progress. -/

namespace Shapefile

inductive Level where
  | debug | warning
deriving DecidableEq, Repr

/-- A line of the log. -/
inductive Entry where
  | opened (path : String)
  | indexHeader (header : Header)
  | mainHeader (header : Header)
  /-- What a reading came to when it was done. -/
  | totals (shapeCount : Nat) (left : Int)
  /-- A record declares another length than its shape has. -/
  | lengthMismatch (number : Int) (declared : Int) (decoded : Nat)
deriving DecidableEq

namespace Entry

def level : Entry → Level
  | lengthMismatch .. => .warning
  | _ => .debug

/-- The text of a line. That of a header names its shape type. -/
def text : Entry → Except Fault String
  | opened path => .ok s!"Opened {path}"
  | indexHeader header =>
    header.typeName.map fun name => s!"Index header ok: {name}, {header.fileLength} bytes"
  | mainHeader header =>
    header.typeName.map fun name => s!"Shapefile header ok: {name}, {header.fileLength} bytes"
  | totals shapeCount left => .ok s!"Read {shapeCount} shapes, {left} bytes left unread"
  | lengthMismatch number declared decoded =>
    .ok s!"Record {number} declares {declared} content bytes but {decoded} were decoded"

end Entry
end Shapefile
