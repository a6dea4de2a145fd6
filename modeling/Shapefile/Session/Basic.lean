import Shapefile.Header

/-! Sessions: what is kept from one parse to the next. -/

namespace Shapefile

/-- The release of the library. -/
def version : String := "0.1.0"

namespace Message

/-- Keeps a text of fewer than `limit` characters, and the first `limit - 1` characters of any
other. Where `limit - 1` is negative, that many characters are left off at the end. -/
def shorten (text : String) (limit : Int) : String :=
  let size : Int := text.length
  let kept := limit - 1
  if size < limit then text
  else String.ofList (text.toList.take (if kept < 0 then size + kept else kept).toNat)

/-- The limit of the message of the last failure. -/
def errorLimit : Int := 256

end Message

/-- Where a session reads from: a file that was opened, or a stream of the user's. Both are known
by their place in the workspace. -/
inductive Handle where
  | file (place : Nat)
  | stream (place : Nat)
deriving DecidableEq, Repr

structure Session where
  shp : Option Handle
  shx : Option Handle
  /-- The places of the files that the session opened and has not closed. -/
  owned : List Nat
  basePath : String
  header : Option Header
  indexHeader : Option Header
  shapeCount : Nat
  /-- The message of the latest failure, empty if there was none. -/
  error : String
deriving DecidableEq, Repr

namespace Session

def init : Session where
  shp := none
  shx := none
  owned := []
  basePath := "Not specified"
  header := none
  indexHeader := none
  shapeCount := 0
  error := ""

/-- Forgets the outcome of the parse before, its message excepted. -/
def forget (s : Session) : Session :=
  { s with header := none, indexHeader := none, shapeCount := 0 }

/-- Keeps the message of a fault. Only problems of the files and of the memory are kept. -/
def record (f : Fault) (s : Session) : Session :=
  if f.isShapefile then { s with error := Message.shorten f.message Message.errorLimit }
  else if f.isMemory then { s with error := Message.shorten "Out of memory" Message.errorLimit }
  else s

/-- Of a fault nothing but a message is kept. -/
theorem record_eq (f : Fault) (s : Session) :
    s.record f = { s with error := (s.record f).error } := by
  by_cases hfiles : f.isShapefile = true
  · simp only [record, if_pos hfiles]
  · by_cases hmemory : f.isMemory = true
    · simp only [record, if_neg hfiles, if_pos hmemory]
    · simp only [record, if_neg hfiles, if_neg hmemory]

/-- A text for a session. It names the shape type of the header, which a code outside the format
does not have. -/
def describe (s : Session) : Except Fault String := do
  let shapes ←
    match s.header with
    | none => pure ""
    | some h => do
      let name ← h.typeName
      pure ("\n    " ++ toString s.shapeCount ++ " shapes read (type '" ++ name ++ "')")
  let failure := if s.error.isEmpty then "" else "\n    last error: " ++ s.error
  return "shapefile Session" ++ shapes ++ failure

end Session
end Shapefile
