import Shapefile.Log
import Shapefile.Record

/-! A reading of the records of a file, one shape at a time and in file order. It is `ready` until
the first shape is asked for and `reading` from then on. It ends `done`, when the budget is used up
or the consumer wants no more, or `failed`. Records are read once: a reading that is not `ready`
gives no further iterator a shape. -/

namespace Shapefile

/-- What a reading is connected to: where bytes come from and where the log goes. -/
structure Link (ε : Type) where
  feed : Feed ε
  log : Entry → ε → ε

structure Reading where
  meter : Meter
  phase : Phase
  shapeCount : Nat
  /-- Records that declare a wrong length are logged. -/
  warns : Bool
deriving DecidableEq, Repr

/-- Computations on a reading and what it is connected to. -/
abbrev Reading.Action (ε : Type) := EStateM Fault (Reading × ε)

namespace Reading

/-- Readings log wrong lengths unless told otherwise. -/
def warnsByDefault : Bool := true

/-- A reading at its start, of as many bytes as the file header promises. -/
def start (contentLength : Int) (warns : Bool) : Reading :=
  ⟨.start (some contentLength), .ready, 0, warns⟩

/-- What is left of the bytes that the file header promises. It is negative when the last record
went beyond them. -/
def left (rd : Reading) : Int := rd.meter.left

def describe (rd : Reading) : String :=
  s!"RecordStream({rd.phase.name}, {rd.shapeCount} shapes, {rd.meter.remainingText} bytes left)"

variable {ε : Type} (link : Link ε)

/-- Ends a reading that goes on. -/
def settle : Reading × ε → Reading × ε
  | (rd, e) =>
    if rd.phase = .reading then
      ({ rd with phase := .done }, link.log (.totals rd.shapeCount rd.left) e)
    else (rd, e)

/-- The fault ends a reading as failed. Any other ends it as if the consumer wanted no more. -/
def endsFailed (f : Fault) : Bool := f.isShapefile || f.isMemory

/-- Logs a record that declares a wrong length. -/
def warn (rd : Reading) (record : Record) (e : ε) : ε :=
  if rd.warns && record.isMisdeclared then
    link.log
      (.lengthMismatch record.header.number record.header.contentLength record.decoded) e
  else e

/-- Reads the next shape, if any bytes are left to read. -/
def advance : Action ε (Option Shape)
  | (rd, e) =>
    if rd.left ≤ 0 then .ok none (settle link (rd, e))
    else
      match Record.read link.feed rd.shapeCount (rd.meter, e) with
      | .ok record (meter, e) =>
        .ok (some record.shape)
          ({ rd with meter, shapeCount := rd.shapeCount + 1 }, warn link rd record e)
      | .error f (meter, e) =>
        if endsFailed f then .error f ({ rd with meter, phase := .failed }, e)
        else .error f (settle link ({ rd with meter }, e))

/-- An iterator over the shapes of a reading. It is `suspended` while it waits to be asked for
another shape. -/
inductive Iterator where
  | fresh | suspended | finished
deriving DecidableEq, Repr

namespace Iterator

/-- Asks for the next shape. Only an iterator that finds the reading `ready` starts to read. -/
def next : Iterator → Action ε (Option Shape)
  | fresh => fun (rd, e) =>
    if rd.phase = .ready then advance link ({ rd with phase := .reading }, e)
    else .error (.alreadyRead rd.phase) (rd, e)
  | suspended => advance link
  | finished => fun s => .ok none s

/-- What an iterator is after it was asked for a shape and gave the answer `r`. -/
def after {σ : Type} (r : EStateM.Result Fault σ (Option Shape)) : Iterator :=
  match r with
  | .ok (some _) _ => suspended
  | _ => finished

/-- Tells an iterator that no more shapes are wanted. It is `finished` afterwards. -/
def close : Iterator → Reading × ε → Reading × ε
  | suspended, s => settle link s
  | _, s => s

end Iterator

/-- Code that is handed each shape, and answers whether it wants more. It may use the reading that
the shape comes from. -/
abbrev Consumer (ε : Type) := Shape → Action ε Bool

/-- Hands the shapes of an iterator to a consumer until either has enough. Every record takes bytes
off the budget and nothing gives any back, so a reading comes to its end before the fuel does if
that is more than the bytes left. -/
def deliver (consumer : Consumer ε) : (fuel : Nat) → Iterator → Action ε Unit
  | 0, _, s => .ok () s
  | fuel + 1, it, s =>
    match it.next link s with
    | .ok none s => .ok () s
    | .ok (some shape) s =>
      match consumer shape s with
      | .ok true s => deliver consumer fuel .suspended s
      | .ok false s => .ok () (Iterator.suspended.close link s)
      | .error f s => .error f s
    | .error f s => .error f s

/-- Hands the shapes to a consumer, and gives the number of them. Any fault, the consumer's own
included, leaves the reading failed. -/
def run (consumer : Consumer ε) : Action ε Nat := fun s =>
  match deliver link consumer (s.1.left.toNat + 1) .fresh s with
  | .ok _ (rd, e) => .ok rd.shapeCount (rd, e)
  | .error f (rd, e) => .error f ({ rd with phase := .failed }, e)

/-- Reads `n` bytes at the expense of the records. -/
def skip (n : Int) : Action ε Bytes
  | (rd, e) =>
    match Meter.read link.feed n (rd.meter, e) with
    | .ok data (meter, e) => .ok data ({ rd with meter }, e)
    | .error f (meter, e) => .error f ({ rd with meter }, e)

/-- A consumer that wants every shape. -/
def wantAll : Consumer ε := fun _ s => .ok true s

end Reading
end Shapefile
