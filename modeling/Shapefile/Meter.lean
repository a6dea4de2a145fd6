import Shapefile.Binary64
import Shapefile.Source

/-! Metered reading. A meter counts the bytes that were read and takes them off a budget, if it has
one. A read gives all the bytes that it asks for or fails, and a read that fails counts nothing.

The format has big endian and little endian fields, and lengths in two halves of which the low one
comes first, so every read of a field names its layout. -/

namespace Shapefile

/-- The count of bytes read, and what is left of the budget. -/
structure Meter where
  consumed : Nat
  remaining : Option Int
deriving DecidableEq, Repr

/-- Computations that read under a meter. -/
abbrev Metered (ε : Type) := EStateM Fault (Meter × ε)

namespace Meter

/-- A meter at its start. -/
def start (budget : Option Int) : Meter := ⟨0, budget⟩

/-- The budget is used up. Without a budget that never happens. -/
def isExhausted (m : Meter) : Bool := m.remaining.any fun left => decide (left ≤ 0)

/-- What is left of the budget; nothing if there is none. -/
def left (m : Meter) : Int := m.remaining.getD 0

/-- Counts `n` bytes. -/
def count (m : Meter) (n : Nat) : Meter := ⟨m.consumed + n, m.remaining.map (· - n)⟩

def remainingText (m : Meter) : String :=
  match m.remaining with
  | none => "None"
  | some left => toString left

def describe (m : Meter) : String :=
  s!"ByteCursor(consumed={m.consumed}, remaining={m.remainingText})"

variable {ε : Type}

/-- Reads exactly `n` bytes. A failure of the system behind the source is told as a failed read,
any other passes unchanged. -/
def read (feed : Feed ε) (n : Int) : Metered ε Bytes := fun (m, e) =>
  match feed n e with
  | .ok data e =>
    if (data.length : Int) = n then .ok data (m.count data.length, e)
    else .error (.wrongCount n data.length) (m, e)
  | .error f e => .error (if f.isSystem then .readFailed n f else f) (m, e)

def readInt16BE (feed : Feed ε) : Metered ε Int := do
  return Bytes.toIntBE (← read feed 2)

def readInt32BE (feed : Feed ε) : Metered ε Int := do
  return Bytes.toIntBE (← read feed 4)

def readInt32LE (feed : Feed ε) : Metered ε Int := do
  return Bytes.toIntLE (← read feed 4)

def readFloat64LE (feed : Feed ε) : Metered ε Binary64 := do
  return Binary64.ofBytesLE (← read feed 8)

/-- Joins the halves of a length. The sign is that of the high half. -/
def joinHalves (low high : Int) : Int := high * 0x10000 + low % 0x10000

/-- Reads a length that is stored in two halves, the low one first. -/
def readHalves (feed : Feed ε) : Metered ε Int := do
  let low ← readInt16BE feed
  let high ← readInt16BE feed
  return joinHalves low high

/-- The four bytes of a length in two halves. -/
def encodeHalves (n : Int) : Bytes := Bytes.ofIntBE 2 n ++ Bytes.ofIntBE 2 (n / 0x10000)

end Meter
end Shapefile
