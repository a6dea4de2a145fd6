import Shapefile.Bytes
import Shapefile.Fault

/-! Sources of bytes. A source is asked for a number of bytes and answers from a state of its own,
with as many bytes as it likes or with a fault; nothing else is taken for granted about it. -/

namespace Shapefile

/-- How bytes are asked for, where answers come from a state of type `ε` and change it. -/
abbrev Feed (ε : Type) := Int → EStateM Fault ε Bytes

/-- States that answer requests for bytes. -/
class Source (σ : Type) where
  read : Feed σ

/-- A plain byte string, which answers in full until it runs out. -/
structure Plain where
  rest : Bytes
deriving DecidableEq, Repr

namespace Plain

def read : Feed Plain := fun n s =>
  let (data, rest) := Bytes.cut n s.rest
  .ok data ⟨rest⟩

instance : Source Plain := ⟨read⟩

end Plain
end Shapefile
