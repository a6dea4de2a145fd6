import Shapefile.Bytes

/-! Double precision numbers, held as their 64 bits, so that no reading or copying changes a NaN
or the sign of a zero. -/

namespace Shapefile

/-- A double precision number. -/
structure Binary64 where
  bits : UInt64
deriving DecidableEq, Repr, Inhabited

namespace Binary64

def ofBytesLE (bs : Bytes) : Binary64 := ⟨UInt64.ofNat (Bytes.toNatLE bs)⟩

def toBytesLE (x : Binary64) : Bytes := Bytes.ofNatLE 8 x.bits.toNat

@[simp] theorem length_toBytesLE (x : Binary64) : x.toBytesLE.length = 8 := by simp [toBytesLE]

@[simp] theorem ofBytesLE_toBytesLE (x : Binary64) : ofBytesLE x.toBytesLE = x := by
  have hlt : x.bits.toNat < Nat.pow 256 8 := x.bits.toNat_lt
  rw [ofBytesLE, toBytesLE, Bytes.toNatLE_ofNatLE, Nat.mod_eq_of_lt hlt, UInt64.ofNat_toNat]

theorem toBytesLE_ofBytesLE {bs : Bytes} (h : bs.length = 8) : (ofBytesLE bs).toBytesLE = bs := by
  have hlt : Bytes.toNatLE bs < 2 ^ 64 := by
    have := Bytes.toNatLE_lt bs
    rw [h] at this
    exact this
  rw [ofBytesLE, toBytesLE, UInt64.toNat_ofNat', Nat.mod_eq_of_lt hlt, ← h, Bytes.ofNatLE_toNatLE]

def isNegative (x : Binary64) : Bool := decide (Nat.pow 2 63 ≤ x.bits.toNat)

/-- The bits without the sign, which order the numbers of one sign by their size. -/
def magnitude (x : Binary64) : Nat := x.bits.toNat % Nat.pow 2 63

/-- The magnitude of the infinities; whatever is beyond it is a NaN. -/
def infiniteMagnitude : Nat := 0x7ff * Nat.pow 2 52

def isNaN (x : Binary64) : Bool := decide (infiniteMagnitude < x.magnitude)

/-- A key that orders the numbers by value. Both zeros have the key 0. -/
def key (x : Binary64) : Int := if x.isNegative then -(x.magnitude : Int) else x.magnitude

/-- The value of `x` is greater than that of `y`. A NaN is neither greater nor less. -/
def exceeds (x y : Binary64) : Bool := !x.isNaN && !y.isNaN && decide (y.key < x.key)

/-- The significand `m` and exponent `q` of a finite number, whose size is `m * 2 ^ q`. -/
def significand (x : Binary64) : Nat × Int :=
  let exponent : Nat := x.magnitude / Nat.pow 2 52
  let fraction : Nat := x.magnitude % Nat.pow 2 52
  if exponent = 0 then (fraction, -1074) else (Nat.pow 2 52 + fraction, (exponent : Int) - 1075)

/-- The number below `x` is only half as far from it as the number above. -/
def isNarrowBelow (x : Binary64) : Bool :=
  decide (x.magnitude % Nat.pow 2 52 = 0 ∧ Nat.pow 2 52 < x.magnitude)

end Binary64
end Shapefile
