/-! Byte strings, and the numbers that a run of bytes stands for in either byte order. Signed
numbers are in two's complement over the length of the run. -/

namespace Shapefile

/-- A byte string. -/
abbrev Bytes := List UInt8

namespace Bytes

/-- The number whose base 256 digits are the bytes, lowest digit first. -/
def toNatLE : Bytes → Nat
  | [] => 0
  | b :: bs => b.toNat + 256 * toNatLE bs

def toIntLE (bs : Bytes) : Int := Int.bmod (toNatLE bs) (Nat.pow 256 bs.length)

def toIntBE (bs : Bytes) : Int := toIntLE bs.reverse

/-- The `width` lowest base 256 digits of a number, lowest digit first. -/
def ofNatLE : (width : Nat) → Nat → Bytes
  | 0, _ => []
  | width + 1, n => UInt8.ofNat n :: ofNatLE width (n / 256)

def ofIntLE (width : Nat) (n : Int) : Bytes := ofNatLE width (n % (Nat.pow 256 width : Nat)).toNat

def ofIntBE (width : Nat) (n : Int) : Bytes := (ofIntLE width n).reverse

/-- Cuts off the first `n` bytes, or as many as there are. A negative count takes them all. -/
def cut (n : Int) (bs : Bytes) : Bytes × Bytes :=
  if n < 0 then (bs, []) else (bs.take n.toNat, bs.drop n.toNat)

theorem toNatLE_lt (bs : Bytes) : toNatLE bs < Nat.pow 256 bs.length := by
  rw [Nat.pow_eq]
  induction bs with
  | nil => simp [toNatLE]
  | cons b bs ih =>
    have hb : b.toNat < 256 := b.toNat_lt
    simp only [toNatLE, List.length_cons, Nat.pow_succ]
    omega

@[simp] theorem length_ofNatLE (width n : Nat) : (ofNatLE width n).length = width := by
  induction width generalizing n with
  | zero => rfl
  | succ width ih => simp [ofNatLE, ih]

theorem toNatLE_ofNatLE (width n : Nat) : toNatLE (ofNatLE width n) = n % Nat.pow 256 width := by
  rw [Nat.pow_eq]
  induction width generalizing n with
  | zero => simp [ofNatLE, toNatLE, Nat.mod_one]
  | succ width ih =>
    rw [ofNatLE, toNatLE, ih, Nat.pow_succ, Nat.mul_comm (256 ^ width), Nat.mod_mul]
    simp

theorem ofNatLE_toNatLE (bs : Bytes) : ofNatLE bs.length (toNatLE bs) = bs := by
  induction bs with
  | nil => rfl
  | cons b bs ih =>
    have hb : b.toNat < 256 := b.toNat_lt
    have hdiv : (b.toNat + 256 * toNatLE bs) / 256 = toNatLE bs := by omega
    have hmod : UInt8.ofNat (b.toNat + 256 * toNatLE bs) = b := by
      apply UInt8.toNat_inj.mp
      simp only [UInt8.toNat_ofNat']
      omega
    simp [ofNatLE, toNatLE, hdiv, hmod, ih]

@[simp] theorem length_ofIntLE (width : Nat) (n : Int) : (ofIntLE width n).length = width :=
  length_ofNatLE ..

@[simp] theorem length_ofIntBE (width : Nat) (n : Int) : (ofIntBE width n).length = width := by
  simp [ofIntBE]

/-- Reading what was written gives the number again if it fits into the width. -/
theorem toIntLE_ofIntLE (width : Nat) (n : Int) :
    toIntLE (ofIntLE width n) = n.bmod (Nat.pow 256 width) := by
  have hpos : 0 < Nat.pow 256 width := Nat.pow_pos (by decide)
  have hne : (Nat.pow 256 width : Int) ≠ 0 := by omega
  have hlt : (n % (Nat.pow 256 width : Nat)).toNat < Nat.pow 256 width := by
    have := Int.emod_lt_of_pos n (Int.natCast_pos.mpr hpos)
    have := Int.emod_nonneg n hne
    omega
  rw [toIntLE, length_ofIntLE, ofIntLE, toNatLE_ofNatLE, Nat.mod_eq_of_lt hlt,
    Int.toNat_of_nonneg (Int.emod_nonneg n hne), Int.emod_bmod]

theorem toIntBE_ofIntBE (width : Nat) (n : Int) :
    toIntBE (ofIntBE width n) = n.bmod (Nat.pow 256 width) := by
  rw [toIntBE, ofIntBE, List.reverse_reverse, toIntLE_ofIntLE]

theorem ofIntLE_toIntLE (bs : Bytes) : ofIntLE bs.length (toIntLE bs) = bs := by
  have hlt : ((toNatLE bs : Nat) : Int) < (Nat.pow 256 bs.length : Nat) :=
    Int.ofNat_lt.mpr (toNatLE_lt bs)
  rw [ofIntLE, toIntLE, Int.bmod_emod, Int.emod_eq_of_lt (Int.natCast_nonneg _) hlt,
    Int.toNat_natCast, ofNatLE_toNatLE]

theorem ofIntBE_toIntBE (bs : Bytes) : ofIntBE bs.length (toIntBE bs) = bs := by
  rw [ofIntBE, toIntBE, ← List.length_reverse, ofIntLE_toIntLE, List.reverse_reverse]

@[simp] theorem cut_append (n : Int) (bs : Bytes) : (cut n bs).1 ++ (cut n bs).2 = bs := by
  unfold cut
  split <;> simp

theorem drop_length_cut (n : Int) (bs : Bytes) : bs.drop (cut n bs).1.length = (cut n bs).2 :=
  (congrArg (List.drop _) (cut_append n bs).symm).trans List.drop_left

end Bytes
end Shapefile
