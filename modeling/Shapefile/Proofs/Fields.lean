import Shapefile.Proofs.Simulation

/-! # Fields of a plain byte string

A field is read back from the bytes that were written for it, whatever follows them; every long
enough byte string begins with the bytes of a field; and one that is too short is taken to its end.
So the three lemmas of each field settle what reading it does to any byte string. Of any other feed
a read comes to one of three ends (`Meter.read_ends`). -/

namespace Shapefile

/-! ## Numbers -/

namespace Bytes

/-- Four bytes hold the number in two's complement. -/
abbrev IsInt32 (n : Int) : Prop := -0x80000000 ≤ n ∧ n < 0x80000000

theorem toIntLE_bounds (bs : Bytes) :
    -(Nat.pow 256 bs.length : Int) ≤ toIntLE bs * 2 ∧
      toIntLE bs * 2 < (Nat.pow 256 bs.length : Int) := by
  have hpos : 0 < Nat.pow 256 bs.length := Nat.pow_pos (by decide)
  have := Int.le_bmod (x := toNatLE bs) hpos
  have := Int.bmod_lt (x := toNatLE bs) hpos
  simp only [toIntLE]
  omega

theorem toIntLE_isInt32 {bs : Bytes} (h : bs.length = 4) : IsInt32 (toIntLE bs) := by
  have hb := toIntLE_bounds bs
  have hpow : Nat.pow 256 4 = 0x100000000 := rfl
  rw [h, hpow] at hb
  omega

theorem toIntBE_isInt32 {bs : Bytes} (h : bs.length = 4) : IsInt32 (toIntBE bs) :=
  toIntLE_isInt32 (List.length_reverse.trans h)

theorem toIntBE_isInt16 {bs : Bytes} (h : bs.length = 2) :
    -0x8000 ≤ toIntBE bs ∧ toIntBE bs < 0x8000 := by
  have hb := toIntLE_bounds bs.reverse
  have hpow : Nat.pow 256 2 = 0x10000 := rfl
  rw [List.length_reverse, h, hpow] at hb
  rw [toIntBE]
  omega

theorem toIntLE_ofIntLE_four {n : Int} (h : IsInt32 n) : toIntLE (ofIntLE 4 n) = n := by
  have hpow : Nat.pow 256 4 = 0x100000000 := rfl
  rw [toIntLE_ofIntLE, hpow]
  exact Int.bmod_eq_of_le_mul_two (by omega) (by omega)

theorem toIntBE_ofIntBE_four {n : Int} (h : IsInt32 n) : toIntBE (ofIntBE 4 n) = n := by
  rw [toIntBE, ofIntBE, List.reverse_reverse, toIntLE_ofIntLE_four h]

theorem ofIntBE_congr {width : Nat} {m n : Int}
    (h : m % (Nat.pow 256 width : Int) = n % (Nat.pow 256 width : Int)) :
    ofIntBE width m = ofIntBE width n := by
  rw [ofIntBE, ofIntBE, ofIntLE, ofIntLE, h]

theorem cut_length_append (a b : Bytes) : cut a.length (a ++ b) = (a, b) := by
  have ha : ¬ ((a.length : Int) < 0) := by omega
  simp [cut, ha]

theorem cut_short {n : Nat} {bs : Bytes} (h : bs.length < n) : cut n bs = (bs, []) := by
  have hn : ¬ ((n : Int) < 0) := by omega
  have hle : bs.length ≤ n := Nat.le_of_lt h
  rw [cut, if_neg hn, Int.toNat_natCast, List.take_of_length_le hle, List.drop_of_length_le hle]

theorem exists_append {n : Nat} {bs : Bytes} (h : n ≤ bs.length) :
    ∃ a b : Bytes, a.length = n ∧ bs = a ++ b :=
  ⟨bs.take n, bs.drop n, List.length_take_of_le h, (List.take_append_drop n bs).symm⟩

end Bytes

namespace Meter

theorem joinHalves_encode {n : Int} (h : Bytes.IsInt32 n) :
    joinHalves (Bytes.toIntBE (Bytes.ofIntBE 2 n))
      (Bytes.toIntBE (Bytes.ofIntBE 2 (n / 0x10000))) = n := by
  have hpow : Nat.pow 256 2 = 0x10000 := rfl
  have hlow : n.bmod 0x10000 % 0x10000 = n % 0x10000 := Int.bmod_emod
  have hhigh : (n / 0x10000).bmod 0x10000 = n / 0x10000 :=
    Int.bmod_eq_of_le_mul_two (by omega) (by omega)
  rw [Bytes.toIntBE_ofIntBE, Bytes.toIntBE_ofIntBE, hpow, joinHalves, hlow, hhigh]
  omega

theorem joinHalves_isInt32 (low : Int) {high : Bytes} (h : high.length = 2) :
    Bytes.IsInt32 (joinHalves low (Bytes.toIntBE high)) := by
  have hb := Bytes.toIntBE_isInt16 h
  simp only [joinHalves]
  omega

theorem encodeHalves_joinHalves {low high : Bytes} (hl : low.length = 2) (hh : high.length = 2) :
    encodeHalves (joinHalves (Bytes.toIntBE low) (Bytes.toIntBE high)) = low ++ high := by
  have hpow : Nat.pow 256 2 = 0x10000 := rfl
  have hlow : Bytes.ofIntBE 2 (joinHalves (Bytes.toIntBE low) (Bytes.toIntBE high)) = low := by
    have hmod : joinHalves (Bytes.toIntBE low) (Bytes.toIntBE high) % (Nat.pow 256 2 : Int) =
        Bytes.toIntBE low % (Nat.pow 256 2 : Int) := by
      rw [hpow, joinHalves]
      omega
    rw [Bytes.ofIntBE_congr hmod, ← hl, Bytes.ofIntBE_toIntBE]
  have hhigh : joinHalves (Bytes.toIntBE low) (Bytes.toIntBE high) / 0x10000 =
      Bytes.toIntBE high := by
    simp only [joinHalves]
    omega
  rw [encodeHalves, hlow, hhigh, ← hh, Bytes.ofIntBE_toIntBE]

@[simp] theorem length_encodeHalves (n : Int) : (encodeHalves n).length = 4 := by
  simp [encodeHalves]

@[simp] theorem count_zero (m : Meter) : m.count 0 = m := by
  cases m with | mk c r => cases r <;> simp [count]

@[simp] theorem count_count (m : Meter) (a b : Nat) : (m.count a).count b = m.count (a + b) := by
  cases m with
  | mk c r =>
    cases r with
    | none => simp [count, Nat.add_assoc]
    | some left =>
      simp only [count, Option.map_some, Nat.add_assoc]
      congr 2
      omega

@[simp] theorem count_consumed (m : Meter) (n : Nat) : (m.count n).consumed = m.consumed + n := rfl

/-! ## Reading -/

/-- What comes of a read, by what it was answered with: exactly the bytes that were asked for, which
are counted, or a fault, and nothing is counted. -/
inductive ReadEnds {ε : Type} (feed : Feed ε) (n : Int) (m : Meter) (e : ε) :
    EStateM.Result Fault (Meter × ε) Bytes → Prop where
  | exact {data : Bytes} {e' : ε} (answer : feed n e = .ok data e') (length : data.length = n) :
    ReadEnds feed n m e (.ok data (m.count data.length, e'))
  | inexact {data : Bytes} {e' : ε} (answer : feed n e = .ok data e') (length : data.length ≠ n) :
    ReadEnds feed n m e (.error (.wrongCount n data.length) (m, e'))
  | refused {f : Fault} {e' : ε} (answer : feed n e = .error f e') :
    ReadEnds feed n m e (.error (if f.isSystem then .readFailed n f else f) (m, e'))

section
variable {ε : Type} {feed : Feed ε} {n : Int}

theorem read_ends (feed : Feed ε) (n : Int) (s : Meter × ε) :
    ReadEnds feed n s.1 s.2 (read feed n s) := by
  simp only [read]
  cases hanswer : feed n s.2 with
  | ok data e' =>
    by_cases hlength : (data.length : Int) = n
    · simp only [if_pos hlength]
      exact .exact hanswer hlength
    · simp only [if_neg hlength]
      exact .inexact hanswer hlength
  | error f e' => exact .refused hanswer

theorem length_of_read {s t : Meter × ε} {data : Bytes} (h : read feed n s = .ok data t) :
    data.length = n := by
  have hends := read_ends feed n s
  rw [h] at hends
  cases hends with
  | exact _ length => exact length

end

variable (m : Meter) (rest : Bytes)

theorem read_append {n : Nat} {a : Bytes} (h : a.length = n) :
    read Plain.read n (m, ⟨a ++ rest⟩) = .ok a (m.count n, ⟨rest⟩) := by
  subst h
  simp [read, Plain.read, Bytes.cut_length_append]

theorem read_short {n : Nat} {bs : Bytes} (h : bs.length < n) :
    read Plain.read n (m, ⟨bs⟩) = .error (.wrongCount n bs.length) (m, ⟨[]⟩) := by
  have hn : ¬ ((bs.length : Int) = n) := by omega
  simp [read, Plain.read, Bytes.cut_short h, hn]

theorem readInt16BE_append {a : Bytes} (h : a.length = 2) :
    readInt16BE Plain.read (m, ⟨a ++ rest⟩) = .ok (Bytes.toIntBE a) (m.count 2, ⟨rest⟩) :=
  bind_of_ok (read_append m rest h)

theorem readInt16BE_short {bs : Bytes} (h : bs.length < 2) :
    readInt16BE Plain.read (m, ⟨bs⟩) = .error (.wrongCount 2 bs.length) (m, ⟨[]⟩) :=
  bind_of_error (read_short m h)

theorem readInt32BE_append {n : Int} (h : Bytes.IsInt32 n) :
    readInt32BE Plain.read (m, ⟨Bytes.ofIntBE 4 n ++ rest⟩) = .ok n (m.count 4, ⟨rest⟩) := by
  refine (bind_of_ok (read_append m rest (Bytes.length_ofIntBE 4 n))).trans ?_
  rw [Bytes.toIntBE_ofIntBE_four h]
  rfl

theorem readInt32BE_short {bs : Bytes} (h : bs.length < 4) :
    readInt32BE Plain.read (m, ⟨bs⟩) = .error (.wrongCount 4 bs.length) (m, ⟨[]⟩) :=
  bind_of_error (read_short m h)

theorem readInt32LE_append {n : Int} (h : Bytes.IsInt32 n) :
    readInt32LE Plain.read (m, ⟨Bytes.ofIntLE 4 n ++ rest⟩) = .ok n (m.count 4, ⟨rest⟩) := by
  refine (bind_of_ok (read_append m rest (Bytes.length_ofIntLE 4 n))).trans ?_
  rw [Bytes.toIntLE_ofIntLE_four h]
  rfl

theorem readInt32LE_short {bs : Bytes} (h : bs.length < 4) :
    readInt32LE Plain.read (m, ⟨bs⟩) = .error (.wrongCount 4 bs.length) (m, ⟨[]⟩) :=
  bind_of_error (read_short m h)

theorem readFloat64LE_append (x : Binary64) :
    readFloat64LE Plain.read (m, ⟨x.toBytesLE ++ rest⟩) = .ok x (m.count 8, ⟨rest⟩) := by
  refine (bind_of_ok (read_append m rest x.length_toBytesLE)).trans ?_
  rw [Binary64.ofBytesLE_toBytesLE]
  rfl

theorem readFloat64LE_short {bs : Bytes} (h : bs.length < 8) :
    readFloat64LE Plain.read (m, ⟨bs⟩) = .error (.wrongCount 8 bs.length) (m, ⟨[]⟩) :=
  bind_of_error (read_short m h)

theorem readHalves_append {n : Int} (h : Bytes.IsInt32 n) :
    readHalves Plain.read (m, ⟨encodeHalves n ++ rest⟩) = .ok n (m.count 4, ⟨rest⟩) := by
  rw [encodeHalves, List.append_assoc]
  refine (bind_of_ok (readInt16BE_append m _ (Bytes.length_ofIntBE 2 n))).trans ?_
  refine (bind_of_ok (readInt16BE_append _ rest (Bytes.length_ofIntBE 2 _))).trans ?_
  rw [joinHalves_encode h, count_count]
  rfl

theorem readHalves_shortLow {bs : Bytes} (h : bs.length < 2) :
    readHalves Plain.read (m, ⟨bs⟩) = .error (.wrongCount 2 bs.length) (m, ⟨[]⟩) :=
  bind_of_error (readInt16BE_short m h)

theorem readHalves_shortHigh {low bs : Bytes} (hl : low.length = 2) (h : bs.length < 2) :
    readHalves Plain.read (m, ⟨low ++ bs⟩) =
      .error (.wrongCount 2 bs.length) (m.count 2, ⟨[]⟩) :=
  (bind_of_ok (readInt16BE_append m bs hl)).trans (bind_of_error (readInt16BE_short _ h))

end Meter

/-! ## What a byte string begins with -/

namespace Bytes
variable {bs : Bytes}

theorem exists_int32BE (h : 4 ≤ bs.length) :
    ∃ n rest, IsInt32 n ∧ bs = ofIntBE 4 n ++ rest := by
  obtain ⟨a, rest, ha, rfl⟩ := exists_append h
  exact ⟨toIntBE a, rest, toIntBE_isInt32 ha, by rw [← ha, ofIntBE_toIntBE]⟩

theorem exists_int32LE (h : 4 ≤ bs.length) :
    ∃ n rest, IsInt32 n ∧ bs = ofIntLE 4 n ++ rest := by
  obtain ⟨a, rest, ha, rfl⟩ := exists_append h
  exact ⟨toIntLE a, rest, toIntLE_isInt32 ha, by rw [← ha, ofIntLE_toIntLE]⟩

theorem exists_float64LE (h : 8 ≤ bs.length) : ∃ (x : Binary64) (rest : Bytes),
    bs = x.toBytesLE ++ rest := by
  obtain ⟨a, rest, ha, rfl⟩ := exists_append h
  exact ⟨.ofBytesLE a, rest, by rw [Binary64.toBytesLE_ofBytesLE ha]⟩

theorem exists_halves (h : 4 ≤ bs.length) :
    ∃ n rest, IsInt32 n ∧ bs = Meter.encodeHalves n ++ rest := by
  obtain ⟨low, rest, hl, rfl⟩ := exists_append (n := 2) (by omega : 2 ≤ bs.length)
  have hrest : 2 ≤ rest.length := by simp only [List.length_append, hl] at h; omega
  obtain ⟨high, rest, hh, rfl⟩ := exists_append hrest
  refine ⟨Meter.joinHalves (toIntBE low) (toIntBE high), rest,
    Meter.joinHalves_isInt32 _ hh, ?_⟩
  rw [Meter.encodeHalves_joinHalves hl hh, List.append_assoc]

end Bytes
end Shapefile
