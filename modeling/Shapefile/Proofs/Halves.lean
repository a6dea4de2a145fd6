import Shapefile.Proofs.Consistency

/-! # Lengths in two halves

The format stores a length as two big endian halves of two bytes, the low one first. Its four bytes
are those of one big endian number whose halves have changed places (`Bytes.toIntBE_append`). Every
signed number of 32 bits is stored so, and every four bytes are read as one
(`Meter.halves_bijective`). As it is a number of words of two bytes, a length in bytes is even and
has bounds (`Bytes.IsByteLength`). -/

namespace Shapefile

namespace Bytes

/-! ## Numbers from their halves -/

theorem toNatLE_append (as bs : Bytes) :
    toNatLE (as ++ bs) = toNatLE as + Nat.pow 256 as.length * toNatLE bs := by
  rw [Nat.pow_eq]
  induction as with
  | nil => simp [toNatLE]
  | cons a as ih =>
    rw [List.cons_append, toNatLE, toNatLE, ih, List.length_cons, Nat.pow_succ', Nat.mul_add,
      Nat.mul_assoc, Nat.add_assoc]

/-- Of two halves in two's complement, the low one gives up its sign where they are joined. -/
theorem bmod_halves {low high : Nat} (h : low < 0x10000) :
    Int.bmod (low + 0x10000 * high : Nat) 0x100000000 =
      Meter.joinHalves (Int.bmod low 0x10000) (Int.bmod high 0x10000) := by
  have hlow : Int.bmod low 0x10000 % 0x10000 = low := by
    have hmod : Int.bmod low 0x10000 % 0x10000 = low % 0x10000 := Int.bmod_emod
    omega
  -- Both sides differ by a multiple of the modulus, and are too close for any but none.
  have hhigh := Int.bmod_add_bdiv high 0x10000
  have hwhole := Int.bmod_add_bdiv (low + 0x10000 * high : Nat) 0x100000000
  have := Int.le_bmod (x := high) (m := 0x10000) (by decide)
  have := Int.bmod_lt (x := high) (m := 0x10000) (by decide)
  have := Int.le_bmod (x := (low + 0x10000 * high : Nat)) (m := 0x100000000) (by decide)
  have := Int.bmod_lt (x := (low + 0x10000 * high : Nat)) (m := 0x100000000) (by decide)
  rw [Meter.joinHalves, hlow]
  omega

theorem toIntBE_append {low high : Bytes} (hlow : low.length = 2) (hhigh : high.length = 2) :
    toIntBE (high ++ low) = Meter.joinHalves (toIntBE low) (toIntBE high) := by
  have hlow' : low.reverse.length = 2 := List.length_reverse.trans hlow
  have hhigh' : high.reverse.length = 2 := List.length_reverse.trans hhigh
  have hbound : toNatLE low.reverse < 0x10000 := by
    have hlt := toNatLE_lt low.reverse
    rw [hlow'] at hlt
    exact hlt
  rw [toIntBE, toIntBE, toIntBE, List.reverse_append, toIntLE, toIntLE, toIntLE, toNatLE_append,
    List.length_append, hlow', hhigh']
  exact bmod_halves hbound

/-! ## Lengths in bytes -/

/-- The numbers of bytes in as many words of two bytes as four bytes can tell. -/
structure IsByteLength (n : Int) : Prop where
  even : n % 2 = 0
  least : -0x100000000 ≤ n
  most : n ≤ 0xfffffffe

theorem IsInt32.byteLength {words : Int} (h : IsInt32 words) : IsByteLength (words * 2) := by
  obtain ⟨hleast, hmost⟩ := h
  exact ⟨Int.mul_emod_left words 2, by omega, by omega⟩

end Bytes

section
variable {ε : Type} {feed : Feed ε}

theorem RecordHeader.read_byteLength {s t : Meter × ε} {header : RecordHeader}
    (h : RecordHeader.read feed s = .ok header t) : Bytes.IsByteLength header.contentLength := by
  obtain ⟨number, u, -, h⟩ := bind_eq_ok h
  obtain ⟨words, v, hwords, h⟩ := bind_eq_ok h
  cases h
  exact (Meter.readHalves_isInt32 hwords).byteLength

namespace Header

/-- Whether the header is accepted or not. -/
theorem readFields_byteLength {s t : Meter × ε} {header : Header}
    (h : readFields feed s = .ok header t) : Bytes.IsByteLength header.fileLength := by
  have hstorable := readFields_storable h
  have heven := hstorable.even
  have hwords := hstorable.words.byteLength
  rwa [Int.ediv_mul_cancel (Int.dvd_of_emod_eq_zero heven)] at hwords

/-- What an accepted header leaves for the records is not negative, so it has the bounds too. -/
theorem read_byteLength {e e' : ε} {header : Header} (h : Header.read feed e = .ok header e') :
    Bytes.IsByteLength header.fileLength ∧ Bytes.IsByteLength header.contentLength := by
  obtain ⟨-, hstorable, hvalid⟩ := read_accepted h
  have heven := hstorable.even
  have hleast : 100 ≤ header.fileLength := (defect?_eq_none_iff.mp hvalid).2.2
  have hmost : header.fileLength / 2 < 0x80000000 := hstorable.words.2
  have hcontent : header.contentLength = header.fileLength - 100 := rfl
  constructor
  · exact ⟨heven, by omega, by omega⟩
  · exact ⟨by omega, by omega, by omega⟩

end Header
end

/-! ## Reading and storing -/

namespace Meter

open Bytes (IsInt32 IsByteLength)

/-- Four bytes are stored halves, of the big endian number in them once the halves have changed
places. -/
theorem exists_encodeHalves {bytes : Bytes} (h : bytes.length = 4) :
    ∃ v, IsInt32 v ∧ encodeHalves v = bytes ∧
      Bytes.toIntBE (bytes.drop 2 ++ bytes.take 2) = v := by
  obtain ⟨low, high, hlow, rfl⟩ := Bytes.exists_append (n := 2) (by omega : 2 ≤ bytes.length)
  have hhigh : high.length = 2 := by
    rw [List.length_append] at h
    omega
  refine ⟨_, joinHalves_isInt32 (Bytes.toIntBE low) hhigh, encodeHalves_joinHalves hlow hhigh, ?_⟩
  rw [List.drop_left' hlow, List.take_left' hlow, Bytes.toIntBE_append hlow hhigh]

/-- Reading a length and storing it undo each other. Every signed number of 32 bits is read from the
four bytes that it is stored in, and nothing else is taken; any four bytes are those of the number
that is read from them, which is also the big endian number in them once the halves have changed
places. A length in bytes is twice a number of words that was read so, and therefore even: that of a
record, that of a file, accepted or not, and what an accepted header leaves for the records. -/
theorem halves_bijective :
    (∀ v, IsInt32 v → (encodeHalves v).length = 4 ∧ ∀ (m : Meter) (rest : Bytes),
      readHalves Plain.read (m, ⟨encodeHalves v ++ rest⟩) = .ok v (m.count 4, ⟨rest⟩)) ∧
    (∀ bytes : Bytes, bytes.length = 4 → ∃ v, IsInt32 v ∧ encodeHalves v = bytes ∧
      ∀ (m : Meter) (rest : Bytes),
        readHalves Plain.read (m, ⟨bytes ++ rest⟩) = .ok v (m.count 4, ⟨rest⟩) ∧
        readInt32BE Plain.read (m, ⟨bytes.drop 2 ++ bytes.take 2 ++ rest⟩) =
          .ok v (m.count 4, ⟨rest⟩)) ∧
    ∀ {ε : Type} (feed : Feed ε),
      (∀ s t header, RecordHeader.read feed s = .ok header t →
        IsByteLength header.contentLength) ∧
      (∀ s t header, Header.readFields feed s = .ok header t →
        IsByteLength header.fileLength) ∧
      ∀ e e' header, Header.read feed e = .ok header e' →
        IsByteLength header.fileLength ∧ IsByteLength header.contentLength := by
  refine ⟨fun v hv => ⟨length_encodeHalves v, fun m rest => ?_⟩, fun bytes hlength => ?_,
    fun feed => ⟨fun s t header h => ?_, fun s t header h => ?_, fun e e' header h => ?_⟩⟩
  · exact readHalves_append m rest hv
  · obtain ⟨v, hv, hstored, hexchanged⟩ := exists_encodeHalves hlength
    have hlength' : (bytes.drop 2 ++ bytes.take 2).length = 4 := by
      rw [List.length_append, List.length_drop, List.length_take, hlength]
      rfl
    refine ⟨v, hv, hstored, fun m rest => ⟨?_, ?_⟩⟩
    · rw [← hstored]
      exact readHalves_append m rest hv
    · rw [← hexchanged]
      exact bind_of_ok (read_append m rest hlength')
  · exact RecordHeader.read_byteLength h
  · exact Header.readFields_byteLength h
  · exact Header.read_byteLength h

/-- The sign of the low half is given up, and that of the high one is kept. -/
theorem halves_bijective_negative :
    readHalves Plain.read (.start (some 9), ⟨encodeHalves (-98303) ++ [7]⟩) =
        .ok (-98303) (⟨4, some 5⟩, ⟨[7]⟩) ∧
      (∃ v, IsInt32 v ∧ encodeHalves v = [0x80, 0x01, 0xff, 0xfe] ∧
        readInt32BE Plain.read (.start none, ⟨[0xff, 0xfe, 0x80, 0x01]⟩) =
          .ok v (⟨4, none⟩, ⟨[]⟩)) ∧
      IsByteLength (RecordHeader.mk 1 (-196606)).contentLength ∧
      IsByteLength sampleHeader.fileLength ∧ IsByteLength sampleHeader.contentLength := by
  obtain ⟨hread, hstored, hlengths⟩ := halves_bijective
  obtain ⟨v, hv, hbytes, hnumber⟩ := hstored [0x80, 0x01, 0xff, 0xfe] rfl
  obtain ⟨hrecords, hfields, hheaders⟩ := hlengths Plain.read
  have hstorable : (RecordHeader.mk 1 (-196606)).IsStorable :=
    ⟨by decide, by decide, by decide⟩
  have hrecord := RecordHeader.read_append (.start none) [] hstorable
  have hsevens : (List.replicate 20 7 : Bytes).length = 20 := List.length_replicate
  have hheader := Header.readFields_append (.start none) [] sampleHeader_storable hsevens
  have haccepted := Header.read_append [] sampleHeader_storable (by decide) hsevens
  exact ⟨(hread (-98303) (by decide)).2 (.start (some 9)) [7],
    ⟨v, hv, hbytes, (hnumber (.start none) []).2⟩, hrecords _ _ _ hrecord,
    hfields _ _ _ hheader, (hheaders _ _ _ haccepted).2⟩

end Meter
end Shapefile
