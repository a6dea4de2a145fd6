import Shapefile.Proofs.HeaderBytes
import Shapefile.Proofs.RoundTrip

/-! # Headers and byte strings

A header that fits its fields is read back from its bytes, and a header that was read has the bytes
that it was read from, the reserved words excepted (`Header.encode_inverts`). A byte string is
refused for the first of four defects that it has: it is too short, or the file code, the type or
the length is wrong (`Header.first_defect`). -/

namespace Shapefile

/-! ## Numbers from their bytes -/

namespace Bytes

variable {width : Nat} {bs : Bytes}

theorem ofIntBE_of_length (h : bs.length = width) : ofIntBE width (toIntBE bs) = bs :=
  h ▸ ofIntBE_toIntBE bs

theorem ofIntLE_of_length (h : bs.length = width) : ofIntLE width (toIntLE bs) = bs :=
  h ▸ ofIntLE_toIntLE bs

/-- A number is told from its bytes. -/
theorem toIntBE_eq_iff {n : Int} (hn : IsInt32 n) (h : bs.length = 4) :
    toIntBE bs = n ↔ bs = ofIntBE 4 n := by
  constructor
  · rintro rfl
    exact (ofIntBE_of_length h).symm
  · rintro rfl
    exact toIntBE_ofIntBE_four hn

/-- Two segments in a row that follow other bytes. -/
theorem append_segment (front : Bytes) (start m n : Nat) (bytes : Bytes) :
    front ++ bytes.segment start m ++ bytes.segment (start + m) n =
      front ++ bytes.segment start (m + n) := by
  rw [List.append_assoc, segment_append]

end Bytes

theorem Meter.encodeHalves_halvesAt {start : Nat} {bytes : Bytes}
    (h : start + 4 ≤ bytes.length) :
    encodeHalves (halvesAt start bytes) = bytes.segment start 4 := by
  have hlow := Bytes.length_segment (by omega : start + 2 ≤ bytes.length)
  have hhigh := Bytes.length_segment (by omega : start + 2 + 2 ≤ bytes.length)
  rw [halvesAt, encodeHalves_joinHalves hlow hhigh, Bytes.segment_append]

theorem Meter.halvesAt_isInt32 {start : Nat} {bytes : Bytes} (h : start + 4 ≤ bytes.length) :
    Bytes.IsInt32 (halvesAt start bytes) :=
  joinHalves_isInt32 _ (Bytes.length_segment (by omega))

/-- The codes of the format. -/
def ShapeType.codes : List Int := all.map code

theorem ShapeType.isValidCode_iff (code : Int) : isValidCode code = true ↔ code ∈ codes := by
  simp [isValidCode, ofCode?, codes]

namespace Header

/-! ## Round trips -/

/-- A header that is accepted, and of which every field has the width that the format gives it. -/
structure IsWellFormed (h : Header) : Prop where
  fileCode : h.fileCode = magic
  typeCode : h.typeCode ∈ ShapeType.codes
  even : h.fileLength % 2 = 0
  least : 100 ≤ h.fileLength
  most : h.fileLength ≤ 0xfffffffe
  version : Bytes.IsInt32 h.version

theorem IsWellFormed.storable {h : Header} (H : h.IsWellFormed) : h.IsStorable := by
  have hcode : Bytes.IsInt32 magic := by decide
  have htype := (ShapeType.isValidCode_iff h.typeCode).mpr H.typeCode
  have hleast := H.least
  have hmost := H.most
  exact ⟨H.fileCode ▸ hcode, H.even, by omega, H.version, ShapeType.isInt32_of_isValidCode htype⟩

theorem IsWellFormed.valid {h : Header} (H : h.IsWellFormed) : h.defect? = none :=
  defect?_eq_none_iff.mpr
    ⟨H.fileCode, (ShapeType.isValidCode_iff h.typeCode).mpr H.typeCode, H.least⟩

theorem encodeRange_rangeAt {start : Nat} {bytes : Bytes} (h : start + 16 ≤ bytes.length) :
    encodeRange (rangeAt start bytes) = bytes.segment start 16 := by
  have hlow := Bytes.length_segment (by omega : start + 8 ≤ bytes.length)
  have hhigh := Bytes.length_segment (by omega : start + 8 + 8 ≤ bytes.length)
  rw [encodeRange, rangeAt, Binary64.toBytesLE_ofBytesLE hlow, Binary64.toBytesLE_ofBytesLE hhigh,
    Bytes.segment_append]

/-- What stands in a hundred bytes is stored as they are, but for the reserved ones. -/
theorem encode_ofBytes {bytes : Bytes} (h : 100 ≤ bytes.length) (reserved : Bytes) :
    (ofBytes bytes).encode reserved = bytes.segment 0 4 ++ reserved ++ bytes.segment 24 76 := by
  have hcode : (bytes.segment 0 4).length = 4 := Bytes.length_segment (by omega)
  have hversion : (bytes.segment 28 4).length = 4 := Bytes.length_segment (by omega)
  have htype : (bytes.segment 32 4).length = 4 := Bytes.length_segment (by omega)
  have hlength : Meter.encodeHalves (Meter.halvesAt 24 bytes * 2 / 2) = bytes.segment 24 4 := by
    rw [Int.mul_ediv_cancel _ (by decide), Meter.encodeHalves_halvesAt (by omega)]
  simp only [encode, ofBytes, hlength, Bytes.ofIntBE_of_length hcode,
    Bytes.ofIntLE_of_length hversion, Bytes.ofIntLE_of_length htype]
  rw [encodeRange_rangeAt (by omega), encodeRange_rangeAt (by omega),
    encodeRange_rangeAt (by omega), encodeRange_rangeAt (by omega)]
  -- The fields behind the reserved bytes stand side by side.
  rw [Bytes.append_segment _ 24 4, Bytes.append_segment _ 24 8, Bytes.append_segment _ 24 12,
    Bytes.append_segment _ 24 28, Bytes.append_segment _ 24 44, Bytes.append_segment _ 24 60]

theorem ofBytes_wellFormed {bytes : Bytes} (h : 100 ≤ bytes.length)
    (hvalid : (ofBytes bytes).defect? = none) : (ofBytes bytes).IsWellFormed := by
  obtain ⟨hcode, htype, hleast⟩ := defect?_eq_none_iff.mp hvalid
  have hwords : Bytes.IsInt32 (Meter.halvesAt 24 bytes) := Meter.halvesAt_isInt32 (by omega)
  refine ⟨hcode, (ShapeType.isValidCode_iff _).mp htype, Int.mul_emod_left _ 2, hleast, ?_, ?_⟩
  · simp only [ofBytes]
    omega
  · exact Bytes.toIntLE_isInt32 (Bytes.length_segment (by omega))

/-- The reserved bytes as five words that are zero. -/
def zeroWords : Bytes := List.replicate 20 0

/-- Reading undoes storing, whatever follows, and storing undoes reading but for the reserved
bytes. -/
theorem encode_inverts :
    (∀ (h : Header) (rest : Bytes), h.IsWellFormed →
      Header.read Plain.read ⟨h.encode zeroWords ++ rest⟩ = .ok h ⟨rest⟩) ∧
    ∀ (bytes : Bytes) (h : Header) (p : Plain), Header.read Plain.read ⟨bytes⟩ = .ok h p →
      h.IsWellFormed ∧
        h.encode zeroWords = bytes.segment 0 4 ++ zeroWords ++ bytes.segment 24 76 := by
  constructor
  · intro h rest H
    exact read_append rest H.storable H.valid List.length_replicate
  · intro bytes h p hread
    obtain ⟨hlength, -, rfl⟩ := read_cuts hread
    refine ⟨ofBytes_wellFormed hlength ?_, encode_ofBytes hlength zeroWords⟩
    rw [read_eq, Meter.lack_eq_none_iff.mpr hlength] at hread
    cases hdefect : (ofBytes bytes).defect? with
    | none => rfl
    | some f =>
      rw [hdefect] at hread
      cases hread

/-- A header with reserved bytes that are not zero, and bytes that follow it. -/
theorem encode_inverts_sample :
    Header.read Plain.read ⟨sampleHeader.encode zeroWords ++ [1, 2]⟩ = .ok sampleHeader ⟨[1, 2]⟩ ∧
      sampleHeader.encode zeroWords =
        (sampleHeader.encode (List.replicate 20 7) ++ [9]).segment 0 4 ++ zeroWords ++
          (sampleHeader.encode (List.replicate 20 7) ++ [9]).segment 24 76 := by
  have hwell : sampleHeader.IsWellFormed := by constructor <;> decide
  have hsevens : (List.replicate 20 7 : Bytes).length = 20 := List.length_replicate
  have hread := read_append [9] sampleHeader_storable (by decide) hsevens
  exact ⟨encode_inverts.1 sampleHeader [1, 2] hwell, (encode_inverts.2 _ _ _ hread).2⟩

/-! ## Defects -/

/-- Fewer than a hundred bytes are all taken, and fail in the first field that is not whole. Of any
others the first hundred are taken, and three fields decide which defect is told, or that there is
none. -/
theorem first_defect (bytes : Bytes) :
    let fileCode := Bytes.toIntBE (bytes.segment 0 4)
    let typeCode := Bytes.toIntLE (bytes.segment 32 4)
    let length := 2 * Meter.halvesAt 24 bytes
    if bytes.length < 100 then
      ∃ width got, got < width ∧ Meter.lack widths bytes.length = some (width, got) ∧
        Header.read Plain.read ⟨bytes⟩ = .error (.wrongCount width got) ⟨[]⟩
    else
      Header.read Plain.read ⟨bytes⟩ =
        if bytes.segment 0 4 ≠ [0x00, 0x00, 0x27, 0x0a] then
          .error (.wrongMagic fileCode) ⟨bytes.drop 100⟩
        else if typeCode ∉ ShapeType.codes then
          .error (.invalidFileType typeCode) ⟨bytes.drop 100⟩
        else if length < 100 then
          .error (.lengthBelowHeader length 100) ⟨bytes.drop 100⟩
        else .ok (ofBytes bytes) ⟨bytes.drop 100⟩ := by
  intro fileCode typeCode length
  split
  · rename_i hshort
    obtain ⟨width, got, hlack⟩ := Meter.exists_lack widths hshort
    refine ⟨width, got, Meter.lt_of_lack hlack, hlack, ?_⟩
    rw [read_eq, hlack]
  · rename_i hlong
    have hcode : fileCode = magic ↔ bytes.segment 0 4 = [0x00, 0x00, 0x27, 0x0a] :=
      Bytes.toIntBE_eq_iff (by decide) (Bytes.length_segment (by omega))
    have hlength : (ofBytes bytes).fileLength = length := Int.mul_comm _ 2
    have hdefect : (ofBytes bytes).defect? =
        if fileCode ≠ magic then some (.wrongMagic fileCode)
        else if !ShapeType.isValidCode typeCode then some (.invalidFileType typeCode)
        else if length < 100 then some (.lengthBelowHeader length 100)
        else none := by
      rw [defect?, hlength]
      rfl
    rw [read_eq, Meter.lack_eq_none_iff.mpr (Nat.le_of_not_lt hlong), hdefect]
    simp only [ne_eq, hcode, Bool.not_eq_true', ← Bool.not_eq_true, ShapeType.isValidCode_iff]
    by_cases hmagic : bytes.segment 0 4 = [0x00, 0x00, 0x27, 0x0a]
    · by_cases htype : typeCode ∈ ShapeType.codes
      · by_cases hleast : length < 100 <;> simp only [hmagic, htype, hleast] <;> rfl
      · simp only [hmagic, htype]
        rfl
    · simp only [hmagic]
      rfl

end Header
end Shapefile
