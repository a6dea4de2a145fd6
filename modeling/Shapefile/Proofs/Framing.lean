import Shapefile.Proofs.Fields
import Shapefile.Record.Stored

/-! # How a byte string is divided into records

A reading goes by the type of each record and checks the declared length against its budget only.
So the byte strings it accepts are those of `Framed` records, and a byte string that goes on with
something else is a `Rejection` for a single reason. Reading one record agrees with both
(`Record.read_append`, `Record.read_rejection`), and there is no third case
(`framed_or_rejection`). -/

namespace Shapefile

/-! ## Record headers -/

namespace RecordHeader

def encode (h : RecordHeader) : Bytes :=
  Bytes.ofIntBE 4 h.number ++ Meter.encodeHalves (h.contentLength / 2)

/-- The header can be stored: its length is a number of words, and both fields have 32 bits. -/
structure IsStorable (h : RecordHeader) : Prop where
  number : Bytes.IsInt32 h.number
  even : h.contentLength % 2 = 0
  words : Bytes.IsInt32 (h.contentLength / 2)

/-- The declared length fits into `left` bytes. -/
def FitsIn (h : RecordHeader) (left : Int) : Prop := 0 ≤ h.contentLength ∧ h.contentLength ≤ left

@[simp] theorem length_encode (h : RecordHeader) : h.encode.length = 8 := by simp [encode]

theorem overruns_eq_false_iff {h : RecordHeader} {left : Int} :
    h.overruns left = false ↔ h.FitsIn left := by
  simp only [overruns, FitsIn, decide_eq_false_iff_not]
  omega

theorem overruns_eq_true_iff {h : RecordHeader} {left : Int} :
    h.overruns left = true ↔ ¬ h.FitsIn left := by
  rw [← overruns_eq_false_iff, Bool.not_eq_false]

end RecordHeader

/-! ## Records one after the other -/

namespace StoredRecord

def header (r : StoredRecord) : RecordHeader := ⟨r.number, r.words * 2⟩

def shape (r : StoredRecord) (place : Nat) : Shape := r.content.shape (some place) (some r.number)

/-- The shapes of records in a row, of which the first has the object id `first`. -/
def shapes (first : Nat) (rs : List StoredRecord) : List Shape :=
  rs.mapIdx fun i r => r.shape (first + i)

/-- What is logged about a record whose declared length is not that of its content. -/
def mismatch? (r : StoredRecord) : Option Entry :=
  if (r.content.size : Int) = r.header.contentLength then none
  else some (.lengthMismatch r.number r.header.contentLength r.content.size)

def encodeAll (rs : List StoredRecord) : Bytes := rs.flatMap encode

def sizeAll (rs : List StoredRecord) : Nat := rs.foldr (fun r n => r.size + n) 0

/-- Records that a reading of `left` bytes gets through: after the header of each, what is left of
the budget has room for the declared length. -/
structure Framed (left : Int) (rs : List StoredRecord) : Prop where
  storable : ∀ r ∈ rs, r.header.IsStorable
  fits : ∀ i (h : i < rs.length), rs[i].header.FitsIn (left - sizeAll (rs.take i) - 8)

@[simp] theorem header_number (r : StoredRecord) : r.header.number = r.number := rfl

theorem encode_eq (r : StoredRecord) : r.encode = r.header.encode ++ r.content.encode := by
  have : r.words * 2 / 2 = r.words := by omega
  simp only [encode, RecordHeader.encode, header, this]

theorem size_pos (r : StoredRecord) : 12 ≤ r.size := by
  cases h : r.content <;> simp [size, Content.size, h]

@[simp] theorem encodeAll_nil : encodeAll [] = [] := rfl

@[simp] theorem encodeAll_cons (r : StoredRecord) (rs : List StoredRecord) :
    encodeAll (r :: rs) = r.encode ++ encodeAll rs := List.flatMap_cons

@[simp] theorem encodeAll_append (rs rs' : List StoredRecord) :
    encodeAll (rs ++ rs') = encodeAll rs ++ encodeAll rs' := List.flatMap_append

@[simp] theorem sizeAll_nil : sizeAll [] = 0 := rfl

@[simp] theorem sizeAll_cons (r : StoredRecord) (rs : List StoredRecord) :
    sizeAll (r :: rs) = r.size + sizeAll rs := rfl

@[simp] theorem sizeAll_append (rs rs' : List StoredRecord) :
    sizeAll (rs ++ rs') = sizeAll rs + sizeAll rs' := by
  induction rs with
  | nil => simp
  | cons r rs ih => simp [ih, Nat.add_assoc]

@[simp] theorem shapes_nil (first : Nat) : shapes first [] = [] := rfl

@[simp] theorem shapes_cons (first : Nat) (r : StoredRecord) (rs : List StoredRecord) :
    shapes first (r :: rs) = r.shape first :: shapes (first + 1) rs := by
  simp only [shapes, List.mapIdx_cons, Nat.add_zero, Nat.add_assoc, Nat.add_comm 1]

@[simp] theorem shapes_append (first : Nat) (rs rs' : List StoredRecord) :
    shapes first (rs ++ rs') = shapes first rs ++ shapes (first + rs.length) rs' := by
  induction rs generalizing first with
  | nil => simp
  | cons r rs ih => simp [ih, Nat.add_assoc, Nat.add_comm 1]

namespace Framed

theorem nil (left : Int) : Framed left [] := ⟨by simp, by simp⟩

theorem cons_iff {left : Int} {r : StoredRecord} {rs : List StoredRecord} :
    Framed left (r :: rs) ↔
      r.header.IsStorable ∧ r.header.FitsIn (left - 8) ∧ Framed (left - r.size) rs := by
  constructor
  · intro H
    refine ⟨H.storable r List.mem_cons_self, ?_, fun r' h => H.storable r' (.tail _ h), ?_⟩
    · simpa using H.fits 0 (Nat.succ_pos _)
    · intro i h
      have := H.fits (i + 1) (Nat.succ_lt_succ h)
      simp only [List.getElem_cons_succ, List.take_succ_cons, sizeAll_cons] at this
      rwa [Int.natCast_add, ← Int.sub_sub] at this
  · rintro ⟨hs, hf, H⟩
    refine ⟨fun r' h => ?_, fun i h => ?_⟩
    · rcases List.mem_cons.mp h with rfl | h
      · exact hs
      · exact H.storable r' h
    · cases i with
      | zero => simpa using hf
      | succ i =>
        have := H.fits i (Nat.lt_of_succ_lt_succ h)
        simp only [List.getElem_cons_succ, List.take_succ_cons, sizeAll_cons]
        rwa [Int.natCast_add, ← Int.sub_sub]

theorem append_iff {left : Int} {rs rs' : List StoredRecord} :
    Framed left (rs ++ rs') ↔ Framed left rs ∧ Framed (left - sizeAll rs) rs' := by
  induction rs generalizing left with
  | nil => simp [nil]
  | cons r rs ih =>
    simp only [List.cons_append, cons_iff, ih, sizeAll_cons, Int.natCast_add, ← Int.sub_sub]
    simp only [and_assoc]

theorem pos_of_cons {left : Int} {r : StoredRecord} {rs : List StoredRecord}
    (H : Framed left (r :: rs)) : 0 < left := by
  have h := (cons_iff.mp H).2.1
  simp only [RecordHeader.FitsIn] at h
  omega

end Framed
end StoredRecord

/-! ## Rejections -/

/-- Why no record is read from `bytes` when `left` bytes of the budget are left: the fault, the
number of bytes that are counted before it, and what stays unread of the bytes. A field that is too
short is taken to its end and not counted. -/
inductive Rejection (left : Int) :
    (bytes : Bytes) → (fault : Fault) → (consumed : Nat) → (unread : Bytes) → Prop where
  | number {bs : Bytes} (short : bs.length < 4) :
    Rejection left bs (.wrongCount 4 bs.length) 0 []
  | lowHalf {number bs : Bytes} (width : number.length = 4) (short : bs.length < 2) :
    Rejection left (number ++ bs) (.wrongCount 2 bs.length) 4 []
  | highHalf {number low bs : Bytes} (width : number.length = 4) (width' : low.length = 2)
      (short : bs.length < 2) :
    Rejection left (number ++ (low ++ bs)) (.wrongCount 2 bs.length) 6 []
  | overrun {h : RecordHeader} {bs : Bytes} (storable : h.IsStorable)
      (misfit : h.contentLength < 0 ∨ left - 8 < h.contentLength) :
    Rejection left (h.encode ++ bs) (.recordOverrun h.number h.contentLength (left - 8)) 8 bs
  | tag {h : RecordHeader} {bs : Bytes} (storable : h.IsStorable) (fits : h.FitsIn (left - 8))
      (short : bs.length < 4) :
    Rejection left (h.encode ++ bs) (.wrongCount 4 bs.length) 8 []
  | invalid {h : RecordHeader} {tag : Int} {bs : Bytes} (storable : h.IsStorable)
      (fits : h.FitsIn (left - 8)) (range : Bytes.IsInt32 tag)
      (unknown : ShapeType.ofCode? tag = none) :
    Rejection left (h.encode ++ (Bytes.ofIntLE 4 tag ++ bs))
      (.invalidRecordType tag (some h.number)) 12 bs
  | undecodable {h : RecordHeader} {t : ShapeType} {bs : Bytes} (storable : h.IsStorable)
      (fits : h.FitsIn (left - 8)) (known : t.isDecodable = false) :
    Rejection left (h.encode ++ (Bytes.ofIntLE 4 t.code ++ bs))
      (.undecodableRecordType t.code t.displayName (some h.number)) 12 bs
  | x {h : RecordHeader} {bs : Bytes} (storable : h.IsStorable) (fits : h.FitsIn (left - 8))
      (short : bs.length < 8) :
    Rejection left (h.encode ++ (Bytes.ofIntLE 4 ShapeType.point.code ++ bs))
      (.wrongCount 8 bs.length) 12 []
  | y {h : RecordHeader} {x : Binary64} {bs : Bytes} (storable : h.IsStorable)
      (fits : h.FitsIn (left - 8)) (short : bs.length < 8) :
    Rejection left (h.encode ++ (Bytes.ofIntLE 4 ShapeType.point.code ++ (x.toBytesLE ++ bs)))
      (.wrongCount 8 bs.length) 20 []

/-! ## Reading one record -/

theorem ShapeType.code_isInt32 (t : ShapeType) : Bytes.IsInt32 t.code := by
  cases t <;> decide

section Reading
variable (m : Meter) (rest : Bytes)

theorem RecordHeader.read_append {h : RecordHeader} (hs : h.IsStorable) :
    RecordHeader.read Plain.read (m, ⟨h.encode ++ rest⟩) = .ok h (m.count 8, ⟨rest⟩) := by
  have heven : h.contentLength / 2 * 2 = h.contentLength := by
    have := hs.even
    omega
  rw [RecordHeader.encode, List.append_assoc]
  refine (bind_of_ok (Meter.readInt32BE_append m _ hs.number)).trans ?_
  refine (bind_of_ok (Meter.readHalves_append _ rest hs.words)).trans ?_
  rw [heven, Meter.count_count]
  rfl

theorem Content.read_append (c : Content) (objectId : Nat) (h : RecordHeader) :
    Record.readContent Plain.read objectId h (m, ⟨c.encode ++ rest⟩) =
      .ok (c.shape (some objectId) (some h.number)) (m.count c.size, ⟨rest⟩) := by
  have htag := c.type.code_isInt32
  rw [Content.encode, List.append_assoc]
  refine (bind_of_ok (Meter.readInt32LE_append m _ htag)).trans ?_
  rw [Shape.read, ShapeType.ofCode?_code]
  cases c with
  | null => rfl
  | point p =>
    rw [Content.body, List.append_assoc]
    refine (bind_of_ok (Meter.readFloat64LE_append _ _ p.x)).trans ?_
    refine (bind_of_ok (Meter.readFloat64LE_append _ rest p.y)).trans ?_
    rw [Meter.count_count, Meter.count_count]
    rfl

variable {m} {left : Int}

theorem Meter.left_count (hm : m.remaining = some left) (n : Nat) :
    (m.count n).left = left - n := by
  simp [Meter.left, Meter.count, hm]

theorem Record.read_append {r : StoredRecord} (hm : m.remaining = some left)
    (hs : r.header.IsStorable) (hf : r.header.FitsIn (left - 8)) (objectId : Nat) :
    Record.read Plain.read objectId (m, ⟨r.encode ++ rest⟩) =
      .ok ⟨r.header, r.shape objectId, r.content.size⟩ (m.count r.size, ⟨rest⟩) := by
  have hleft : r.header.overruns (m.count 8).left = false := by
    rw [Meter.left_count hm, RecordHeader.overruns_eq_false_iff]
    exact hf
  rw [StoredRecord.encode_eq, List.append_assoc, Record.read_eq,
    RecordHeader.read_append m _ hs]
  have hdecoded : m.consumed + (8 + r.content.size) - (m.consumed + 8) = r.content.size := by
    omega
  simp only [hleft, Content.read_append, Meter.count_count, Meter.count_consumed, hdecoded]
  rfl

/-- A record whose header is read and fits fails in its content. -/
theorem Record.read_of_content {h : RecordHeader} {bs : Bytes} {objectId : Nat} {f : Fault}
    {t : Meter × Plain} (hm : m.remaining = some left) (hs : h.IsStorable)
    (hf : h.FitsIn (left - 8))
    (hc : Record.readContent Plain.read objectId h (m.count 8, ⟨bs⟩) = .error f t) :
    Record.read Plain.read objectId (m, ⟨h.encode ++ bs⟩) = .error f t := by
  have hleft : h.overruns (m.count 8).left = false := by
    rw [Meter.left_count hm, RecordHeader.overruns_eq_false_iff]
    exact hf
  rw [Record.read_eq, RecordHeader.read_append m _ hs]
  simp only [hleft, hc]
  rfl

theorem Record.read_rejection {bs : Bytes} {f : Fault} {n : Nat} {unread : Bytes}
    (H : Rejection left bs f n unread) (hm : m.remaining = some left) (objectId : Nat) :
    Record.read Plain.read objectId (m, ⟨bs⟩) = .error f (m.count n, ⟨unread⟩) := by
  cases H with
  | number short =>
    rw [Record.read_eq, RecordHeader.read, bind_of_error (Meter.readInt32BE_short m short)]
    simp
  | @lowHalf number bs width short =>
    have hn : number = Bytes.ofIntBE 4 (Bytes.toIntBE number) := by
      rw [← width, Bytes.ofIntBE_toIntBE]
    rw [Record.read_eq, RecordHeader.read, hn,
      bind_of_ok (Meter.readInt32BE_append m _ (Bytes.toIntBE_isInt32 width)),
      bind_of_error (Meter.readHalves_shortLow _ short)]
  | @highHalf number low bs width width' short =>
    have hn : number = Bytes.ofIntBE 4 (Bytes.toIntBE number) := by
      rw [← width, Bytes.ofIntBE_toIntBE]
    rw [Record.read_eq, RecordHeader.read, hn,
      bind_of_ok (Meter.readInt32BE_append m _ (Bytes.toIntBE_isInt32 width)),
      bind_of_error (Meter.readHalves_shortHigh _ width' short), Meter.count_count]
  | @overrun h bs storable misfit =>
    have hleft : h.overruns (left - (8 : Nat)) = true := by
      rw [RecordHeader.overruns_eq_true_iff]
      simp only [RecordHeader.FitsIn]
      omega
    rw [Record.read_eq, RecordHeader.read_append m _ storable]
    simp only [Meter.left_count hm, hleft]
    rfl
  | tag storable fits short =>
    exact Record.read_of_content hm storable fits
      (bind_of_error (Meter.readInt32LE_short _ short))
  | invalid storable fits range unknown =>
    refine Record.read_of_content hm storable fits
      ((bind_of_ok (Meter.readInt32LE_append _ _ range)).trans ?_)
    rw [Shape.read, unknown, Meter.count_count]
    rfl
  | @undecodable h t bs storable fits known =>
    refine Record.read_of_content hm storable fits
      ((bind_of_ok (Meter.readInt32LE_append _ _ t.code_isInt32)).trans ?_)
    rw [Shape.read, ShapeType.ofCode?_code, Meter.count_count]
    cases t with
    | null | point => cases known
    | _ => rfl
  | x storable fits short =>
    refine Record.read_of_content hm storable fits
      ((bind_of_ok (Meter.readInt32LE_append _ _ (by decide))).trans ?_)
    rw [Shape.read, ShapeType.ofCode?_code, Meter.count_count]
    exact bind_of_error (Meter.readFloat64LE_short _ short)
  | y storable fits short =>
    refine Record.read_of_content hm storable fits
      ((bind_of_ok (Meter.readInt32LE_append _ _ (by decide))).trans ?_)
    rw [Shape.read, ShapeType.ofCode?_code, Meter.count_count]
    refine (bind_of_ok (Meter.readFloat64LE_append _ _ _)).trans ?_
    rw [Meter.count_count]
    exact bind_of_error (Meter.readFloat64LE_short _ short)

end Reading

theorem RecordHeader.exists_encode {bs : Bytes} (h : 8 ≤ bs.length) :
    ∃ (header : RecordHeader) (rest : Bytes), header.IsStorable ∧ bs = header.encode ++ rest := by
  obtain ⟨number, bs, hnumber, rfl⟩ := Bytes.exists_int32BE (by omega : 4 ≤ bs.length)
  have hbs : 4 ≤ bs.length := by simp at h; omega
  obtain ⟨words, rest, hwords, rfl⟩ := Bytes.exists_halves hbs
  have hhalf : words * 2 / 2 = words := by omega
  refine ⟨⟨number, words * 2⟩, rest, ⟨hnumber, by simp, by rwa [hhalf]⟩, ?_⟩
  simp [RecordHeader.encode]

theorem RecordHeader.exists_stored {h : RecordHeader} (hs : h.IsStorable) (c : Content) :
    ∃ r : StoredRecord, r.header = h ∧ r.encode = h.encode ++ c.encode := by
  have hlength : h.contentLength / 2 * 2 = h.contentLength := by
    have := hs.even
    omega
  have hheader : StoredRecord.header ⟨h.number, h.contentLength / 2, c⟩ = h := by
    rw [StoredRecord.header, hlength]
  exact ⟨_, hheader, by rw [StoredRecord.encode_eq, hheader]⟩

/-- A byte string goes on with a record that fits or is rejected. -/
theorem framed_or_rejection (left : Int) (bs : Bytes) :
    (∃ (r : StoredRecord) (rest : Bytes), r.header.IsStorable ∧ r.header.FitsIn (left - 8) ∧
      bs = r.encode ++ rest) ∨
    ∃ f n unread, Rejection left bs f n unread := by
  by_cases h8 : bs.length < 8
  · refine .inr ?_
    by_cases h4 : bs.length < 4
    · exact ⟨_, _, _, .number h4⟩
    obtain ⟨number, bs, hn, rfl⟩ := Bytes.exists_append (n := 4) (by omega : 4 ≤ bs.length)
    rw [List.length_append, hn] at h8
    by_cases h6 : bs.length < 2
    · exact ⟨_, _, _, .lowHalf hn h6⟩
    obtain ⟨low, bs, hl, rfl⟩ := Bytes.exists_append (n := 2) (by omega : 2 ≤ bs.length)
    rw [List.length_append, hl] at h8
    exact ⟨_, _, _, .highHalf hn hl (by omega)⟩
  obtain ⟨header, bs, hs, rfl⟩ := RecordHeader.exists_encode (by omega : 8 ≤ bs.length)
  by_cases hmisfit : header.contentLength < 0 ∨ left - 8 < header.contentLength
  · exact .inr ⟨_, _, _, .overrun hs hmisfit⟩
  have hfits : header.FitsIn (left - 8) := by
    simp only [RecordHeader.FitsIn]
    omega
  by_cases hshort : bs.length < 4
  · exact .inr ⟨_, _, _, .tag hs hfits hshort⟩
  obtain ⟨tag, bs, hrange, rfl⟩ := Bytes.exists_int32LE (by omega : 4 ≤ bs.length)
  cases htag : ShapeType.ofCode? tag with
  | none => exact .inr ⟨_, _, _, .invalid hs hfits hrange htag⟩
  | some t =>
    obtain rfl := ShapeType.ofCode?_eq_some_iff.mp htag
    cases t with
    | null =>
      obtain ⟨r, rfl, hr⟩ := RecordHeader.exists_stored hs .null
      exact .inl ⟨r, bs, hs, hfits, by rw [hr, List.append_assoc]; rfl⟩
    | point =>
      by_cases hx : bs.length < 8
      · exact .inr ⟨_, _, _, .x hs hfits hx⟩
      obtain ⟨x, bs, rfl⟩ := Bytes.exists_float64LE (by omega : 8 ≤ bs.length)
      by_cases hy : bs.length < 8
      · exact .inr ⟨_, _, _, .y hs hfits hy⟩
      obtain ⟨y, bs, rfl⟩ := Bytes.exists_float64LE (by omega : 8 ≤ bs.length)
      obtain ⟨r, rfl, hr⟩ := RecordHeader.exists_stored hs (.point ⟨x, y⟩)
      exact .inl ⟨r, bs, hs, hfits, by
        simp only [hr, Content.encode, Content.body, Content.type, List.append_assoc]⟩
    | _ => exact .inr ⟨_, _, _, .undecodable hs hfits rfl⟩

end Shapefile
