import Mathlib.Algebra.Ring.Nat
import Shapefile.Proofs.Advance
import Shapefile.Proofs.Fields

/-! # The bytes of a header

A computation that reads fields makes of a plain byte string what stands at the places of its
fields, or runs short in the first field that is not whole (`Meter.Parses`). So a header is what
stands in its hundred bytes (`Header.ofBytes`), and whether they are accepted is a matter of three
of its fields (`Header.read_eq`). -/

namespace Shapefile

namespace Bytes

/-- The `width` bytes of a byte string from a place on. -/
def segment (start width : Nat) (bytes : Bytes) : Bytes := (bytes.drop start).take width

theorem length_segment {start width : Nat} {bytes : Bytes} (h : start + width ≤ bytes.length) :
    (bytes.segment start width).length = width := by
  rw [segment, List.length_take, List.length_drop]
  omega

theorem segment_append (start m n : Nat) (bytes : Bytes) :
    bytes.segment start m ++ bytes.segment (start + m) n = bytes.segment start (m + n) := by
  rw [segment, segment, segment, List.take_add, List.drop_drop]

end Bytes

/-! ## Fields -/

namespace Meter

/-- Of fields with these widths, the first that is not whole in so many bytes, by its width, and how
many bytes there are of it. -/
def lack : List Nat → Nat → Option (Nat × Nat)
  | [], _ => none
  | width :: widths, n => if n < width then some (width, n) else lack widths (n - width)

theorem lack_append (widths widths' : List Nat) (n : Nat) :
    lack (widths ++ widths') n = (lack widths n).or (lack widths' (n - widths.sum)) := by
  induction widths generalizing n with
  | nil => rfl
  | cons width widths ih =>
    rw [List.cons_append, lack, lack, List.sum_cons, ih, Nat.sub_sub]
    split <;> rfl

theorem lack_eq_none_iff {widths : List Nat} {n : Nat} :
    lack widths n = none ↔ widths.sum ≤ n := by
  induction widths generalizing n with
  | nil => exact iff_of_true rfl (Nat.zero_le n)
  | cons width widths ih =>
    rw [lack, List.sum_cons]
    split
    · exact iff_of_false nofun (by omega)
    · rw [ih]
      omega

theorem lt_of_lack {widths : List Nat} {n width got : Nat} (h : lack widths n = some (width, got)) :
    got < width := by
  induction widths generalizing n with
  | nil => cases h
  | cons first widths ih =>
    rw [lack] at h
    split at h
    · cases h
      assumption
    · exact ih h

theorem exists_lack (widths : List Nat) {n : Nat} (h : n < widths.sum) :
    ∃ width got, lack widths n = some (width, got) := by
  cases hlack : lack widths n with
  | none => exact absurd (lack_eq_none_iff.mp hlack) (Nat.not_le_of_lt h)
  | some field => exact ⟨field.1, field.2, rfl⟩

variable {α β : Type}

/-- A computation that reads fields with these widths and makes `value` of the bytes in them. Of
bytes that are too few it takes all. -/
structure Parses (widths : List Nat) (x : Metered Plain α) (value : Bytes → α) : Prop where
  whole : ∀ (m : Meter) {bytes : Bytes}, lack widths bytes.length = none →
    x (m, ⟨bytes⟩) = .ok (value bytes) (m.count widths.sum, ⟨bytes.drop widths.sum⟩)
  short : ∀ (m : Meter) {bytes : Bytes} {width got : Nat},
    lack widths bytes.length = some (width, got) →
      ∃ m', x (m, ⟨bytes⟩) = .error (.wrongCount width got) (m', ⟨[]⟩)

namespace Parses

theorem pure (a : α) : Parses [] (pure a) fun _ => a where
  whole m bytes _ := by
    rw [List.sum_nil, count_zero]
    rfl
  short m bytes width got h := by cases h

theorem bind {widths widths' : List Nat} {x : Metered Plain α} {value : Bytes → α}
    {f : α → Metered Plain β} {value' : α → Bytes → β} (hx : Parses widths x value)
    (hf : ∀ a, Parses widths' (f a) (value' a)) :
    Parses (widths ++ widths') (x >>= f)
      fun bytes => value' (value bytes) (bytes.drop widths.sum) where
  whole m bytes h := by
    rw [lack_append, Option.or_eq_none_iff, ← List.length_drop] at h
    rw [bind_of_ok (hx.whole m h.1), (hf _).whole _ h.2, count_count, List.drop_drop,
      List.sum_append]
  short m bytes width got h := by
    rw [lack_append, ← List.length_drop] at h
    cases hfirst : lack widths bytes.length with
    | some field =>
      rw [hfirst] at h
      cases h
      obtain ⟨m', hm'⟩ := hx.short m hfirst
      exact ⟨m', bind_of_error hm'⟩
    | none =>
      rw [hfirst] at h
      rw [bind_of_ok (hx.whole m hfirst)]
      exact (hf _).short _ h

end Parses

theorem read_parses (n : Nat) : Parses [n] (read Plain.read n) fun bytes => bytes.segment 0 n where
  whole m bytes h := by
    obtain ⟨a, rest, ha, rfl⟩ := Bytes.exists_append (lack_eq_none_iff.mp h)
    rw [List.sum_singleton] at ha
    rw [read_append m rest ha, List.sum_singleton, List.drop_left' ha, Bytes.segment,
      List.drop_zero, List.take_left' ha]
  short m bytes width got h := by
    simp only [lack] at h
    split at h
    · rename_i hshort
      cases h
      exact ⟨m, read_short m hshort⟩
    · cases h

theorem readInt16BE_parses :
    Parses [2] (readInt16BE Plain.read) fun bytes => Bytes.toIntBE (bytes.segment 0 2) :=
  (read_parses 2).bind fun _ => .pure _

theorem readInt32BE_parses :
    Parses [4] (readInt32BE Plain.read) fun bytes => Bytes.toIntBE (bytes.segment 0 4) :=
  (read_parses 4).bind fun _ => .pure _

theorem readInt32LE_parses :
    Parses [4] (readInt32LE Plain.read) fun bytes => Bytes.toIntLE (bytes.segment 0 4) :=
  (read_parses 4).bind fun _ => .pure _

theorem readFloat64LE_parses :
    Parses [8] (readFloat64LE Plain.read) fun bytes => Binary64.ofBytesLE (bytes.segment 0 8) :=
  (read_parses 8).bind fun _ => .pure _

/-- The number in the four bytes from a place on, which are two halves. -/
def halvesAt (start : Nat) (bytes : Bytes) : Int :=
  joinHalves (Bytes.toIntBE (bytes.segment start 2)) (Bytes.toIntBE (bytes.segment (start + 2) 2))

theorem readHalves_parses : Parses [2, 2] (readHalves Plain.read) (halvesAt 0) :=
  readInt16BE_parses.bind fun _ => readInt16BE_parses.bind fun _ => .pure _

end Meter

/-! ## Headers -/

namespace Header

open Meter (Parses)

/-- The widths of the fields, in their order. -/
def widths : List Nat := [4, 4, 4, 4, 4, 4, 2, 2, 4, 4, 8, 8, 8, 8, 8, 8, 8, 8]

theorem sum_widths : widths.sum = 100 := rfl

/-- The range in the sixteen bytes from a place on. -/
def rangeAt (start : Nat) (bytes : Bytes) : Range :=
  ⟨.ofBytesLE (bytes.segment start 8), .ofBytesLE (bytes.segment (start + 8) 8)⟩

/-- What stands in the bytes of a header, accepted or not. -/
def ofBytes (bytes : Bytes) : Header where
  fileCode := Bytes.toIntBE (bytes.segment 0 4)
  fileLength := Meter.halvesAt 24 bytes * 2
  version := Bytes.toIntLE (bytes.segment 28 4)
  typeCode := Bytes.toIntLE (bytes.segment 32 4)
  x := rangeAt 36 bytes
  y := rangeAt 52 bytes
  z := rangeAt 68 bytes
  m := rangeAt 84 bytes

theorem skipWords_parses (n : Nat) :
    Parses (List.replicate n 4) (skipWords Plain.read n) fun _ => () := by
  induction n with
  | zero => exact .pure ()
  | succ n ih => exact Meter.readInt32BE_parses.bind fun _ => ih

theorem readRange_parses : Parses [8, 8] (readRange Plain.read) (rangeAt 0) :=
  Meter.readFloat64LE_parses.bind fun _ => Meter.readFloat64LE_parses.bind fun _ => .pure _

theorem readFields_parses : Parses widths (readFields Plain.read) ofBytes := by
  have hfields : Parses widths (readFields Plain.read) _ :=
    Meter.readInt32BE_parses.bind fun _ =>
      (skipWords_parses 5).bind fun _ =>
        Meter.readHalves_parses.bind fun _ =>
          Meter.readInt32LE_parses.bind fun _ =>
            Meter.readInt32LE_parses.bind fun _ =>
              readRange_parses.bind fun _ =>
                readRange_parses.bind fun _ =>
                  readRange_parses.bind fun _ => readRange_parses.bind fun _ => .pure _
  refine (congrArg (Parses widths (readFields Plain.read)) (funext fun bytes => ?_)).mp hfields
  simp only [ofBytes, Meter.halvesAt, rangeAt, Bytes.segment, List.drop_drop, List.drop_zero]
  rfl

/-- What becomes of a plain byte string: too few bytes are all taken, and of any others the first
hundred, whether they are accepted or not. -/
theorem read_eq (bytes : Bytes) :
    Header.read Plain.read ⟨bytes⟩ =
      match Meter.lack widths bytes.length, (ofBytes bytes).defect? with
      | some (width, got), _ => .error (.wrongCount width got) ⟨[]⟩
      | none, some f => .error f ⟨bytes.drop 100⟩
      | none, none => .ok (ofBytes bytes) ⟨bytes.drop 100⟩ := by
  cases hlack : Meter.lack widths bytes.length with
  | some field =>
    obtain ⟨m, hshort⟩ := readFields_parses.short (.start none) hlack
    simp only [Header.read, hshort]
  | none =>
    simp only [Header.read, readFields_parses.whole (.start none) hlack, sum_widths]
    cases (ofBytes bytes).defect? <;> rfl

/-- A header takes its 100 bytes, and is what stands in them. -/
theorem read_cuts {bytes : Bytes} {h : Header} {p : Plain}
    (hread : Header.read Plain.read ⟨bytes⟩ = .ok h p) :
    100 ≤ bytes.length ∧ p = ⟨bytes.drop 100⟩ ∧ h = ofBytes bytes := by
  rw [read_eq] at hread
  split at hread
  · cases hread
  · cases hread
  · rename_i hlack _
    cases hread
    exact ⟨Meter.lack_eq_none_iff.mp hlack, rfl, rfl⟩

/-- A byte string begins with the header, which is a valid one. -/
def Begins (h : Header) (bytes : Bytes) : Prop :=
  ∃ p, Header.read Plain.read ⟨bytes⟩ = .ok h p

theorem Begins.read {h : Header} {bytes : Bytes} (H : h.Begins bytes) :
    Header.read Plain.read ⟨bytes⟩ = .ok h ⟨bytes.drop 100⟩ := by
  obtain ⟨p, hread⟩ := H
  rw [hread, (read_cuts hread).2.1]

theorem Begins.length_le {h : Header} {bytes : Bytes} (H : h.Begins bytes) :
    100 ≤ bytes.length := by
  obtain ⟨p, hread⟩ := H
  exact (read_cuts hread).1

end Header

end Shapefile
