import Shapefile.Proofs.Consumption
import Shapefile.Proofs.Exchanges

/-! # Decoding by type

The type of a record is checked before anything else of its content is read, and what can be decoded
is read by type. All tables of types agree on this (`Shape.read_checked`): the codes of the format,
the ones that can be decoded, the forms of their contents, and the classes from which shapes learn
their type. That a fault is about the type is seen in that nothing was read
(`Shape.decode_agrees`). -/

namespace Shapefile

open Desk (outcome endState)

variable {ε : Type} {feed : Feed ε} {m : Meter} {e : ε}

/-! ## Coordinates -/

namespace Meter

/-- A read gives all the bytes, or fails and takes none. It fails by itself, or as what it asks. -/
theorem read_cases (feed : Feed ε) (n : Nat) (m : Meter) (e : ε) :
    (∃ data e', feed n e = .ok data e' ∧ data.length = n ∧
        read feed n (m, e) = .ok data (m.count n, e')) ∨
      ∃ f e', read feed n (m, e) = .error f (m, e') ∧ endState (feed n e) = e' ∧
        (f.kind = .read ∨ feed n e = .error f e') := by
  have hends := read_ends feed n (m, e)
  generalize read feed n (m, e) = r at hends ⊢
  cases hends with
  | @exact data e' answer length =>
    have hlength : data.length = n := Int.natCast_inj.mp length
    exact .inl ⟨data, e', answer, hlength, by rw [hlength]⟩
  | @inexact data e' answer =>
    refine .inr ⟨_, e', rfl, ?_, .inl rfl⟩
    rw [answer]
    rfl
  | @refused f e' answer =>
    have hend : endState (feed n e) = e' := by
      rw [answer]
      rfl
    by_cases hsystem : f.isSystem
    · exact .inr ⟨.readFailed n f, e', by rw [if_pos hsystem], hend, .inl rfl⟩
    · exact .inr ⟨f, e', by rw [if_neg hsystem], hend, .inr answer⟩

end Meter

namespace Shape

/-- What comes of a record's content whose type can be decoded, after the type: a shape, or the
fault of a read. The meter counts what the shape has, or the first coordinate if the second one
fails. -/
inductive Decoded (feed : Feed ε) (recordNumber objectId : Option Int) (m : Meter) (e : ε) :
    ShapeType → EStateM.Result Fault (Meter × ε) Shape → Prop where
  | null : Decoded feed recordNumber objectId m e .null (.ok (.null objectId recordNumber) (m, e))
  | point {p : Position} {e₁ e₂ : ε} (x : feed 8 e = .ok p.x.toBytesLE e₁)
      (y : feed 8 e₁ = .ok p.y.toBytesLE e₂) :
    Decoded feed recordNumber objectId m e .point
      (.ok (.point p objectId recordNumber) (m.count 16, e₂))
  | firstFails {f : Fault} {e₁ : ε} (x : Meter.read feed 8 (m, e) = .error f (m, e₁)) :
    Decoded feed recordNumber objectId m e .point (.error f (m, e₁))
  | secondFails {xs : Bytes} {f : Fault} {e₁ e₂ : ε} (x : feed 8 e = .ok xs e₁)
      (length : xs.length = 8)
      (y : Meter.read feed 8 (m.count 8, e₁) = .error f (m.count 8, e₂)) :
    Decoded feed recordNumber objectId m e .point (.error f (m.count 8, e₂))

variable {recordNumber objectId : Option Int}

theorem read_point_decoded (feed : Feed ε) (m : Meter) (e : ε) :
    Decoded feed recordNumber objectId m e .point
      (read feed ShapeType.point.code recordNumber objectId (m, e)) := by
  have hread : read feed ShapeType.point.code recordNumber objectId =
      (do
        let x ← Meter.readFloat64LE feed
        let y ← Meter.readFloat64LE feed
        return point ⟨x, y⟩ objectId recordNumber) := rfl
  rw [hread]
  rcases Meter.read_cases feed 8 m e with ⟨xs, e₁, hx, hxs, hfirst⟩ | ⟨f, e₁, hfirst, -, -⟩
  · have hfirst' : Meter.readFloat64LE feed (m, e) = .ok (.ofBytesLE xs) (m.count 8, e₁) :=
      bind_of_ok hfirst
    rw [bind_of_ok hfirst']
    rcases Meter.read_cases feed 8 (m.count 8) e₁ with
      ⟨ys, e₂, hy, hys, hsecond⟩ | ⟨f, e₂, hsecond, -, -⟩
    · have hsecond' : Meter.readFloat64LE feed (m.count 8, e₁) =
          .ok (.ofBytesLE ys) ((m.count 8).count 8, e₂) := bind_of_ok hsecond
      rw [bind_of_ok hsecond', Meter.count_count]
      have hx' : feed 8 e = .ok (Binary64.ofBytesLE xs).toBytesLE e₁ := by
        rw [Binary64.toBytesLE_ofBytesLE hxs]
        exact hx
      have hy' : feed 8 e₁ = .ok (Binary64.ofBytesLE ys).toBytesLE e₂ := by
        rw [Binary64.toBytesLE_ofBytesLE hys]
        exact hy
      exact .point (p := ⟨.ofBytesLE xs, .ofBytesLE ys⟩) hx' hy'
    · have hsecond' : Meter.readFloat64LE feed (m.count 8, e₁) = .error f (m.count 8, e₂) :=
        bind_of_error hsecond
      rw [bind_of_error hsecond']
      exact .secondFails hx hxs hsecond
  · have hfirst' : Meter.readFloat64LE feed (m, e) = .error f (m, e₁) := bind_of_error hfirst
    rw [bind_of_error hfirst']
    exact .firstFails hfirst

/-- Reading a content comes to one of three things, and the checks of the type tell which. -/
inductive Checked (feed : Feed ε) (typeCode : Int) (recordNumber objectId : Option Int) (m : Meter)
    (e : ε) : EStateM.Result Fault (Meter × ε) Shape → Prop where
  | invalid (valid : ShapeType.isValidCode typeCode = false)
      (decodable : ShapeType.isDecodableCode typeCode = false) :
    Checked feed typeCode recordNumber objectId m e
      (.error (.invalidRecordType typeCode recordNumber) (m, e))
  | undecodable {type : ShapeType} (valid : ShapeType.isValidCode typeCode = true)
      (decodable : ShapeType.isDecodableCode typeCode = false)
      (code : type.code = typeCode) :
    Checked feed typeCode recordNumber objectId m e
      (.error (.undecodableRecordType typeCode type.displayName recordNumber) (m, e))
  | decoded {type : ShapeType} {r : EStateM.Result Fault (Meter × ε) Shape}
      (valid : ShapeType.isValidCode typeCode = true)
      (decodable : ShapeType.isDecodableCode typeCode = true)
      (code : type.code = typeCode) (outcome : Decoded feed recordNumber objectId m e type r) :
    Checked feed typeCode recordNumber objectId m e r

theorem read_checked (feed : Feed ε) (typeCode : Int) (m : Meter) (e : ε) :
    Checked feed typeCode recordNumber objectId m e
      (read feed typeCode recordNumber objectId (m, e)) := by
  cases htype : ShapeType.ofCode? typeCode with
  | none =>
    have hread : read feed typeCode recordNumber objectId (m, e) =
        .error (.invalidRecordType typeCode recordNumber) (m, e) := by
      simp only [read, htype]
      rfl
    rw [hread]
    exact .invalid (by rw [ShapeType.isValidCode, htype]; rfl)
      (by rw [ShapeType.isDecodableCode, htype]; rfl)
  | some type =>
    have hvalid : ShapeType.isValidCode typeCode = true := by
      rw [ShapeType.isValidCode, htype]
      rfl
    have hdecodable : ShapeType.isDecodableCode typeCode = type.isDecodable := by
      rw [ShapeType.isDecodableCode, htype]
      rfl
    obtain rfl := ShapeType.ofCode?_eq_some_iff.mp htype
    cases type with
    | null => exact .decoded hvalid hdecodable rfl .null
    | point => exact .decoded hvalid hdecodable rfl (read_point_decoded feed m e)
    | _ => exact .undecodable hvalid hdecodable rfl

/-- The shape has the code of its type, and the numbers that it was to have. -/
theorem Decoded.own {type : ShapeType} {shape : Shape} {u : Meter × ε}
    (H : Decoded feed recordNumber objectId m e type (.ok shape u)) :
    shape.typeCode = type.code ∧ shape.className = type.className ∧
      shape.recordNumber = recordNumber ∧ shape.objectId = objectId.getD (-1) := by
  cases H with
  | null => exact ⟨rfl, rfl, rfl, rfl⟩
  | @point p =>
    have htype := Content.type?_shape (.point p) objectId recordNumber
    exact ⟨(ShapeType.ofCode?_eq_some_iff.mp htype).symm, rfl, rfl, rfl⟩

/-- A read that fails has moved the stream, and the fault is told as a failed read unless the stream
itself came up with it. -/
theorem read_error {stream stream' : Adaptive} {n : Nat} {f : Fault}
    (h : Meter.read Source.read n (m, stream) = .error f (m, stream')) :
    ∃ answer, stream'.asked = stream.asked ++ [((n : Int), answer)] ∧
      (f.kind = .read ∨ answer = .error f) := by
  rcases Meter.read_cases Source.read n m stream with
    ⟨data, e', -, -, hread⟩ | ⟨f', e', hread, hend, hkind⟩
  · cases hread.symm.trans h
  · cases hread.symm.trans h
    refine ⟨outcome (Source.read n stream), ?_, ?_⟩
    · rw [← hend, Adaptive.asked_read]
    · rcases hkind with hkind | hkind
      · exact .inl hkind
      · exact .inr (by rw [hkind]; rfl)

end Shape

/-- The last answer of the stream since it was as before is this fault. -/
def Adaptive.Raised (before : Adaptive) (f : Fault) (after : Adaptive) : Prop :=
  ∃ earlier n, after.asked = before.asked ++ earlier ++ [(n, .error f)]

namespace Shape

variable {recordNumber objectId : Option Int} {stream : Adaptive} {type : ShapeType}

theorem Decoded.failed {f : Fault} {u : Meter × Adaptive}
    (H : Decoded Source.read recordNumber objectId m stream type (.error f u)) :
    u ≠ (m, stream) ∧ (f.kind = .read ∨ stream.Raised f u.2) := by
  cases H with
  | @firstFails _ e₁ x =>
    obtain ⟨answer, hasked, hkind⟩ := read_error (n := 8) x
    refine ⟨fun heq => ?_, hkind.imp_right fun hanswer => ?_⟩
    · have hsame : e₁.asked = stream.asked := congrArg (fun u => u.2.asked) heq
      rw [hasked] at hsame
      simp at hsame
    · exact ⟨[], 8, by rw [hasked, hanswer, List.append_nil]; rfl⟩
  | @secondFails xs _ e₁ e₂ x _ y =>
    obtain ⟨answer, hasked, hkind⟩ := read_error (n := 8) y
    have hfirst : e₁.asked = stream.asked ++ [(8, .ok xs)] := by
      have hread := Adaptive.asked_read 8 stream
      rw [x] at hread
      exact hread
    refine ⟨fun heq => ?_, hkind.imp_right fun hanswer => ?_⟩
    · have hsame : m.consumed + 8 = m.consumed := congrArg (fun u => u.1.consumed) heq
      omega
    · exact ⟨[(8, .ok xs)], 8, by rw [hasked, hanswer, hfirst]; rfl⟩

/-- A fault that comes without a read tells the code and the record number, and is about the
type. -/
theorem Checked.unmoved {typeCode : Int} {f : Fault}
    (H : Checked Source.read typeCode recordNumber objectId m stream (.error f (m, stream))) :
    f.typeCode? = some typeCode ∧ f.recordNumber? = some recordNumber ∧
      (f.kind = .invalidRecordType ∧ ShapeType.isValidCode typeCode = false ∨
        f.kind = .undecodableRecordType ∧ ShapeType.isValidCode typeCode = true ∧
          ShapeType.isDecodableCode typeCode = false) := by
  cases H with
  | invalid valid => exact ⟨rfl, rfl, .inl ⟨rfl, valid⟩⟩
  | undecodable valid decodable => exact ⟨rfl, rfl, .inr ⟨rfl, valid, decodable⟩⟩
  | decoded _ _ _ outcome => exact absurd rfl outcome.failed.1

/-- Every fault is about the type, as the checks of the type tell, or it is that of a read. -/
theorem Checked.fault {typeCode : Int} {f : Fault} {u : Meter × Adaptive}
    (H : Checked Source.read typeCode recordNumber objectId m stream (.error f u)) :
    f.kind = .invalidRecordType ∧ ShapeType.isValidCode typeCode = false ∨
      f.kind = .undecodableRecordType ∧ ShapeType.isValidCode typeCode = true ∧
        ShapeType.isDecodableCode typeCode = false ∨
      f.kind = .read ∨ stream.Raised f u.2 := by
  cases H with
  | invalid valid => exact .inl ⟨rfl, valid⟩
  | undecodable valid decodable => exact .inr (.inl ⟨rfl, valid, decodable⟩)
  | decoded _ _ _ outcome => exact .inr (.inr outcome.failed.2)

variable {typeCode : Int} {r : EStateM.Result Fault (Meter × Adaptive) Shape}

theorem Checked.invalid_iff
    (H : Checked Source.read typeCode recordNumber objectId m stream r) :
    ShapeType.isValidCode typeCode = false ↔
      ∃ f, r = .error f (m, stream) ∧ f.kind = .invalidRecordType := by
  constructor
  · intro hvalid
    cases H with
    | invalid => exact ⟨_, rfl, rfl⟩
    | undecodable valid | decoded valid => cases hvalid.symm.trans valid
  · rintro ⟨f, rfl, hkind⟩
    obtain ⟨-, -, ⟨-, hvalid⟩ | ⟨hkind', -⟩⟩ := H.unmoved
    · exact hvalid
    · cases hkind.symm.trans hkind'

theorem Checked.undecodable_iff
    (H : Checked Source.read typeCode recordNumber objectId m stream r) :
    ShapeType.isValidCode typeCode = true ∧ ShapeType.isDecodableCode typeCode = false ↔
      ∃ f, r = .error f (m, stream) ∧ f.kind = .undecodableRecordType := by
  constructor
  · intro ⟨hvalid, hdecodable⟩
    cases H with
    | undecodable => exact ⟨_, rfl, rfl⟩
    | invalid valid => cases hvalid.symm.trans valid
    | decoded _ decodable => cases hdecodable.symm.trans decodable
  · rintro ⟨f, rfl, hkind⟩
    obtain ⟨-, -, ⟨hkind', -⟩ | ⟨-, hvalid⟩⟩ := H.unmoved
    · cases hkind.symm.trans hkind'
    · exact hvalid

theorem Checked.of_decodable {feed : Feed ε} {r : EStateM.Result Fault (Meter × ε) Shape}
    (H : Checked feed typeCode recordNumber objectId m e r)
    (h : ShapeType.isDecodableCode typeCode = true) :
    ShapeType.isValidCode typeCode = true ∧
      ∃ type, type.code = typeCode ∧ Decoded feed recordNumber objectId m e type r := by
  cases H with
  | invalid _ decodable | undecodable _ decodable => cases h.symm.trans decodable
  | @decoded type _ valid _ code outcome => exact ⟨valid, type, code, outcome⟩

/-- Decoding agrees with the checks of the type, whatever the code. It refuses a code at once if and
only if it is not one of the format or cannot be decoded, and tells which. A code that can be
decoded is one of the format; it leads to a shape of its type and to no faults but those of reads.
A stream may come up with any fault itself, and the type is not to blame for that one. -/
theorem decode_agrees (typeCode : Int) (recordNumber objectId : Option Int) (m : Meter)
    (stream : Adaptive) :
    let r := read Source.read typeCode recordNumber objectId (m, stream)
    (ShapeType.isValidCode typeCode = false ↔
      ∃ f, r = .error f (m, stream) ∧ f.kind = .invalidRecordType) ∧
    (ShapeType.isValidCode typeCode = true ∧ ShapeType.isDecodableCode typeCode = false ↔
      ∃ f, r = .error f (m, stream) ∧ f.kind = .undecodableRecordType) ∧
    (∀ f, r = .error f (m, stream) →
      f.typeCode? = some typeCode ∧ f.recordNumber? = some recordNumber) ∧
    (ShapeType.isDecodableCode typeCode = true → ShapeType.isValidCode typeCode = true ∧
      ∃ type, type.code = typeCode ∧ Decoded Source.read recordNumber objectId m stream type r ∧
        ∀ shape u, r = .ok shape u →
          shape.typeCode = typeCode ∧ shape.className = type.className ∧
          shape.recordNumber = recordNumber ∧ shape.objectId = objectId.getD (-1)) ∧
    ∀ f u, r = .error f u →
      (f.kind = .invalidRecordType ∧ ShapeType.isValidCode typeCode = false ∨
        f.kind = .undecodableRecordType ∧ ShapeType.isValidCode typeCode = true ∧
          ShapeType.isDecodableCode typeCode = false ∨
        f.kind = .read ∨ stream.Raised f u.2) ∧
      (f.kind = .key → stream.Raised f u.2) := by
  intro r
  have hchecked : Checked Source.read typeCode recordNumber objectId m stream r :=
    read_checked Source.read typeCode m stream
  refine ⟨hchecked.invalid_iff, hchecked.undecodable_iff, fun f hf => ?_, fun hdecodable => ?_,
    fun f u hf => ?_⟩
  · rw [hf] at hchecked
    obtain ⟨hcode, hnumber, -⟩ := hchecked.unmoved
    exact ⟨hcode, hnumber⟩
  · obtain ⟨hvalid, type, hcode, hdecoded⟩ := hchecked.of_decodable hdecodable
    refine ⟨hvalid, type, hcode, hdecoded, fun shape u hu => ?_⟩
    rw [hu] at hdecoded
    obtain ⟨htype, hrest⟩ := hdecoded.own
    exact ⟨htype.trans hcode, hrest⟩
  · rw [hf] at hchecked
    have hfault := hchecked.fault
    refine ⟨hfault, fun hkey => ?_⟩
    rcases hfault with ⟨hkind, -⟩ | ⟨hkind, -⟩ | hkind | hraised
    · cases hkey.symm.trans hkind
    · cases hkey.symm.trans hkind
    · cases hkey.symm.trans hkind
    · exact hraised

end Shape
end Shapefile
