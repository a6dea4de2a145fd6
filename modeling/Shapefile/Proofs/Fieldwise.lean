import Shapefile.Record
import Shapefile.Header

/-! # Computations that read fields

Headers and records are read field by field: every request is for the two, four or eight bytes of a
field, and what is done next depends on the fields and the meter alone. So through another feed the
same is put together from the same fields (`Fieldwise`). What holds of a field and goes through from
one computation to the next holds of all of them, by induction. -/

namespace Shapefile

variable {ε ε' : Type}

/-- Put together in the same way from reads of fields, through one feed and through another. -/
inductive Fieldwise (feed : Feed ε) (feed' : Feed ε') :
    {α : Type} → Metered ε α → Metered ε' α → Prop where
  | pure {α : Type} (a : α) : Fieldwise feed feed' (pure a) (pure a)
  | throw {α : Type} (f : Fault) :
    Fieldwise feed feed' (throw f : Metered ε α) (throw f : Metered ε' α)
  | read (n : Nat) (width : n = 2 ∨ n = 4 ∨ n = 8) :
    Fieldwise feed feed' (Meter.read feed n) (Meter.read feed' n)
  /-- Looks at the meter, and not at what bytes come from. -/
  | look {α : Type} {x : Meter → Metered ε α} {y : Meter → Metered ε' α}
      (rest : ∀ m, Fieldwise feed feed' (x m) (y m)) :
    Fieldwise feed feed' (get >>= fun s => x s.1) (get >>= fun s => y s.1)
  | bind {α β : Type} {x : Metered ε α} {y : Metered ε' α} {f : α → Metered ε β}
      {g : α → Metered ε' β} (first : Fieldwise feed feed' x y)
      (rest : ∀ a, Fieldwise feed feed' (f a) (g a)) :
    Fieldwise feed feed' (x >>= f) (y >>= g)

variable (feed : Feed ε) (feed' : Feed ε')

namespace Meter

theorem readInt16BE_fieldwise : Fieldwise feed feed' (readInt16BE feed) (readInt16BE feed') :=
  .bind (.read 2 (by decide)) fun _ => .pure _

theorem readInt32BE_fieldwise : Fieldwise feed feed' (readInt32BE feed) (readInt32BE feed') :=
  .bind (.read 4 (by decide)) fun _ => .pure _

theorem readInt32LE_fieldwise : Fieldwise feed feed' (readInt32LE feed) (readInt32LE feed') :=
  .bind (.read 4 (by decide)) fun _ => .pure _

theorem readFloat64LE_fieldwise :
    Fieldwise feed feed' (readFloat64LE feed) (readFloat64LE feed') :=
  .bind (.read 8 (by decide)) fun _ => .pure _

theorem readHalves_fieldwise : Fieldwise feed feed' (readHalves feed) (readHalves feed') :=
  .bind (readInt16BE_fieldwise feed feed') fun _ =>
    .bind (readInt16BE_fieldwise feed feed') fun _ => .pure _

end Meter

/-! ## Records -/

theorem RecordHeader.read_fieldwise :
    Fieldwise feed feed' (RecordHeader.read feed) (RecordHeader.read feed') :=
  .bind (Meter.readInt32BE_fieldwise feed feed') fun _ =>
    .bind (Meter.readHalves_fieldwise feed feed') fun _ => .pure _

theorem Shape.read_fieldwise (typeCode : Int) (recordNumber objectId : Option Int) :
    Fieldwise feed feed' (Shape.read feed typeCode recordNumber objectId)
      (Shape.read feed' typeCode recordNumber objectId) := by
  unfold Shape.read
  split
  · exact .throw _
  · exact .pure _
  · exact .bind (Meter.readFloat64LE_fieldwise feed feed') fun _ =>
      .bind (Meter.readFloat64LE_fieldwise feed feed') fun _ => .pure _
  · exact .throw _

namespace Record

theorem readContent_fieldwise (objectId : Nat) (header : RecordHeader) :
    Fieldwise feed feed' (readContent feed objectId header) (readContent feed' objectId header) :=
  .bind (Meter.readInt32LE_fieldwise feed feed') fun _ => Shape.read_fieldwise feed feed' _ _ _

/-- What is read of a record when its header has been, and the meter was at `before`. -/
def readRest (objectId : Nat) (header : RecordHeader) (before : Meter) : Metered ε Record :=
  if header.overruns before.left then
    throw (.recordOverrun header.number header.contentLength before.left)
  else do
    let shape ← readContent feed objectId header
    get >>= fun s => pure ⟨header, shape, s.1.consumed - before.consumed⟩

theorem read_eq_bind (objectId : Nat) :
    Record.read feed objectId =
      RecordHeader.read feed >>= fun header => get >>= fun s =>
        readRest feed objectId header s.1 := by
  unfold readRest
  rfl

theorem read_fieldwise (objectId : Nat) :
    Fieldwise feed feed' (Record.read feed objectId) (Record.read feed' objectId) := by
  rw [read_eq_bind, read_eq_bind]
  refine .bind (RecordHeader.read_fieldwise feed feed') fun header => .look fun before => ?_
  unfold readRest
  split
  · exact .throw _
  · let record (shape : Shape) (after : Meter) : Record :=
      ⟨header, shape, after.consumed - before.consumed⟩
    exact .bind (readContent_fieldwise feed feed' objectId header) fun shape =>
      .look (x := fun after => pure (record shape after))
        (y := fun after => pure (record shape after)) fun _ => .pure _

end Record

/-! ## Headers -/

namespace Header

theorem skipWords_fieldwise (n : Nat) :
    Fieldwise feed feed' (skipWords feed n) (skipWords feed' n) := by
  induction n with
  | zero => exact .pure ()
  | succ n ih => exact .bind (Meter.readInt32BE_fieldwise feed feed') fun _ => ih

theorem readRange_fieldwise : Fieldwise feed feed' (readRange feed) (readRange feed') :=
  .bind (Meter.readFloat64LE_fieldwise feed feed') fun _ =>
    .bind (Meter.readFloat64LE_fieldwise feed feed') fun _ => .pure _

theorem readFields_fieldwise : Fieldwise feed feed' (readFields feed) (readFields feed') :=
  .bind (Meter.readInt32BE_fieldwise feed feed') fun _ =>
    .bind (skipWords_fieldwise feed feed' 5) fun _ =>
      .bind (Meter.readHalves_fieldwise feed feed') fun _ =>
        .bind (Meter.readInt32LE_fieldwise feed feed') fun _ =>
          .bind (Meter.readInt32LE_fieldwise feed feed') fun _ =>
            .bind (readRange_fieldwise feed feed') fun _ =>
              .bind (readRange_fieldwise feed feed') fun _ =>
                .bind (readRange_fieldwise feed feed') fun _ =>
                  .bind (readRange_fieldwise feed feed') fun _ => .pure _

end Header
end Shapefile
