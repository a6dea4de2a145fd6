import Shapefile.Reading.Basic

/-! # Environments that answer alike

A computation that reads through a feed knows nothing of its environment but the answers it gets.
So in two environments whose feeds answer alike it ends alike: with the same value or the same
fault, and in environments that still answer alike. This is carried here from feeds to fields,
headers, records and whole readings (`Reading.run_simulates`). -/

namespace Shapefile

section Bind
variable {σ α β : Type} {x : EStateM Fault σ α} {f : α → EStateM Fault σ β} {s t : σ}

theorem bind_of_ok {a : α} (h : x s = .ok a t) : (x >>= f) s = f a t := by
  simp only [bind, EStateM.bind, h]

theorem bind_of_error {e : Fault} (h : x s = .error e t) : (x >>= f) s = .error e t := by
  simp only [bind, EStateM.bind, h]

end Bind

/-- Outcomes with the same value or the same fault, in related states. -/
inductive Alike {σ τ α : Type} (R : σ → τ → Prop) :
    EStateM.Result Fault σ α → EStateM.Result Fault τ α → Prop where
  | ok {a : α} {s : σ} {t : τ} (h : R s t) : Alike R (.ok a s) (.ok a t)
  | error {f : Fault} {s : σ} {t : τ} (h : R s t) : Alike R (.error f s) (.error f t)

theorem Alike.mono {σ τ α : Type} {R R' : σ → τ → Prop} {r : EStateM.Result Fault σ α}
    {r' : EStateM.Result Fault τ α} (H : Alike R r r') (h : ∀ s t, R s t → R' s t) :
    Alike R' r r' := by
  cases H with
  | ok H => exact .ok (h _ _ H)
  | error H => exact .error (h _ _ H)

/-- The same result in another state. -/
def mapState {σ τ α : Type} (f : σ → τ) : EStateM.Result Fault σ α → EStateM.Result Fault τ α
  | .ok a s => .ok a (f s)
  | .error e s => .error e (f s)

theorem eq_mapState {σ τ α : Type} (f : σ → τ) {r : EStateM.Result Fault σ α}
    {r' : EStateM.Result Fault τ α} (h : Alike (fun s t => t = f s) r r') : r' = mapState f r := by
  cases h with
  | ok h => rw [h]; rfl
  | error h => rw [h]; rfl

/-- Computations that end alike wherever they start in related states. -/
def Simulates {σ τ α : Type} (R : σ → τ → Prop) (x : EStateM Fault σ α)
    (y : EStateM Fault τ α) : Prop :=
  ∀ ⦃s t⦄, R s t → Alike R (x s) (y t)

namespace Simulates
variable {σ τ α β : Type} {R : σ → τ → Prop}

theorem pure (a : α) : Simulates R (pure a) (pure a) := fun _ _ h => .ok h

theorem throw (f : Fault) : Simulates (α := α) R (throw f) (throw f) := fun _ _ h => .error h

theorem bind {x : EStateM Fault σ α} {y : EStateM Fault τ α} {f : α → EStateM Fault σ β}
    {g : α → EStateM Fault τ β} (hxy : Simulates R x y) (hfg : ∀ a, Simulates R (f a) (g a)) :
    Simulates R (x >>= f) (y >>= g) := by
  intro s t h
  have hs := hxy h
  simp only [Bind.bind, EStateM.bind]
  generalize x s = r at hs
  generalize y t = r' at hs
  cases hs with
  | ok h' => exact hfg _ h'
  | error h' => exact .error h'

variable {x : EStateM Fault σ α} {y : EStateM Fault τ α} {s s' : σ} {t : τ}

theorem eq_ok {a : α} (H : Simulates R x y) (h : R s t) (hx : x s = .ok a s') :
    ∃ t', y t = .ok a t' ∧ R s' t' := by
  have hs := H h
  rw [hx] at hs
  generalize y t = r at hs
  cases hs with
  | ok h' => exact ⟨_, rfl, h'⟩

theorem eq_error {f : Fault} (H : Simulates R x y) (h : R s t) (hx : x s = .error f s') :
    ∃ t', y t = .error f t' ∧ R s' t' := by
  have hs := H h
  rw [hx] at hs
  generalize y t = r at hs
  cases hs with
  | error h' => exact ⟨_, rfl, h'⟩

end Simulates

/-- States that agree in their first parts and are related in their second ones. -/
def Beside {ρ ε ε' : Type} (R : ε → ε' → Prop) (s : ρ × ε) (t : ρ × ε') : Prop :=
  s.1 = t.1 ∧ R s.2 t.2

variable {ε ε' : Type} {R : ε → ε' → Prop} {feed : Feed ε} {feed' : Feed ε'}

/-! ## Fields -/

namespace Meter

theorem read_simulates (H : ∀ n, Simulates R (feed n) (feed' n)) (n : Int) :
    Simulates (Beside R) (read feed n) (read feed' n) := by
  rintro ⟨m, e⟩ ⟨m', e'⟩ ⟨hm, he⟩
  cases hm
  have hn := H n he
  simp only [read]
  generalize feed n e = r at hn
  generalize feed' n e' = r' at hn
  cases hn with
  | ok h =>
    simp only
    split
    · exact .ok ⟨rfl, h⟩
    · exact .error ⟨rfl, h⟩
  | error h => exact .error ⟨rfl, h⟩

variable (H : ∀ n, Simulates R (feed n) (feed' n))
include H

theorem readInt16BE_simulates : Simulates (Beside R) (readInt16BE feed) (readInt16BE feed') :=
  (read_simulates H 2).bind fun _ => .pure _

theorem readInt32BE_simulates : Simulates (Beside R) (readInt32BE feed) (readInt32BE feed') :=
  (read_simulates H 4).bind fun _ => .pure _

theorem readInt32LE_simulates : Simulates (Beside R) (readInt32LE feed) (readInt32LE feed') :=
  (read_simulates H 4).bind fun _ => .pure _

theorem readFloat64LE_simulates :
    Simulates (Beside R) (readFloat64LE feed) (readFloat64LE feed') :=
  (read_simulates H 8).bind fun _ => .pure _

theorem readHalves_simulates : Simulates (Beside R) (readHalves feed) (readHalves feed') :=
  (readInt16BE_simulates H).bind fun _ => (readInt16BE_simulates H).bind fun _ => .pure _

end Meter

/-! ## Headers and records -/

namespace Header

variable (H : ∀ n, Simulates R (feed n) (feed' n))
include H

theorem skipWords_simulates (n : Nat) :
    Simulates (Beside R) (skipWords feed n) (skipWords feed' n) := by
  induction n with
  | zero => exact .pure ()
  | succ n ih => exact (Meter.readInt32BE_simulates H).bind fun _ => ih

theorem readRange_simulates : Simulates (Beside R) (readRange feed) (readRange feed') :=
  (Meter.readFloat64LE_simulates H).bind fun _ =>
    (Meter.readFloat64LE_simulates H).bind fun _ => .pure _

theorem readFields_simulates : Simulates (Beside R) (readFields feed) (readFields feed') :=
  (Meter.readInt32BE_simulates H).bind fun _ =>
  (skipWords_simulates H 5).bind fun _ =>
  (Meter.readHalves_simulates H).bind fun _ =>
  (Meter.readInt32LE_simulates H).bind fun _ =>
  (Meter.readInt32LE_simulates H).bind fun _ =>
  (readRange_simulates H).bind fun _ =>
  (readRange_simulates H).bind fun _ =>
  (readRange_simulates H).bind fun _ =>
  (readRange_simulates H).bind fun _ => .pure _

theorem read_simulates : Simulates R (Header.read feed) (Header.read feed') := by
  intro e e' he
  have hf := readFields_simulates H (s := (.start none, e)) (t := (.start none, e')) ⟨rfl, he⟩
  simp only [Header.read]
  generalize readFields feed (.start none, e) = r at hf
  generalize readFields feed' (.start none, e') = r' at hf
  cases hf with
  | @ok header _ _ h =>
    simp only
    cases header.defect? with
    | none => exact .ok h.2
    | some f => exact .error h.2
  | error h => exact .error h.2

end Header

theorem RecordHeader.read_simulates (H : ∀ n, Simulates R (feed n) (feed' n)) :
    Simulates (Beside R) (RecordHeader.read feed) (RecordHeader.read feed') :=
  (Meter.readInt32BE_simulates H).bind fun _ =>
    (Meter.readHalves_simulates H).bind fun _ => .pure _

theorem Shape.read_simulates (H : ∀ n, Simulates R (feed n) (feed' n)) (typeCode : Int)
    (recordNumber objectId : Option Int) :
    Simulates (Beside R) (Shape.read feed typeCode recordNumber objectId)
      (Shape.read feed' typeCode recordNumber objectId) := by
  unfold Shape.read
  split
  · exact .throw _
  · exact .pure _
  · exact (Meter.readFloat64LE_simulates H).bind fun _ =>
      (Meter.readFloat64LE_simulates H).bind fun _ => .pure _
  · exact .throw _

namespace Record

/-- A record as its header, the check of the declared length and its content. -/
theorem read_eq (feed : Feed ε) (objectId : Nat) (s : Meter × ε) :
    Record.read feed objectId s =
      match RecordHeader.read feed s with
      | .error f s => .error f s
      | .ok header s =>
        if header.overruns s.1.left then
          .error (.recordOverrun header.number header.contentLength s.1.left) s
        else
          match readContent feed objectId header s with
          | .error f t => .error f t
          | .ok shape t => .ok ⟨header, shape, t.1.consumed - s.1.consumed⟩ t := by
  unfold Record.read
  cases hh : RecordHeader.read feed s with
  | error f t => exact bind_of_error hh
  | ok header t =>
    rw [bind_of_ok hh]
    refine (bind_of_ok rfl).trans ?_
    by_cases ho : header.overruns t.1.left
    · simp only [ho, if_true]
      exact bind_of_error rfl
    · simp only [ho]
      cases hc : readContent feed objectId header t with
      | error f u => exact bind_of_error hc
      | ok shape u => exact bind_of_ok hc

theorem readContent_simulates (H : ∀ n, Simulates R (feed n) (feed' n)) (objectId : Nat)
    (header : RecordHeader) :
    Simulates (Beside R) (readContent feed objectId header) (readContent feed' objectId header) :=
  (Meter.readInt32LE_simulates H).bind fun _ => Shape.read_simulates H _ _ _

theorem read_simulates (H : ∀ n, Simulates R (feed n) (feed' n)) (objectId : Nat) :
    Simulates (Beside R) (Record.read feed objectId) (Record.read feed' objectId) := by
  intro s t h
  have hh := RecordHeader.read_simulates H h
  rw [read_eq, read_eq]
  generalize RecordHeader.read feed s = r at hh
  generalize RecordHeader.read feed' t = r' at hh
  cases hh with
  | error h => exact .error h
  | @ok header s t h =>
    have hc := readContent_simulates H objectId header h
    simp only [← h.1]
    split
    · exact .error h
    · generalize readContent feed objectId header s = c at hc
      generalize readContent feed' objectId header t = c' at hc
      cases hc with
      | error h => exact .error h
      | ok h' => simp only [← h'.1]; exact .ok h'

end Record

/-! ## Readings -/

/-- The line tells of a file that was opened. No reading writes such a line. -/
def Entry.isOpening : Entry → Bool
  | opened _ => true
  | _ => false

/-- Links whose feeds answer alike and whose logs keep environments related. -/
structure Link.Simulates (R : ε → ε' → Prop) (link : Link ε) (link' : Link ε') : Prop where
  feed : ∀ n, Shapefile.Simulates R (link.feed n) (link'.feed n)
  log : ∀ entry, entry.isOpening = false → ∀ {e e'}, R e e' →
    R (link.log entry e) (link'.log entry e')

namespace Reading

variable {link : Link ε} {link' : Link ε'} (L : Link.Simulates R link link')
include L

theorem settle_simulates {s : Reading × ε} {t : Reading × ε'} (h : Beside R s t) :
    Beside R (settle link s) (settle link' t) := by
  obtain ⟨rd, e⟩ := s
  obtain ⟨rd', e'⟩ := t
  obtain ⟨hrd, he⟩ := h
  cases hrd
  simp only [settle]
  split
  · exact ⟨rfl, L.log _ rfl he⟩
  · exact ⟨rfl, he⟩

theorem warn_simulates (rd : Reading) (record : Record) {e : ε} {e' : ε'} (h : R e e') :
    R (warn link rd record e) (warn link' rd record e') := by
  unfold warn
  split
  · exact L.log _ rfl h
  · exact h

theorem advance_simulates : Simulates (Beside R) (advance link) (advance link') := by
  rintro ⟨rd, e⟩ ⟨rd', e'⟩ ⟨hrd, he⟩
  cases hrd
  have hr := Record.read_simulates L.feed rd.shapeCount (s := (rd.meter, e))
    (t := (rd.meter, e')) ⟨rfl, he⟩
  simp only [advance]
  split
  · exact .ok (settle_simulates L ⟨rfl, he⟩)
  · generalize Record.read link.feed rd.shapeCount (rd.meter, e) = r at hr
    generalize Record.read link'.feed rd.shapeCount (rd.meter, e') = r' at hr
    cases hr with
    | @ok record s t h =>
      obtain ⟨hm, he⟩ := h
      simp only [hm]
      exact .ok ⟨rfl, warn_simulates L rd record he⟩
    | @error f s t h =>
      obtain ⟨hm, he⟩ := h
      simp only [hm]
      split
      · exact .error ⟨rfl, he⟩
      · exact .error (settle_simulates L ⟨rfl, he⟩)

theorem next_simulates (it : Iterator) : Simulates (Beside R) (it.next link) (it.next link') := by
  cases it with
  | fresh =>
    rintro ⟨rd, e⟩ ⟨rd', e'⟩ ⟨hrd, he⟩
    cases hrd
    simp only [Iterator.next]
    split
    · exact advance_simulates L ⟨rfl, he⟩
    · exact .error ⟨rfl, he⟩
  | suspended => exact advance_simulates L
  | finished => exact fun _ _ h => .ok h

theorem deliver_simulates {consumer : Consumer ε} {consumer' : Consumer ε'}
    (C : ∀ shape, Simulates (Beside R) (consumer shape) (consumer' shape)) (fuel : Nat)
    (it : Iterator) :
    Simulates (Beside R) (deliver link consumer fuel it) (deliver link' consumer' fuel it) := by
  induction fuel generalizing it with
  | zero => exact fun _ _ h => .ok h
  | succ fuel ih =>
    intro s t h
    have hn := next_simulates L it h
    simp only [deliver]
    generalize it.next link s = r at hn
    generalize it.next link' t = r' at hn
    cases hn with
    | error h => exact .error h
    | @ok shape? s t h =>
      cases shape? with
      | none => exact .ok h
      | some shape =>
        have hc := C shape h
        simp only
        generalize consumer shape s = c at hc
        generalize consumer' shape t = c' at hc
        cases hc with
        | error h => exact .error h
        | @ok more s t h =>
          cases more with
          | true => exact ih .suspended h
          | false => exact .ok (settle_simulates L h)

theorem run_simulates {consumer : Consumer ε} {consumer' : Consumer ε'}
    (C : ∀ shape, Simulates (Beside R) (consumer shape) (consumer' shape)) :
    Simulates (Beside R) (run link consumer) (run link' consumer') := by
  rintro ⟨rd, e⟩ ⟨rd', e'⟩ ⟨hrd, he⟩
  cases hrd
  have hd := deliver_simulates L C (rd.left.toNat + 1) .fresh (s := (rd, e)) (t := (rd, e'))
    ⟨rfl, he⟩
  simp only [run]
  generalize deliver link consumer (rd.left.toNat + 1) .fresh (rd, e) = r at hd
  generalize deliver link' consumer' (rd.left.toNat + 1) .fresh (rd, e') = r' at hd
  cases hd with
  | ok h =>
    obtain ⟨hrd, he⟩ := h
    simp only [hrd]
    exact .ok ⟨rfl, he⟩
  | error h =>
    obtain ⟨hrd, he⟩ := h
    simp only [hrd]
    exact .error ⟨rfl, he⟩

end Reading
end Shapefile
