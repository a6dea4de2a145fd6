import Shapefile.Proofs.Consumption

/-! # How a record fails

A record that is not read fails in its header, at its declared length, at its shape type or after
it (`Record.Fails`). Which of these it is bounds what it has taken (`Record.Fails.took`), for a
field that fails takes nothing. -/

namespace Shapefile

variable {ε α β : Type}

/-! ## Fields -/

namespace Meter

/-- A computation that has counted one of these numbers of bytes when it fails. -/
def FailsAfter (ns : List Nat) (x : Metered ε α) : Prop :=
  ∀ ⦃s f t⦄, x s = .error f t → ∃ n ∈ ns, t.1 = s.1.count n

namespace FailsAfter

variable {m : Nat} {ns ns' : List Nat} {x : Metered ε α} {f : α → Metered ε β}

theorem pure (a : α) : FailsAfter (ε := ε) [] (pure a) := nofun

theorem throw (f : Fault) : FailsAfter (ε := ε) (α := α) [0] (throw f) := by
  intro s f t h
  cases h
  exact ⟨0, .head _, (count_zero s.1).symm⟩

theorem mono (hx : FailsAfter ns x) (h : ns ⊆ ns') : FailsAfter ns' x := by
  intro s f t hs
  obtain ⟨n, hn, ht⟩ := hx hs
  exact ⟨n, h hn, ht⟩

theorem bind (htakes : Takes m x) (hx : FailsAfter ns x) (hf : ∀ a, FailsAfter ns' (f a)) :
    FailsAfter (ns ++ ns'.map (m + ·)) (x >>= f) := by
  intro s e u h
  cases hxs : x s with
  | error e' t =>
    rw [bind_of_error hxs] at h
    cases h
    obtain ⟨n, hn, ht⟩ := hx hxs
    exact ⟨n, List.mem_append_left _ hn, ht⟩
  | ok a t =>
    rw [bind_of_ok hxs] at h
    obtain ⟨n, hn, hu⟩ := hf a h
    refine ⟨m + n, List.mem_append_right _ (List.mem_map_of_mem hn), ?_⟩
    rw [hu, htakes hxs, count_count]

/-- What is made of a value that was read does not fail. -/
theorem map (hx : FailsAfter ns x) (g : α → β) :
    FailsAfter ns (x >>= fun a => Pure.pure (g a)) := by
  intro s e u h
  cases hxs : x s with
  | error e' t =>
    rw [bind_of_error hxs] at h
    cases h
    exact hx hxs
  | ok a t =>
    rw [bind_of_ok hxs] at h
    cases h

end FailsAfter

variable (feed : Feed ε)

theorem read_failsAfter (n : Int) : FailsAfter [0] (read feed n) := by
  intro s f t h
  have hends := read_ends feed n s
  rw [h] at hends
  refine ⟨0, .head _, ?_⟩
  rw [count_zero]
  cases hends with
  | inexact | refused => rfl

theorem readInt16BE_failsAfter : FailsAfter [0] (readInt16BE feed) := (read_failsAfter feed 2).map _

theorem readInt32BE_failsAfter : FailsAfter [0] (readInt32BE feed) := (read_failsAfter feed 4).map _

theorem readInt32LE_failsAfter : FailsAfter [0] (readInt32LE feed) := (read_failsAfter feed 4).map _

theorem readFloat64LE_failsAfter : FailsAfter [0] (readFloat64LE feed) :=
  (read_failsAfter feed 8).map _

theorem readHalves_failsAfter : FailsAfter [0, 2] (readHalves feed) :=
  .bind (readInt16BE_takes feed) (readInt16BE_failsAfter feed) fun _ =>
    (readInt16BE_failsAfter feed).map _

end Meter

/-! ## Records -/

theorem RecordHeader.read_failsAfter (feed : Feed ε) :
    Meter.FailsAfter [0, 4, 6] (RecordHeader.read feed) :=
  .bind (Meter.readInt32BE_takes feed) (Meter.readInt32BE_failsAfter feed) fun _ =>
    (Meter.readHalves_failsAfter feed).map _

theorem Shape.read_failsAfter (feed : Feed ε) (typeCode : Int)
    (recordNumber objectId : Option Int) :
    Meter.FailsAfter [0, 8] (Shape.read feed typeCode recordNumber objectId) := by
  unfold Shape.read
  split
  · exact (Meter.FailsAfter.throw _).mono (by simp)
  · exact (Meter.FailsAfter.pure _).mono (by simp)
  · exact .bind (Meter.readFloat64LE_takes feed) (Meter.readFloat64LE_failsAfter feed) fun _ =>
      (Meter.readFloat64LE_failsAfter feed).map _
  · exact (Meter.FailsAfter.throw _).mono (by simp)

namespace Record

/-- Reading a record fails, before it has read a shape type or after it has read this one. -/
inductive Fails (feed : Feed ε) (objectId : Nat) (s : Meter × ε) :
    (typeCode? : Option Int) → Fault → Meter × ε → Prop where
  | header {f : Fault} {t : Meter × ε} (header : RecordHeader.read feed s = .error f t) :
    Fails feed objectId s none f t
  | overrun {h : RecordHeader} {t : Meter × ε} (header : RecordHeader.read feed s = .ok h t)
      (misfit : h.overruns t.1.left = true) :
    Fails feed objectId s none (.recordOverrun h.number h.contentLength t.1.left) t
  | type {h : RecordHeader} {f : Fault} {t u : Meter × ε}
      (header : RecordHeader.read feed s = .ok h t) (fits : h.overruns t.1.left = false)
      (type : Meter.readInt32LE feed t = .error f u) :
    Fails feed objectId s none f u
  | shape {h : RecordHeader} {typeCode : Int} {f : Fault} {t u v : Meter × ε}
      (header : RecordHeader.read feed s = .ok h t) (fits : h.overruns t.1.left = false)
      (type : Meter.readInt32LE feed t = .ok typeCode u)
      (shape : Shape.read feed typeCode (some h.number) (some objectId) u = .error f v) :
    Fails feed objectId s (some typeCode) f v

variable {feed : Feed ε} {objectId : Nat} {s t : Meter × ε} {f : Fault}

theorem fails_of_read (h : Record.read feed objectId s = .error f t) :
    ∃ typeCode?, Fails feed objectId s typeCode? f t := by
  rw [read_eq] at h
  cases hheader : RecordHeader.read feed s with
  | error f' u =>
    rw [hheader] at h
    cases h
    exact ⟨none, .header hheader⟩
  | ok header u =>
    simp only [hheader] at h
    split at h
    · rename_i hmisfit
      cases h
      exact ⟨none, .overrun hheader hmisfit⟩
    · rename_i hfits
      have hfits : header.overruns u.1.left = false := Bool.not_eq_true _ ▸ hfits
      cases htype : Meter.readInt32LE feed u with
      | error f' v =>
        rw [readContent, bind_of_error htype] at h
        cases h
        exact ⟨none, .type hheader hfits htype⟩
      | ok typeCode v =>
        rw [readContent, bind_of_ok htype] at h
        cases hshape : Shape.read feed typeCode (some header.number) (some objectId) v with
        | error f' w =>
          rw [hshape] at h
          cases h
          exact ⟨some typeCode, .shape hheader hfits htype hshape⟩
        | ok shape w =>
          rw [hshape] at h
          cases h

/-- What a record has taken when it fails: at most its header before it has read a shape type, and
at most one coordinate more afterwards. -/
theorem Fails.took {typeCode? : Option Int} (H : Fails feed objectId s typeCode? f t) :
    ∃ n ∈ if typeCode?.isNone then [0, 4, 6, 8] else [12, 20], t.1 = s.1.count n := by
  cases H with
  | header header =>
    obtain ⟨n, hn, ht⟩ := RecordHeader.read_failsAfter feed header
    refine ⟨n, ?_, ht⟩
    simp only [Option.isNone_none, if_true, List.mem_cons, List.not_mem_nil, or_false] at hn ⊢
    omega
  | overrun header => exact ⟨8, by simp, RecordHeader.read_takes feed header⟩
  | type header fits type =>
    refine ⟨8, by simp, ?_⟩
    obtain ⟨n, hn, ht⟩ := Meter.readInt32LE_failsAfter feed type
    rw [ht, RecordHeader.read_takes feed header, List.mem_singleton.mp hn, Meter.count_zero]
  | @shape h typeCode f t u v header fits type shape =>
    obtain ⟨n, hn, ht⟩ := Shape.read_failsAfter feed typeCode _ _ shape
    refine ⟨12 + n, ?_, ?_⟩
    · simp only [List.mem_cons, List.not_mem_nil, or_false] at hn
      rcases hn with rfl | rfl <;> simp
    · rw [ht, Meter.readInt32LE_takes feed type, RecordHeader.read_takes feed header,
        Meter.count_count, Meter.count_count, ← Nat.add_assoc]

end Record
end Shapefile
