import Shapefile.Proofs.PlainReading

/-! # What a reading accepts

The byte strings that a reading gets through are those that begin with records in a row that use
the budget up (`Desk.run_accepts`). Every other one has framed records up to a place from where on
it is a rejection, and fails there (`Desk.run_rejects`). -/

namespace Shapefile

/-! ## Where records end -/

theorem Content.shape_injective {c c' : Content} {objectId recordNumber : Option Int}
    (h : c.shape objectId recordNumber = c'.shape objectId recordNumber) : c = c' := by
  cases c <;> cases c' <;> simp [Content.shape, Shape.null, Shape.point, Shape.make] at h ⊢
  exact h

namespace StoredRecord

theorem encode_append_inj {r r' : StoredRecord} {rest rest' : Bytes} (hs : r.header.IsStorable)
    (hs' : r'.header.IsStorable) (h : r.encode ++ rest = r'.encode ++ rest') :
    r = r' ∧ rest = rest' := by
  rw [encode_eq, encode_eq, List.append_assoc, List.append_assoc] at h
  have hheader := RecordHeader.read_append (.start none) (r.content.encode ++ rest) hs
  rw [h, RecordHeader.read_append _ _ hs'] at hheader
  injection hheader with hh hstate
  obtain ⟨-, hbytes⟩ := Prod.mk.inj hstate
  have hcontent := Content.read_append (.start none) rest r.content 0 r.header
  rw [← Plain.mk.inj hbytes, Content.read_append, ← hh] at hcontent
  injection hcontent with hshape hstate
  obtain ⟨-, hrest⟩ := Prod.mk.inj hstate
  have hc := Content.shape_injective hshape
  obtain ⟨number, words, content⟩ := r
  obtain ⟨number', words', content'⟩ := r'
  simp only [header, RecordHeader.mk.injEq] at hh
  obtain ⟨rfl, hwords⟩ := hh
  obtain rfl : words' = words := by omega
  cases hc
  exact ⟨rfl, (Plain.mk.inj hrest).symm⟩

/-- Of two rows of records that a byte string begins with, one continues the other. -/
theorem encodeAll_comparable {rs rs' : List StoredRecord} {rest rest' : Bytes}
    (hs : ∀ r ∈ rs, r.header.IsStorable) (hs' : ∀ r ∈ rs', r.header.IsStorable)
    (h : encodeAll rs ++ rest = encodeAll rs' ++ rest') :
    (∃ more, rs' = rs ++ more ∧ rest = encodeAll more ++ rest') ∨
    ∃ more, rs = rs' ++ more ∧ rest' = encodeAll more ++ rest := by
  induction rs generalizing rs' with
  | nil => exact .inl ⟨rs', rfl, h⟩
  | cons r rs ih =>
    cases rs' with
    | nil => exact .inr ⟨r :: rs, rfl, h.symm⟩
    | cons r' rs' =>
      rw [encodeAll_cons, encodeAll_cons, List.append_assoc, List.append_assoc] at h
      obtain ⟨rfl, htail⟩ := encode_append_inj (hs r (.head _)) (hs' r' (.head _)) h
      rcases ih (fun r h => hs r (.tail _ h)) (fun r h => hs' r (.tail _ h)) htail with
        ⟨more, rfl, hmore⟩ | ⟨more, rfl, hmore⟩
      · exact .inl ⟨more, rfl, hmore⟩
      · exact .inr ⟨more, rfl, hmore⟩

/-- Framed records that use up `budget` bytes, which without the last of them are not used up. -/
structure Accepted (budget : Int) (rs : List StoredRecord) : Prop where
  framed : Framed budget rs
  ends : if budget ≤ 0 then rs = [] else sizeAll rs.dropLast < budget ∧ budget ≤ sizeAll rs

theorem accepted_iff {budget : Int} {rs : List StoredRecord} :
    Accepted budget rs ↔ Framed budget rs ∧ budget ≤ sizeAll rs := by
  constructor
  · rintro ⟨H, hends⟩
    refine ⟨H, ?_⟩
    split at hends
    · omega
    · exact hends.2
  · rintro ⟨H, hend⟩
    refine ⟨H, ?_⟩
    rcases List.eq_nil_or_concat rs with rfl | ⟨before, last, rfl⟩
    · have : budget ≤ 0 := hend
      rw [if_pos this]
    · rw [List.concat_eq_append] at H hend ⊢
      have hlast := (Framed.append_iff.mp H).2.pos_of_cons
      rw [if_neg (by omega), List.dropLast_concat]
      exact ⟨by omega, hend⟩

-- The last record may take more than the budget has left, when it declares less.
example : Accepted 10 [⟨1, 0, .null⟩] :=
  ⟨Framed.cons_iff.mpr ⟨⟨by decide, by decide, by decide⟩, ⟨by decide, by decide⟩, .nil _⟩,
    by decide⟩

theorem Accepted.unique {budget : Int} {rs rs' : List StoredRecord} {rest rest' : Bytes}
    (H : Accepted budget rs) (H' : Accepted budget rs')
    (h : encodeAll rs ++ rest = encodeAll rs' ++ rest') : rs = rs' ∧ rest = rest' := by
  obtain ⟨H, hend⟩ := accepted_iff.mp H
  obtain ⟨H', hend'⟩ := accepted_iff.mp H'
  rcases encodeAll_comparable H.storable H'.storable h with ⟨more, rfl, hrest⟩ | ⟨more, rfl, hrest⟩
  · cases more with
    | nil => exact ⟨(List.append_nil _).symm, hrest⟩
    | cons r more =>
      have := (Framed.append_iff.mp H').2.pos_of_cons
      omega
  · cases more with
    | nil => exact ⟨List.append_nil _, hrest.symm⟩
    | cons r more =>
      have := (Framed.append_iff.mp H).2.pos_of_cons
      omega

/-- Records that take no more than they declare do not go beyond the budget. -/
theorem Accepted.sizeAll_eq {budget : Int} {rs : List StoredRecord} (H : Accepted budget rs)
    (h : ∀ r ∈ rs, (r.content.size : Int) ≤ r.header.contentLength) :
    (sizeAll rs : Int) = max budget 0 := by
  obtain ⟨H, hend⟩ := accepted_iff.mp H
  rcases List.eq_nil_or_concat rs with rfl | ⟨before, last, rfl⟩
  · have : budget ≤ 0 := hend
    rw [Int.max_eq_right this]
    rfl
  · rw [List.concat_eq_append] at H h hend ⊢
    obtain ⟨-, hfits, -⟩ := Framed.cons_iff.mp (Framed.append_iff.mp H).2
    have hlast := h last (by simp)
    have hsize : sizeAll (before ++ [last]) = sizeAll before + (8 + last.content.size) := by
      simp [size]
    simp only [RecordHeader.FitsIn] at hfits
    omega

/-- A byte string begins with framed records until the budget is used up or a rejection follows. -/
theorem framed_until (budget : Int) (bytes : Bytes) :
    ∃ rs tail, bytes = encodeAll rs ++ tail ∧ Framed budget rs ∧
      (budget ≤ sizeAll rs ∨
        sizeAll rs < budget ∧ ∃ f n unread, Rejection (budget - sizeAll rs) tail f n unread) := by
  -- Every record takes bytes off the byte string.
  induction hn : bytes.length using Nat.strongRecOn generalizing budget bytes with
  | _ n ih =>
    by_cases hbudget : budget ≤ 0
    · exact ⟨[], bytes, rfl, .nil _, .inl hbudget⟩
    rcases framed_or_rejection budget bytes with ⟨r, rest, hs, hf, rfl⟩ | ⟨f, m, unread, H⟩
    · have hlength : rest.length < n := by
        have := r.size_pos
        rw [← hn, List.length_append, length_encode]
        omega
      obtain ⟨rs, tail, rfl, H, hend⟩ := ih _ hlength (budget - r.size) rest rfl
      refine ⟨r :: rs, tail, ?_, Framed.cons_iff.mpr ⟨hs, hf, H⟩, ?_⟩
      · rw [encodeAll_cons, List.append_assoc]
      · rw [sizeAll_cons, Int.natCast_add, ← Int.sub_sub]
        rcases hend with hend | ⟨hend, hrej⟩
        · exact .inl (by omega)
        · exact .inr ⟨by omega, hrej⟩
    · refine ⟨[], bytes, rfl, .nil _, .inr ⟨?_, f, m, unread, ?_⟩⟩
      · simpa using hbudget
      · simpa using H

end StoredRecord

/-! ## Readings -/

namespace Desk

open StoredRecord

variable {χ : Type}

/-- A consumer that takes note of every shape and wants all of them. -/
def recorder (note : Shape → χ → χ) : Consumer Plain χ :=
  watcher fun shape memo => (true, note shape memo)

section
variable {budget : Int} {rs : List StoredRecord} {bytes rest : Bytes} (warns : Bool)
  (d : Desk Plain χ) (note : Shape → χ → χ)

theorem recorder_wantsMore (shapes : List Shape) (memo : χ) :
    wantsMore (fun shape memo => (true, note shape memo)) shapes memo = true :=
  wantsMore_of_true (fun _ _ => rfl) shapes memo

theorem run_of_accepted (H : Accepted budget rs) (hbytes : bytes = encodeAll rs ++ rest) :
    run (recorder note) (.start budget warns, { d with source := ⟨bytes⟩ }) =
      .ok rs.length (midway budget warns rs .done,
        { d with
          source := ⟨rest⟩
          log := .totals rs.length (budget - sizeAll rs) :: (mismatches warns rs ++ d.log)
          memo := (shapes 0 rs).foldl (fun memo shape => note shape memo) d.memo }) := by
  obtain ⟨H, hend⟩ := accepted_iff.mp H
  subst hbytes
  exact run_used_up H rfl (recorder_wantsMore note _ _) hend

theorem run_of_rejection {f : Fault} {n : Nat} {unread : Bytes} (H : Framed budget rs)
    (hbytes : bytes = encodeAll rs ++ rest) (hleft : sizeAll rs < budget)
    (hrej : Rejection (budget - sizeAll rs) rest f n unread) :
    run (recorder note) (.start budget warns, { d with source := ⟨bytes⟩ }) =
      .error f ({ midway budget warns rs .failed with
          meter := (midway budget warns rs .failed).meter.count n },
        { d with
          source := ⟨unread⟩
          log := mismatches warns rs ++ d.log
          memo := (shapes 0 rs).foldl (fun memo shape => note shape memo) d.memo }) := by
  subst hbytes
  exact run_rejection H rfl (recorder_wantsMore note _ _) hleft hrej

end

/-- A reading gets through a byte string if and only if it begins with records that are accepted.
These are the only ones, and they are what is delivered and what is consumed. -/
theorem run_accepts (h : Header) (warns : Bool) (bytes : Bytes) (d : Desk Plain χ)
    (note : Shape → χ → χ) :
    ((∃ n s, run (recorder note) (.start h.contentLength warns, { d with source := ⟨bytes⟩ }) =
        .ok n s) ↔
      ∃ rs rest, bytes = encodeAll rs ++ rest ∧ Accepted h.contentLength rs) ∧
    ∀ rs rest, bytes = encodeAll rs ++ rest → Accepted h.contentLength rs →
      (∀ rs' rest', bytes = encodeAll rs' ++ rest' → Accepted h.contentLength rs' →
        rs' = rs ∧ rest' = rest) ∧
      run (recorder note) (.start h.contentLength warns, { d with source := ⟨bytes⟩ }) =
        .ok rs.length
          ({ meter := ⟨sizeAll rs, some (h.contentLength - sizeAll rs)⟩
             phase := .done
             shapeCount := rs.length
             warns },
           { d with
             source := ⟨rest⟩
             log := .totals rs.length (h.contentLength - sizeAll rs) ::
               (mismatches warns rs ++ d.log)
             memo := (shapes 0 rs).foldl (fun memo shape => note shape memo) d.memo }) ∧
      ((∀ r ∈ rs, (r.content.size : Int) ≤ r.header.contentLength) →
        (sizeAll rs : Int) = max h.contentLength 0) ∧
      ((∀ r ∈ rs, (r.content.size : Int) = r.header.contentLength) →
        mismatches warns rs = []) := by
  refine ⟨⟨?_, ?_⟩, ?_⟩
  · rintro ⟨n, s, hrun⟩
    obtain ⟨rs, tail, hbytes, H, hend | ⟨hleft, f, m, unread, hrej⟩⟩ :=
      framed_until h.contentLength bytes
    · exact ⟨rs, tail, hbytes, accepted_iff.mpr ⟨H, hend⟩⟩
    · rw [run_of_rejection warns d note H hbytes hleft hrej] at hrun
      cases hrun
  · rintro ⟨rs, rest, hbytes, H⟩
    exact ⟨_, _, run_of_accepted warns d note H hbytes⟩
  · intro rs rest hbytes H
    refine ⟨fun rs' rest' hbytes' H' => ?_, ?_, H.sizeAll_eq, mismatches_eq_nil⟩
    · exact H'.unique H (hbytes'.symm.trans hbytes)
    · exact run_of_accepted warns d note H hbytes

/-- A reading fails if and only if framed records that do not use up the budget are followed by a
rejection. Those records are delivered, and the rest of the outcome is as the rejection says. -/
theorem run_rejects (h : Header) (warns : Bool) (bytes : Bytes) (d : Desk Plain χ)
    (note : Shape → χ → χ) (f : Fault) (s : Reading × Desk Plain χ) :
    run (recorder note) (.start h.contentLength warns, { d with source := ⟨bytes⟩ }) =
        .error f s ↔
      ∃ rs tail n unread, bytes = encodeAll rs ++ tail ∧ Framed h.contentLength rs ∧
        sizeAll rs < h.contentLength ∧
        Rejection (h.contentLength - sizeAll rs) tail f n unread ∧
        s =
          ({ meter := ⟨sizeAll rs + n, some (h.contentLength - sizeAll rs - n)⟩
             phase := .failed
             shapeCount := rs.length
             warns },
           { d with
             source := ⟨unread⟩
             log := mismatches warns rs ++ d.log
             memo := (shapes 0 rs).foldl (fun memo shape => note shape memo) d.memo }) := by
  constructor
  · intro hrun
    obtain ⟨rs, tail, hbytes, H, hend | ⟨hleft, f', n, unread, hrej⟩⟩ :=
      framed_until h.contentLength bytes
    · rw [run_of_accepted warns d note (accepted_iff.mpr ⟨H, hend⟩) hbytes] at hrun
      cases hrun
    · rw [run_of_rejection warns d note H hbytes hleft hrej] at hrun
      injection hrun with hf hs
      cases hf
      exact ⟨rs, tail, n, unread, hbytes, H, hleft, hrej, hs.symm⟩
  · rintro ⟨rs, tail, n, unread, hbytes, H, hleft, hrej, rfl⟩
    exact run_of_rejection warns d note H hbytes hleft hrej

end Desk
end Shapefile
