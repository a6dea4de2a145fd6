import Shapefile.Proofs.Acceptance
import Shapefile.Proofs.RoundTrip
import Shapefile.Proofs.Stages

/-! # Stopping

A consumer that has enough stops its run where the last record ends that it was handed
(`Desk.run_stops_exactly`). The run has not looked at anything behind that place, neither for the
next record nor for the end of the budget. -/

namespace Shapefile

open StoredRecord
open Desk (endState)

variable {χ : Type}

theorem wantsMore_noting (answer : Shape → χ → Bool × χ) (shapes : List Shape)
    (memo : List Shape × χ) :
    wantsMore (noting answer) shapes memo = wantsMore answer shapes memo.2 := by
  induction shapes generalizing memo with
  | nil => rfl
  | cons shape shapes ih => rw [wantsMore, wantsMore, ih, noting]

theorem mindAfter_noting (answer : Shape → χ → Bool × χ) (shapes : List Shape)
    (memo : List Shape × χ) :
    mindAfter (noting answer) shapes memo =
      (shapes.reverse ++ memo.1, mindAfter answer shapes memo.2) := by
  induction shapes generalizing memo with
  | nil => rfl
  | cons shape shapes ih =>
    refine (ih (noting answer shape memo).2).trans ?_
    rw [noting, List.reverse_cons, List.append_assoc, List.singleton_append]
    rfl

namespace StoredRecord

@[simp] theorem length_shapes (first : Nat) (rs : List StoredRecord) :
    (shapes first rs).length = rs.length := List.length_mapIdx

@[simp] theorem length_encodeAll (rs : List StoredRecord) :
    (encodeAll rs).length = sizeAll rs := by
  induction rs with
  | nil => rfl
  | cons r rs ih => rw [encodeAll_cons, List.length_append, length_encode, ih, sizeAll_cons]

/-- Shapes in a row are split where their records are. -/
theorem shapes_eq_append {first : Nat} {rs : List StoredRecord} {before after : List Shape}
    (h : shapes first rs = before ++ after) :
    ∃ rs₁ rs₂, rs = rs₁ ++ rs₂ ∧ shapes first rs₁ = before ∧
      shapes (first + rs₁.length) rs₂ = after := by
  have hlength : before.length ≤ rs.length := by
    rw [← length_shapes first rs, h, List.length_append]
    omega
  rw [← List.take_append_drop before.length rs, shapes_append] at h
  obtain ⟨hbefore, hafter⟩ := List.append_inj h
    (by rw [length_shapes, List.length_take, Nat.min_eq_left hlength])
  exact ⟨_, _, (List.take_append_drop before.length rs).symm, hbefore, hafter⟩

end StoredRecord

namespace Desk

/-- The shapes that a run delivers whose consumer always wants more. -/
def offered (budget : Int) (warns : Bool) (bytes : Bytes) : List Shape :=
  (endState (run (watcher (noting fun _ memo => (true, memo)))
    (.start budget warns, .init (⟨bytes⟩ : Plain) ([], ())))).2.memo.1.reverse

section
variable {budget : Int} (warns : Bool) {rs : List StoredRecord}

theorem offered_of_accepted (H : Accepted budget rs) (rest : Bytes) :
    offered budget warns (encodeAll rs ++ rest) = shapes 0 rs := by
  obtain ⟨H, hend⟩ := accepted_iff.mp H
  rw [offered, run_used_up H rfl (wantsMore_of_true (fun _ _ => rfl) _ _) hend]
  simp only [endState, init, mindAfter_noting, List.append_nil, List.reverse_reverse]

theorem offered_of_rejection {f : Fault} {n : Nat} {tail unread : Bytes} (H : Framed budget rs)
    (hleft : sizeAll rs < budget) (hrej : Rejection (budget - sizeAll rs) tail f n unread) :
    offered budget warns (encodeAll rs ++ tail) = shapes 0 rs := by
  rw [offered, run_rejection H rfl (wantsMore_of_true (fun _ _ => rfl) _ _) hleft hrej]
  simp only [endState, init, mindAfter_noting, List.append_nil, List.reverse_reverse]

/-- The shapes on offer are those of framed records that the byte string begins with. -/
theorem offered_framed (budget : Int) (bytes : Bytes) :
    ∃ rs rest, bytes = encodeAll rs ++ rest ∧ Framed budget rs ∧
      offered budget warns bytes = shapes 0 rs := by
  obtain ⟨rs, rest, rfl, H, hend | ⟨hleft, f, n, unread, hrej⟩⟩ := framed_until budget bytes
  · exact ⟨rs, rest, rfl, H, offered_of_accepted warns (accepted_iff.mpr ⟨H, hend⟩) rest⟩
  · exact ⟨rs, rest, rfl, H, offered_of_rejection warns H hleft hrej⟩

end

/-- A consumer is handed shapes on offer up to the first after which it has enough. The run ends
there without a fault, where the last of their records ends, and it ends alike with every byte
string that agrees up to that place. -/
theorem run_stops_exactly (h : Header) (warns : Bool) (bytes : Bytes)
    (answer : Shape → χ → Bool × χ) (d : Desk Plain (List Shape × χ))
    {before others : List Shape} {shape : Shape}
    (hoffered : offered h.contentLength warns bytes = before ++ shape :: others)
    (hmore : wantsMore answer before d.memo.2 = true)
    (henough : (answer shape (mindAfter answer before d.memo.2)).1 = false) :
    ∃ rs rest, bytes = encodeAll rs ++ rest ∧ Framed h.contentLength rs ∧
      shapes 0 rs = before ++ [shape] ∧
      ∀ bytes' : Bytes, bytes'.take (sizeAll rs) = bytes.take (sizeAll rs) →
        run (watcher (noting answer))
            (.start h.contentLength warns, { d with source := (⟨bytes'⟩ : Plain) }) =
          .ok (before ++ [shape]).length
            ({ meter := ⟨sizeAll rs, some (h.contentLength - sizeAll rs)⟩
               phase := .done
               shapeCount := (before ++ [shape]).length
               warns },
             { d with
               source := (⟨bytes'.drop (sizeAll rs)⟩ : Plain)
               log := .totals (before ++ [shape]).length (h.contentLength - sizeAll rs) ::
                 (mismatches warns rs ++ d.log)
               memo := ((before ++ [shape]).reverse ++ d.memo.1,
                 mindAfter answer (before ++ [shape]) d.memo.2) }) := by
  obtain ⟨all, tail, rfl, H, hall⟩ := offered_framed warns h.contentLength bytes
  obtain ⟨rs, more, rfl, rfl, hmoreShapes⟩ := shapes_eq_append (hall.symm.trans hoffered)
  cases more with
  | nil => cases hmoreShapes
  | cons r unseen =>
    rw [shapes_cons, Nat.zero_add, List.cons.injEq] at hmoreShapes
    obtain ⟨rfl, -⟩ := hmoreShapes
    have hshapes : shapes 0 (rs ++ [r]) = shapes 0 rs ++ [r.shape rs.length] := by
      rw [shapes_append, shapes_cons, shapes_nil, Nat.zero_add]
    have hsplit : encodeAll (rs ++ r :: unseen) ++ tail =
        encodeAll (rs ++ [r]) ++ (encodeAll unseen ++ tail) := by
      rw [List.append_cons, encodeAll_append, List.append_assoc]
    rw [List.append_cons] at H
    have hframed := (Framed.append_iff.mp H).1
    refine ⟨rs ++ [r], _, hsplit, hframed, hshapes, ?_⟩
    intro bytes' hagree
    -- The other byte string begins with the records as well.
    rw [hsplit, List.take_left' (length_encodeAll _)] at hagree
    have hbytes' : bytes' = encodeAll (rs ++ [r]) ++ bytes'.drop (sizeAll (rs ++ [r])) := by
      rw [← hagree, List.take_append_drop]
    have hmore' : wantsMore (noting answer) (shapes 0 rs) d.memo = true := by
      rw [wantsMore_noting]
      exact hmore
    have henough' : (noting answer (r.shape rs.length)
        (mindAfter (noting answer) (shapes 0 rs) d.memo)).1 = false := by
      rw [mindAfter_noting]
      exact henough
    refine (run_stops (d := { d with source := ⟨bytes'⟩ }) hframed (congrArg Plain.mk hbytes')
      hmore' henough').trans ?_
    rw [mindAfter_noting, hshapes, midway]
    simp only [List.length_append, List.length_singleton, length_shapes]

/-- The second record, which declares too little, is the last that is wanted. It makes no difference
that no record follows it. -/
theorem run_stops_exactly_two :
    ∃ s, run (watcher (noting fun _ n => (n == 0, n + 1)))
        (.start sampleHeader.contentLength true,
          .init (⟨encodeAll [⟨7, 2, .null⟩, ⟨-1, 0, .point ⟨⟨3⟩, ⟨4⟩⟩⟩] ++ [9]⟩ : Plain) ([], 0)) =
        .ok 2 s ∧
      s.1.phase = .done ∧
      s.2.memo = ([StoredRecord.shape ⟨-1, 0, .point ⟨⟨3⟩, ⟨4⟩⟩⟩ 1,
        StoredRecord.shape ⟨7, 2, .null⟩ 0], 2) := by
  have hframed : Framed sampleHeader.contentLength
      [⟨7, 2, .null⟩, ⟨-1, 0, .point ⟨⟨3⟩, ⟨4⟩⟩⟩] :=
    Framed.cons_iff.mpr ⟨⟨by decide, by decide, by decide⟩, ⟨by decide, by decide⟩,
      Framed.cons_iff.mpr ⟨⟨by decide, by decide, by decide⟩, ⟨by decide, by decide⟩, .nil _⟩⟩
  have hoffered : offered sampleHeader.contentLength true
      (encodeAll [⟨7, 2, .null⟩, ⟨-1, 0, .point ⟨⟨3⟩, ⟨4⟩⟩⟩] ++ [9]) =
      [StoredRecord.shape ⟨7, 2, .null⟩ 0] ++
        StoredRecord.shape ⟨-1, 0, .point ⟨⟨3⟩, ⟨4⟩⟩⟩ 1 :: [] :=
    offered_of_rejection true hframed (by decide) (.number (by decide : ([9] : Bytes).length < 4))
  obtain ⟨rs, rest, -, -, -, hrun⟩ := run_stops_exactly sampleHeader true _
    (fun _ n => (n == 0, n + 1)) (.init ⟨[]⟩ ([], 0)) hoffered rfl rfl
  exact ⟨_, hrun _ rfl, rfl, rfl⟩

end Desk
end Shapefile
