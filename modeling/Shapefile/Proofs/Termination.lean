import Shapefile.Proofs.ClientSteps

/-! # Every reading ends

The course of a run is what the iterator and the consumer make it, with no bound on its rounds
(`Reading.Course`). It comes to an end all the same, on any source: a shape takes twelve bytes off
the budget or more, and no client gives any back (`Desk.run_ends`). So the fuel of `deliver` is
never used up. -/

namespace Shapefile

namespace Reading

variable {ε : Type}

/-- A call of a consumer: the reading as it was asked for a shape, the shape, and the reading as the
consumer finds it. -/
structure Call (ε : Type) where
  asked : Reading × ε
  shape : Shape
  found : Reading × ε

/-- The rounds of a run, with the calls of the consumer in their order and what becomes of them. -/
inductive Course (link : Link ε) (consumer : Consumer ε) :
    Iterator → Reading × ε → List (Call ε) → EStateM.Result Fault (Reading × ε) Unit → Prop where
  /-- There are no more shapes. -/
  | ended {it : Iterator} {s t : Reading × ε} (next : it.next link s = .ok none t) :
    Course link consumer it s [] (.ok () t)
  /-- The reading fails, or it refuses the iterator. -/
  | failed {it : Iterator} {s t : Reading × ε} {f : Fault} (next : it.next link s = .error f t) :
    Course link consumer it s [] (.error f t)
  | enough {it : Iterator} {s t u : Reading × ε} {shape : Shape}
      (next : it.next link s = .ok (some shape) t) (answer : consumer shape t = .ok false u) :
    Course link consumer it s [⟨s, shape, t⟩] (.ok () (Iterator.suspended.close link u))
  | fault {it : Iterator} {s t u : Reading × ε} {shape : Shape} {f : Fault}
      (next : it.next link s = .ok (some shape) t) (answer : consumer shape t = .error f u) :
    Course link consumer it s [⟨s, shape, t⟩] (.error f u)
  | more {it : Iterator} {s t u : Reading × ε} {shape : Shape} {calls : List (Call ε)}
      {r : EStateM.Result Fault (Reading × ε) Unit}
      (next : it.next link s = .ok (some shape) t) (answer : consumer shape t = .ok true u)
      (rest : Course link consumer .suspended u calls r) :
    Course link consumer it s (⟨s, shape, t⟩ :: calls) r

variable {link : Link ε} {consumer : Consumer ε} {it : Iterator} {s t : Reading × ε}

namespace Course

variable {calls calls' : List (Call ε)} {r r' : EStateM.Result Fault (Reading × ε) Unit}

/-- Fuel beyond the number of calls makes no difference. -/
theorem deliver_eq (H : Course link consumer it s calls r) {fuel : Nat}
    (hfuel : calls.length < fuel) : deliver link consumer fuel it s = r := by
  obtain ⟨fuel, rfl⟩ := Nat.exists_eq_add_one_of_ne_zero (Nat.ne_zero_of_lt hfuel)
  induction H generalizing fuel with
  | ended next | failed next => simp only [deliver, next]
  | enough next answer | fault next answer => simp only [deliver, next, answer]
  | more next answer rest ih =>
    rw [List.length_cons, Nat.add_lt_add_iff_right] at hfuel
    obtain ⟨fuel, rfl⟩ := Nat.exists_eq_add_one_of_ne_zero (Nat.ne_zero_of_lt hfuel)
    simp only [deliver, next, answer]
    exact ih fuel hfuel

/-- A run has one course. -/
theorem unique (H : Course link consumer it s calls r) (H' : Course link consumer it s calls' r') :
    calls = calls' ∧ r = r' := by
  induction H generalizing calls' with
  | ended next =>
    cases H' with
    | ended next' =>
      cases next.symm.trans next'
      exact ⟨rfl, rfl⟩
    | failed next' | enough next' | fault next' | more next' => cases next.symm.trans next'
  | failed next =>
    cases H' with
    | failed next' =>
      cases next.symm.trans next'
      exact ⟨rfl, rfl⟩
    | ended next' | enough next' | fault next' | more next' => cases next.symm.trans next'
  | enough next answer =>
    cases H' with
    | ended next' | failed next' => cases next.symm.trans next'
    | enough next' answer' =>
      cases next.symm.trans next'
      cases answer.symm.trans answer'
      exact ⟨rfl, rfl⟩
    | fault next' answer' | more next' answer' =>
      cases next.symm.trans next'
      cases answer.symm.trans answer'
  | fault next answer =>
    cases H' with
    | ended next' | failed next' => cases next.symm.trans next'
    | fault next' answer' =>
      cases next.symm.trans next'
      cases answer.symm.trans answer'
      exact ⟨rfl, rfl⟩
    | enough next' answer' | more next' answer' =>
      cases next.symm.trans next'
      cases answer.symm.trans answer'
  | more next answer _ ih =>
    cases H' with
    | ended next' | failed next' => cases next.symm.trans next'
    | enough next' answer' | fault next' answer' =>
      cases next.symm.trans next'
      cases answer.symm.trans answer'
    | more next' answer' rest' =>
      cases next.symm.trans next'
      cases answer.symm.trans answer'
      obtain ⟨rfl, rfl⟩ := ih rest'
      exact ⟨rfl, rfl⟩

end Course

/-! ## The budget -/

/-- A consumer that gives no bytes back to the budget. -/
def Consumer.IsThrifty (consumer : Consumer ε) : Prop :=
  ∀ shape s, (Desk.endState (consumer shape s)).1.left ≤ s.1.left

/-- A record is a header of eight bytes and a shape type of four at the least. -/
theorem left_add_twelve_le {shape : Shape} (h : advance link s = .ok (some shape) t) :
    0 < s.1.left ∧ t.1.left + 12 ≤ s.1.left := by
  obtain ⟨rd, e⟩ := t
  obtain ⟨hpos, record, meter, _, -, hread, rfl⟩ := record_of_advance h
  obtain ⟨rfl, hdecoded, -⟩ := Record.read_takes hread
  refine ⟨hpos, ?_⟩
  simp only [left, Meter.left_count_of_pos hpos]
  omega

theorem Iterator.left_of_next {shape : Shape} (h : it.next link s = .ok (some shape) t) :
    0 < s.1.left ∧ t.1.left + 12 ≤ s.1.left := by
  cases it with
  | fresh =>
    simp only [next] at h
    split at h
    · exact left_add_twelve_le (s := ({ s.1 with phase := .reading }, s.2)) h
    · cases h
  | suspended => exact left_add_twelve_le h
  | finished => cases h

/-- With a consumer that gives nothing back there is a course, of no more calls than there are
twelves of bytes, the last of which may not be whole. -/
theorem exists_course (hthrifty : consumer.IsThrifty) (it : Iterator) (s : Reading × ε) :
    ∃ calls r, Course link consumer it s calls r ∧ calls.length ≤ (s.1.left.toNat + 11) / 12 ∧
      ∀ call ∈ calls, call.found.1.left + 12 ≤ call.asked.1.left := by
  -- On what is left of the budget: each round is one of at least twelve bytes.
  induction hleft : s.1.left.toNat using Nat.strongRecOn generalizing it s with
  | _ n ih =>
    cases hnext : it.next link s with
    | error f t => exact ⟨[], _, .failed hnext, Nat.zero_le _, List.forall_mem_nil _⟩
    | ok shape? t =>
      cases shape? with
      | none => exact ⟨[], _, .ended hnext, Nat.zero_le _, List.forall_mem_nil _⟩
      | some shape =>
        obtain ⟨hpos, htaken⟩ := Iterator.left_of_next hnext
        have hone : 1 ≤ (n + 11) / 12 := by omega
        cases hanswer : consumer shape t with
        | error f u =>
          exact ⟨_, _, .fault hnext hanswer, hone, List.forall_mem_singleton.mpr htaken⟩
        | ok more u =>
          cases more with
          | false =>
            exact ⟨_, _, .enough hnext hanswer, hone, List.forall_mem_singleton.mpr htaken⟩
          | true =>
            have hu : u.1.left ≤ t.1.left := by
              have hu := hthrifty shape t
              rwa [hanswer] at hu
            obtain ⟨calls, r, hrest, hcount, hcalls⟩ :=
              ih u.1.left.toNat (by omega) .suspended u rfl
            refine ⟨_, r, .more hnext hanswer hrest, ?_, List.forall_mem_cons.mpr ⟨htaken, hcalls⟩⟩
            rw [List.length_cons]
            omega

end Reading

namespace Desk

open Reading (Consumer.IsThrifty)

variable {σ : Type} [Source σ]

theorem Client.exec_left_le (c : Client) (s : State σ) :
    (endState (c.exec chronicler s)).1.left ≤ s.1.left := (steps_onward (c.exec_used s).steps).1

theorem handing_isThrifty (j : Nat) (consumer : Shape → Client) :
    Consumer.IsThrifty
      (chronicler.handing j fun shape => (consumer shape).exec (chronicler (σ := σ))) := by
  intro shape s
  rw [chronicler_handing]
  exact (consumer shape).exec_left_le (note (.handed j shape) s)

/-- A run ends on any source, whatever clients did before and whatever its consumer does: it has one
course, of no more calls than there are twelves of bytes in the content of the file, the last of
which may not be whole, and each takes twelve bytes of the budget or more. Neither the consumer nor
any read of it gives bytes back. -/
theorem run_ends (source : σ) (h : Header) (warns : Bool) (before : Client)
    (consumer : Shape → Client) :
    let s := endState
      (before.exec chronicler (Reading.start h.contentLength warns, Desk.init source []))
    let callback := chronicler.handing (runCount (history s.2.memo)) fun shape =>
      (consumer shape).exec chronicler
    (∃ calls r,
      (∀ calls' r', Reading.Course link callback .fresh s calls' r' ↔ calls' = calls ∧ r' = r) ∧
      Desk.run callback s = concluded r ∧
      calls.length ≤ ((max h.contentLength 0).toNat + 11) / 12 ∧
      ∀ call ∈ calls, call.found.1.left + 12 ≤ call.asked.1.left) ∧
    (∀ shape (t : State σ), (endState (callback shape t)).1.left ≤ t.1.left) ∧
    ∀ (n : Int) (t : State σ), (endState (Desk.skip n t)).1.left ≤ t.1.left := by
  intro s callback
  have hthrifty : Consumer.IsThrifty callback := handing_isThrifty _ consumer
  refine ⟨?_, hthrifty, fun n t => (skip_onward n t).left⟩
  obtain ⟨calls, r, hcourse, hcount, hcalls⟩ := Reading.exists_course hthrifty .fresh s
  have hleft : s.1.left ≤ h.contentLength := before.exec_left_le _
  refine ⟨calls, r, fun calls' r' => ⟨fun h' => h'.unique hcourse, ?_⟩, ?_, by omega, hcalls⟩
  · rintro ⟨rfl, rfl⟩
    exact hcourse
  · rw [run_eq_concluded, hcourse.deliver_eq (by omega)]

end Desk
end Shapefile
