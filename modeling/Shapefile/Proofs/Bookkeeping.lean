import Mathlib.Algebra.Ring.Nat
import Shapefile.Proofs.Exchanges
import Shapefile.Proofs.RecordFailure

/-! # The books of a meter

A meter may stay in use after a read has failed. Whatever the stream answers, the meter counts the
answers of exactly the bytes that were asked for and nothing else, and each of the other answers
makes a read fail (`Meter.Audited`). This goes through from reads to fields and to calls in any
order, and so what a meter tells is right at any moment (`Meter.books_kept`). -/

namespace Shapefile

open Desk (outcome endState)

/-! ## Requests -/

namespace Request

/-- The request as an exchange with the one stream that there is. -/
def exchange (r : Request) : Exchange Unit := .answered () r.1 r.2

/-- The number of bytes in an answer of exactly those that were asked for. -/
def taken (r : Request) : Nat := (r.exchange.bytes ()).length

/-- What a read fails with because of the answer. -/
def fault? (r : Request) : Option Fault := r.exchange.fault?

/-- An answer is exact, or it leads to a fault. -/
theorem exact_or_fault (r : Request) :
    (∃ data : Bytes, r = ((data.length : Int), .ok data)) ∨ ∃ f, r.fault? = some f := by
  obtain ⟨n, f | data⟩ := r
  · exact .inr ⟨_, rfl⟩
  · by_cases h : (data.length : Int) = n
    · exact .inl ⟨data, by rw [h]⟩
    · exact .inr ⟨_, if_neg h⟩

theorem taken_of_exact (data : Bytes) : taken ((data.length : Int), .ok data) = data.length :=
  congrArg List.length (Exchange.bytes_of_length rfl ())

theorem fault?_of_exact (data : Bytes) : fault? ((data.length : Int), .ok data) = none :=
  if_pos rfl

theorem taken_of_fault {r : Request} {f : Fault} (h : r.fault? = some f) : r.taken = 0 :=
  congrArg List.length (Exchange.bytes_of_fault h ())

end Request

/-- The number of bytes in all the exact answers. -/
def takenOf (requests : List Request) : Nat := (requests.map Request.taken).sum

/-- The faults that come of requests, in order. -/
def faultsOf (requests : List Request) : List Fault := requests.filterMap Request.fault?

theorem takenOf_cons (r : Request) (requests : List Request) :
    takenOf (r :: requests) = r.taken + takenOf requests := List.sum_cons

theorem takenOf_append (requests requests' : List Request) :
    takenOf (requests ++ requests') = takenOf requests + takenOf requests' := by
  rw [takenOf, List.map_append, List.sum_append, takenOf, takenOf]

theorem faultsOf_cons (r : Request) (requests : List Request) :
    faultsOf (r :: requests) = r.fault?.toList ++ faultsOf requests := by
  cases h : r.fault? with
  | none => exact List.filterMap_cons_none h
  | some f => exact List.filterMap_cons_some h

theorem faultsOf_append (requests requests' : List Request) :
    faultsOf (requests ++ requests') = faultsOf requests ++ faultsOf requests' :=
  List.filterMap_append

/-- How far a stream moves at a request, by all that it was asked before. It moves by what it gives
as long as that is not more than was asked for; where it gives more or fails, it may have moved by
anything. -/
def Moves (advance : List Request → Request → Nat) : Prop :=
  ∀ (before : List Request) (n : Int) (data : Bytes), (data.length : Int) ≤ n →
    advance before (n, .ok data) = data.length

/-- How far a stream that was asked `before` moves at those of the requests that are not for a
negative number of bytes. -/
def advanceOf (advance : List Request → Request → Nat) (before : List Request) :
    List Request → Nat
  | [] => 0
  | r :: requests =>
    (if 0 ≤ r.1 then advance before r else 0) + advanceOf advance (before ++ [r]) requests

section
variable {advance : List Request → Request → Nat} (H : Moves advance)
include H

/-- At an exact answer a stream moves by what is taken. -/
theorem advanceOf_cons_of_exact (before : List Request) (data : Bytes) (requests : List Request) :
    advanceOf advance before (((data.length : Int), .ok data) :: requests) =
      data.length + advanceOf advance (before ++ [((data.length : Int), .ok data)]) requests := by
  rw [advanceOf, if_pos (Int.natCast_nonneg _), H before data.length data (Int.le_refl _)]

theorem takenOf_le_advanceOf (before requests : List Request) :
    takenOf requests ≤ advanceOf advance before requests := by
  induction requests generalizing before with
  | nil => exact Nat.le_refl 0
  | cons r requests ih =>
    rcases r.exact_or_fault with ⟨data, rfl⟩ | ⟨f, hfault⟩
    · rw [takenOf_cons, Request.taken_of_exact, advanceOf_cons_of_exact H]
      exact Nat.add_le_add_left (ih _) _
    · calc takenOf (r :: requests)
          = takenOf requests := by rw [takenOf_cons, Request.taken_of_fault hfault, Nat.zero_add]
        _ ≤ advanceOf advance (before ++ [r]) requests := ih _
        _ ≤ advanceOf advance before (r :: requests) := Nat.le_add_left _ _

theorem takenOf_eq_advanceOf (before : List Request) {requests : List Request}
    (h : faultsOf requests = []) : takenOf requests = advanceOf advance before requests := by
  induction requests generalizing before with
  | nil => rfl
  | cons r requests ih =>
    rcases r.exact_or_fault with ⟨data, rfl⟩ | ⟨f, hfault⟩
    · rw [faultsOf_cons, Request.fault?_of_exact, Option.toList_none, List.nil_append] at h
      rw [takenOf_cons, Request.taken_of_exact, advanceOf_cons_of_exact H, ← ih _ h]
    · rw [faultsOf_cons, hfault] at h
      cases h

end

namespace Meter

/-! ## What is read under a meter -/

/-- A read under a meter: of a number of bytes, or of a field. -/
inductive Call where
  | bytes (n : Int)
  | int16BE
  | int32BE
  | int32LE
  | float64LE
  | halves
deriving DecidableEq, Repr

namespace Call

/-- The number of bytes that the read is for. -/
def width : Call → Nat
  | bytes n => n.toNat
  | int16BE => 2
  | int32BE | int32LE | halves => 4
  | float64LE => 8

/-- Reads, and drops what was read. -/
def perform {ε : Type} (feed : Feed ε) : Call → Metered ε Unit
  | bytes n => do let _ ← read feed n
  | int16BE => do let _ ← readInt16BE feed
  | int32BE => do let _ ← readInt32BE feed
  | int32LE => do let _ ← readInt32LE feed
  | float64LE => do let _ ← readFloat64LE feed
  | halves => do let _ ← readHalves feed

end Call

/-- The fault of a call that failed. -/
def failure {τ α : Type} : EStateM.Result Fault τ α → List Fault
  | .ok .. => []
  | .error f _ => [f]

/-- Calls one after the other, those after a failure too: the faults of the calls that failed, in
order, and where all this ends. -/
def performAll {ε : Type} (feed : Feed ε) : List Call → Meter × ε → List Fault × (Meter × ε)
  | [], s => ([], s)
  | call :: calls, s =>
    let r := call.perform feed s
    let later := performAll feed calls (endState r)
    (failure r ++ later.1, later.2)

/-! ## What is counted -/

/-- What lies between two states of a meter and its stream: these requests, which led to these
faults. -/
structure Passed (s : Meter × Adaptive) (requests : List Request) (faults : List Fault)
    (t : Meter × Adaptive) : Prop where
  asked : t.2.asked = s.2.asked ++ requests
  failed : faultsOf requests = faults
  counted : t.1 = s.1.count (takenOf requests)

namespace Passed

variable {s t u : Meter × Adaptive} {requests requests' : List Request}
  {faults faults' : List Fault}

theorem refl (s : Meter × Adaptive) : Passed s [] [] s :=
  ⟨(List.append_nil _).symm, rfl, (count_zero s.1).symm⟩

theorem append (H : Passed s requests faults t) (H' : Passed t requests' faults' u) :
    Passed s (requests ++ requests') (faults ++ faults') u where
  asked := by rw [H'.asked, H.asked, List.append_assoc]
  failed := by rw [faultsOf_append, H.failed, H'.failed]
  counted := by rw [H'.counted, H.counted, count_count, takenOf_append]

end Passed

/-- A computation that makes requests, counts those that are answered exactly and fails with what
the others lead to. -/
def Audited {α : Type} (x : Metered Adaptive α) : Prop :=
  ∀ s, ∃ requests, Passed s requests (failure (x s)) (endState (x s))

namespace Audited

variable {α β : Type}

theorem pure (a : α) : Audited (pure a) := fun s => ⟨[], .refl s⟩

theorem bind {x : Metered Adaptive α} {f : α → Metered Adaptive β} (hx : Audited x)
    (hf : ∀ a, Audited (f a)) : Audited (x >>= f) := by
  intro s
  obtain ⟨requests, hrequests⟩ := hx s
  cases hxs : x s with
  | error e t =>
    rw [hxs] at hrequests
    rw [bind_of_error hxs]
    exact ⟨requests, hrequests⟩
  | ok a t =>
    rw [hxs] at hrequests
    rw [bind_of_ok hxs]
    obtain ⟨requests', hrequests'⟩ := hf a t
    exact ⟨requests ++ requests', hrequests.append hrequests'⟩

end Audited

theorem read_audited (n : Int) : Audited (read Source.read n) := by
  intro s
  have hasked := Adaptive.asked_read n s.2
  refine ⟨[(n, outcome (Source.read n s.2))], ?_⟩
  have hends := read_ends Source.read n s
  generalize read Source.read n s = r at hends ⊢
  cases hends with
  | @exact data stream answer length =>
    rw [answer] at hasked ⊢
    subst length
    refine ⟨hasked, ?_, ?_⟩
    · rw [outcome, faultsOf_cons, Request.fault?_of_exact]
      rfl
    · rw [outcome, takenOf_cons, Request.taken_of_exact]
      rfl
  | @inexact data stream answer length =>
    rw [answer] at hasked ⊢
    have hfault : Request.fault? (n, .ok data) = some (.wrongCount n data.length) := if_neg length
    refine ⟨hasked, ?_, ?_⟩
    · rw [outcome, faultsOf_cons, hfault]
      rfl
    · rw [outcome, takenOf_cons, Request.taken_of_fault hfault]
      exact (count_zero s.1).symm
  | refused answer =>
    rw [answer] at hasked ⊢
    exact ⟨hasked, rfl, (count_zero s.1).symm⟩

theorem readInt16BE_audited : Audited (readInt16BE Source.read) :=
  (read_audited 2).bind fun _ => .pure _

theorem Call.perform_audited (call : Call) : Audited (call.perform Source.read) := by
  cases call with
  | bytes n => exact (read_audited n).bind fun _ => .pure _
  | int16BE => exact readInt16BE_audited.bind fun _ => .pure _
  | int32BE | int32LE => exact ((read_audited 4).bind fun _ => .pure _).bind fun _ => .pure _
  | float64LE => exact ((read_audited 8).bind fun _ => .pure _).bind fun _ => .pure _
  | halves =>
    exact (readInt16BE_audited.bind fun _ => readInt16BE_audited.bind fun _ => .pure _).bind
      fun _ => .pure _

theorem performAll_passed (calls : List Call) (s : Meter × Adaptive) :
    ∃ requests, Passed s requests (performAll Source.read calls s).1
      (performAll Source.read calls s).2 := by
  induction calls generalizing s with
  | nil => exact ⟨[], .refl s⟩
  | cons call calls ih =>
    obtain ⟨requests, hcall⟩ := call.perform_audited s
    obtain ⟨requests', hcalls⟩ := ih (endState (call.perform Source.read s))
    exact ⟨requests ++ requests', hcall.append hcalls⟩

/-! ## Single calls -/

namespace Call

variable {ε : Type} (feed : Feed ε)

theorem perform_takes (call : Call) : Takes call.width (call.perform feed) := by
  cases call with
  | bytes n =>
    intro s t a h
    obtain ⟨data, u, hread, h⟩ := bind_eq_ok h
    cases h
    obtain rfl := length_of_read hread
    exact read_takes feed data.length hread
  | int16BE => exact (readInt16BE_takes feed).bind fun _ => .pure _
  | int32BE => exact (readInt32BE_takes feed).bind fun _ => .pure _
  | int32LE => exact (readInt32LE_takes feed).bind fun _ => .pure _
  | float64LE => exact (readFloat64LE_takes feed).bind fun _ => .pure _
  | halves => exact (readHalves_takes feed).bind fun _ => .pure _

/-- A read that fails counts nothing, so that only what takes more than one read can have counted
anything when it fails. -/
theorem perform_failsAfter (call : Call) :
    FailsAfter (if call = .halves then [0, 2] else [0]) (call.perform feed) := by
  cases call with
  | bytes n => exact (read_failsAfter feed n).map _
  | int16BE => exact (readInt16BE_failsAfter feed).map _
  | int32BE => exact (readInt32BE_failsAfter feed).map _
  | int32LE => exact (readInt32LE_failsAfter feed).map _
  | float64LE => exact (readFloat64LE_failsAfter feed).map _
  | halves => exact (readHalves_failsAfter feed).map _

theorem perform_fails {call : Call} {s t : Meter × ε} {f : Fault}
    (h : call.perform feed s = .error f t) :
    t.1 = s.1 ∨ call = .halves ∧ t.1 = s.1.count 2 := by
  obtain ⟨n, hn, ht⟩ := call.perform_failsAfter feed h
  split at hn
  · rename_i hcall
    simp only [List.mem_cons, List.not_mem_nil, or_false] at hn
    rcases hn with rfl | rfl
    · exact .inl (ht.trans (count_zero s.1))
    · exact .inr ⟨hcall, ht⟩
  · rw [List.mem_singleton.mp hn, count_zero] at ht
    exact .inl ht

/-- No answer has a negative number of bytes. -/
theorem perform_negative {n : Int} (hn : n < 0) (s : Meter × ε) :
    ∃ f t, (bytes n).perform feed s = .error f t := by
  cases hread : read feed n s with
  | error f t => exact ⟨f, t, bind_of_error hread⟩
  | ok data t =>
    have hlength := length_of_read hread
    omega

end Call

/-! ## What the meter tells -/

theorem isExhausted_count {m : Meter} (h : m.isExhausted = true) (n : Nat) :
    (m.count n).isExhausted = true := by
  obtain ⟨consumed, remaining⟩ := m
  cases remaining with
  | none => cases h
  | some left =>
    have hleft : left ≤ 0 := of_decide_eq_true h
    exact decide_eq_true (show left - n ≤ 0 by omega)

/-- What a meter tells that was started with the budget, after these requests to a stream that was
asked `before`, and the faults that came of them. -/
structure Books (budget : Option Int) (before requests : List Request) (faults : List Fault)
    (m : Meter) : Prop where
  /-- A read fails where the answer is not exact, and nowhere else. -/
  failed : faultsOf requests = faults
  consumed : m.consumed = takenOf requests
  remaining : m.remaining = budget.map (· - (m.consumed : Int))
  exhausted : m.isExhausted = budget.any fun whole : Int => whole ≤ m.consumed
  /-- No more is counted than the stream has moved, and all of it unless a read has failed. -/
  advanced : ∀ advance, Moves advance → m.consumed ≤ advanceOf advance before requests ∧
    (faults = [] → m.consumed = advanceOf advance before requests)

theorem Passed.books {budget : Option Int} {stream : Adaptive} {requests : List Request}
    {faults : List Fault} {t : Meter × Adaptive}
    (H : Passed (.start budget, stream) requests faults t) :
    Books budget stream.asked requests faults t.1 := by
  have hconsumed : t.1.consumed = takenOf requests := by
    rw [H.counted, count_consumed]
    exact Nat.zero_add _
  have hremaining : t.1.remaining = budget.map (· - (t.1.consumed : Int)) := by
    rw [hconsumed, H.counted]
    rfl
  have hexhausted : t.1.isExhausted = budget.any fun whole : Int => whole ≤ t.1.consumed := by
    rw [isExhausted, hremaining, Option.any_map]
    exact congrArg budget.any (funext fun whole => decide_eq_decide.mpr (by omega))
  refine ⟨H.failed, hconsumed, hremaining, hexhausted, fun advance hmoves => ⟨?_, fun hnone => ?_⟩⟩
  · rw [hconsumed]
    exact takenOf_le_advanceOf hmoves _ requests
  · rw [hconsumed]
    exact takenOf_eq_advanceOf hmoves _ (H.failed.trans hnone)

/-- Whatever a stream answers and whatever is read of it, a meter has the books right at any moment.
From one moment to a later one the count does not fall, and a budget that is used up remains so. A
call that succeeds counts all that it reads. One that fails counts nothing, unless it is for a
length in two halves, of which it may have counted the first. To ask for a negative number of bytes
is to fail. -/
theorem books_kept (budget : Option Int) (stream : Adaptive) (calls : List Call) :
    let faults := (performAll Source.read calls (.start budget, stream)).1
    let s := (performAll Source.read calls (.start budget, stream)).2
    (∃ requests, s.2.asked = stream.asked ++ requests ∧
      Books budget stream.asked requests faults s.1) ∧
    (∀ later, let t := (performAll Source.read later s).2
      s.1.consumed ≤ t.1.consumed ∧ (s.1.isExhausted = true → t.1.isExhausted = true)) ∧
    (∀ call : Call,
      (∀ t, call.perform Source.read s = .ok () t → t.1 = s.1.count call.width) ∧
      ∀ f t, call.perform Source.read s = .error f t →
        t.1 = s.1 ∨ call = .halves ∧ t.1 = s.1.count 2) ∧
    ∀ n < 0, ∃ f t, (Call.bytes n).perform Source.read s = .error f t := by
  intro faults s
  refine ⟨?_, fun later => ?_, fun call => ⟨?_, ?_⟩, fun n hn => ?_⟩
  · obtain ⟨requests, h⟩ := performAll_passed calls (.start budget, stream)
    exact ⟨requests, h.asked, h.books⟩
  · intro t
    obtain ⟨requests, h⟩ := performAll_passed later s
    have hcounted : t.1 = s.1.count (takenOf requests) := h.counted
    rw [hcounted]
    exact ⟨Nat.le_add_right _ _, fun hexhausted => isExhausted_count hexhausted _⟩
  · intro t h
    exact call.perform_takes Source.read h
  · intro f t h
    exact Call.perform_fails Source.read h
  · exact Call.perform_negative Source.read hn s

/-- A stream that gives what it is asked for twice, and then one byte too few. -/
def stinting : Adaptive where
  answer asked n := .ok (List.replicate (n.natAbs - asked.length / 2) 7)
  asked := []

/-- The number of bytes that a request is answered with. -/
def given (_ : List Request) : Request → Nat
  | (_, .ok data) => data.length
  | (_, .error _) => 0

/-- A budget of four bytes is used up by the first read. After it two bytes can be read, a length
fails in its second half, and a negative number of bytes fails. -/
theorem books_kept_stinting :
    let s := (performAll Source.read [.int32BE] (.start (some 4), stinting)).2
    (∃ requests, s.2.asked = requests ∧ s.1.consumed = advanceOf given [] requests) ∧
    (performAll Source.read [.int16BE, .halves] s).2.1.isExhausted = true ∧
    (∃ t, Call.int16BE.perform Source.read s = .ok () t ∧ t.1 = s.1.count 2) ∧
    (∃ f t, Call.halves.perform Source.read s = .error f t ∧
      (t.1 = s.1 ∨ Call.halves = .halves ∧ t.1 = s.1.count 2)) ∧
    ∃ f t, (Call.bytes (-3)).perform Source.read s = .error f t := by
  obtain ⟨⟨requests, hasked, hbooks⟩, hlater, hcalls, hnegative⟩ :=
    books_kept (some 4) stinting [.int32BE]
  have hgiven : Moves given := fun _ _ _ _ => rfl
  refine ⟨⟨requests, hasked, (hbooks.advanced given hgiven).2 rfl⟩, ?_, ?_, ?_, ?_⟩
  · exact (hlater [.int16BE, .halves]).2 rfl
  · exact ⟨_, rfl, (hcalls .int16BE).1 _ rfl⟩
  · exact ⟨_, _, rfl, (hcalls .halves).2 _ _ rfl⟩
  · exact hnegative (-3) (by decide)

end Meter
end Shapefile
