import Shapefile.Reading.Basic

/-! # The steps of a run

What a run comes to when the reading goes on in one way or the other and the consumer answers. -/

namespace Shapefile

namespace Reading
variable {ε : Type} {link : Link ε} {consumer : Consumer ε} {s t : Reading × ε} {fuel : Nat}

theorem deliver_fresh {rd : Reading} {e : ε} (h : rd.phase = .ready) :
    deliver link consumer (fuel + 1) .fresh (rd, e) =
      deliver link consumer (fuel + 1) .suspended ({ rd with phase := .reading }, e) := by
  simp only [deliver, Iterator.next, h, if_true]

theorem deliver_refused {rd : Reading} {e : ε} (h : rd.phase ≠ .ready) :
    deliver link consumer (fuel + 1) .fresh (rd, e) = .error (.alreadyRead rd.phase) (rd, e) := by
  simp only [deliver, Iterator.next, if_neg h]

theorem deliver_of_end (h : advance link s = .ok none t) :
    deliver link consumer (fuel + 1) .suspended s = .ok () t := by
  simp only [deliver, Iterator.next, h]

theorem deliver_of_error {f : Fault} (h : advance link s = .error f t) :
    deliver link consumer (fuel + 1) .suspended s = .error f t := by
  simp only [deliver, Iterator.next, h]

theorem deliver_of_more {shape : Shape} {u : Reading × ε}
    (h : advance link s = .ok (some shape) t) (hc : consumer shape t = .ok true u) :
    deliver link consumer (fuel + 1) .suspended s = deliver link consumer fuel .suspended u := by
  simp only [deliver, Iterator.next, h, hc]

theorem deliver_of_enough {shape : Shape} {u : Reading × ε}
    (h : advance link s = .ok (some shape) t) (hc : consumer shape t = .ok false u) :
    deliver link consumer (fuel + 1) .suspended s = .ok () (settle link u) := by
  simp only [deliver, Iterator.next, h, hc, Iterator.close]

theorem deliver_of_fault {shape : Shape} {u : Reading × ε} {f : Fault}
    (h : advance link s = .ok (some shape) t) (hc : consumer shape t = .error f u) :
    deliver link consumer (fuel + 1) .suspended s = .error f u := by
  simp only [deliver, Iterator.next, h, hc]

theorem run_of_ok {rd : Reading} {e : ε}
    (h : deliver link consumer (s.1.left.toNat + 1) .fresh s = .ok () (rd, e)) :
    run link consumer s = .ok rd.shapeCount (rd, e) := by
  simp only [run, h]

theorem run_of_error {rd : Reading} {e : ε} {f : Fault}
    (h : deliver link consumer (s.1.left.toNat + 1) .fresh s = .error f (rd, e)) :
    run link consumer s = .error f ({ rd with phase := .failed }, e) := by
  simp only [run, h]

theorem advance_of_left {rd : Reading} {e : ε} (h : rd.left ≤ 0) :
    advance link (rd, e) = .ok none (settle link (rd, e)) := by
  simp only [advance, if_pos h]

theorem shapeCount_settle (link : Link ε) (s : Reading × ε) :
    (settle link s).1.shapeCount = s.1.shapeCount := by
  obtain ⟨rd, e⟩ := s
  simp only [settle]
  split <;> rfl

end Reading

end Shapefile
