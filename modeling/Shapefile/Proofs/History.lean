import Shapefile.Reading.Desk

/-! # What happens to a reading

A history is what users of a reading do and get, each event with the reading as it was right after
it. The laws that events keep, each in view of the earlier ones, amount to this: the reading is read
once, by one reader, and every shape is delivered once. -/

namespace Shapefile.Desk

/-- An iterator by its place, or a run by the number of runs before it. -/
inductive Reader where
  | iterator (i : Nat)
  | run (j : Nat)
deriving DecidableEq

inductive Event where
  | made (i : Nat)
  /-- An iterator was asked for a shape while the reading was in a phase. -/
  | asked (i : Nat) (phase : Phase) (outcome : Except Fault (Option Shape))
  | closed (i : Nat)
  | skipped (outcome : Except Fault Bytes)
  | entered (j : Nat) (phase : Phase)
  | handed (j : Nat) (shape : Shape)
  | left (j : Nat) (outcome : Except Fault Nat)

/-- The events so far, the latest first. -/
abbrev History := List (Event × Reading)

/-- The iterator was made, and neither asked nor closed since. -/
def isFresh (i : Nat) : History → Bool
  | [] => false
  | (.made i', _) :: h => i' == i || isFresh i h
  | (.asked i' .., _) :: h | (.closed i', _) :: h => i' != i && isFresh i h
  | _ :: h => isFresh i h

namespace Event

def delivery? : Event → Option (Reader × Shape)
  | asked i _ (.ok (some shape)) => some (.iterator i, shape)
  | handed j shape => some (.run j, shape)
  | _ => none

/-- Who begins to read: an iterator that is asked for the first time or a run, if it finds the
reading ready. -/
def beginner? (earlier : History) : Event → Option Reader
  | asked i .ready _ => if isFresh i earlier then some (.iterator i) else none
  | entered j .ready => some (.run j)
  | _ => none

end Event

/-- All deliveries, in the order of time. -/
def deliveries (h : History) : List (Reader × Shape) :=
  (h.filterMap fun moment => moment.1.delivery?).reverse

def beginners : History → List Reader
  | [] => []
  | (e, _) :: h => (e.beginner? h).toList ++ beginners h

def runCount (h : History) : Nat :=
  h.countP fun moment => match moment.1 with | .entered .. => true | _ => false

/-- What an event tells is what is due after the earlier ones: whoever finds that reading was begun
before is refused, and a run counts what it has handed over. -/
def Event.IsDue (earlier : History) : Event → Prop
  | asked i phase outcome =>
    isFresh i earlier = true → phase ≠ .ready → outcome = .error (.alreadyRead phase)
  | entered j _ => j = runCount earlier
  | left j outcome =>
    (.run j ∉ beginners earlier → ∃ phase, outcome = .error (.alreadyRead phase)) ∧
      ∀ n, outcome = .ok n → n = (deliveries earlier).countP (·.1 = .run j)
  | _ => True

/-- What holds of an event after which the reading is `rd`. -/
structure Lawful (e : Event) (rd : Reading) (earlier : History) : Prop where
  counted : rd.shapeCount = (deliveries ((e, rd) :: earlier)).length
  delivered : ∀ reader shape, e.delivery? = some (reader, shape) →
    shape.objectId = (deliveries earlier).length ∧ reader ∈ beginners ((e, rd) :: earlier)
  first : ∀ reader, e.beginner? earlier = some reader → beginners earlier = []
  due : e.IsDue earlier

def LawfulHistory (h : History) : Prop :=
  ∀ later e rd earlier, h = later ++ (e, rd) :: earlier → Lawful e rd earlier

variable {h h' : History} {e : Event} {rd : Reading}

/-- An event that neither concerns an iterator nor lets anyone begin to read. -/
structure Event.IsCalm (e : Event) : Prop where
  beginner : ∀ earlier, e.beginner? earlier = none
  fresh : ∀ i rd h, isFresh i ((e, rd) :: h) = isFresh i h

theorem Event.isCalm_skipped (o : Except Fault Bytes) : IsCalm (.skipped o) :=
  ⟨fun _ => rfl, fun _ _ _ => rfl⟩

theorem Event.isCalm_handed (j : Nat) (shape : Shape) : IsCalm (.handed j shape) :=
  ⟨fun _ => rfl, fun _ _ _ => rfl⟩

theorem Event.isCalm_left (j : Nat) (o : Except Fault Nat) : IsCalm (.left j o) :=
  ⟨fun _ => rfl, fun _ _ _ => rfl⟩

theorem Event.isCalm_entered (j : Nat) {phase : Phase} (h : phase ≠ .ready) :
    IsCalm (.entered j phase) := by
  cases phase with
  | ready => exact absurd rfl h
  | _ => exact ⟨fun _ => rfl, fun _ _ _ => rfl⟩

theorem Event.beginner?_asked {i : Nat} {phase : Phase} {o : Except Fault (Option Shape)}
    {reader : Reader} (hb : (asked i phase o).beginner? h = some reader) :
    phase = .ready ∧ isFresh i h = true := by
  cases phase with
  | ready =>
    simp only [beginner?] at hb
    split at hb
    · exact ⟨rfl, ‹_›⟩
    · cases hb
  | _ => cases hb

theorem deliveries_cons :
    deliveries ((e, rd) :: h) = deliveries h ++ e.delivery?.toList := by
  cases hd : e.delivery? <;> simp [deliveries, hd]

theorem beginners_cons : beginners ((e, rd) :: h) = (e.beginner? h).toList ++ beginners h := rfl

namespace Lawful

theorem of_silent (hcount : rd.shapeCount = (deliveries h).length) (hdelivery : e.delivery? = none)
    (hfirst : ∀ reader, e.beginner? h = some reader → beginners h = []) (hdue : e.IsDue h) :
    Lawful e rd h := by
  refine ⟨?_, ?_, hfirst, hdue⟩
  · rw [deliveries_cons, hdelivery, hcount, List.length_append]
    rfl
  · intro reader shape hd
    rw [hdelivery] at hd
    cases hd

theorem of_delivery {reader : Reader} {shape : Shape}
    (hcount : rd.shapeCount = (deliveries h).length + 1)
    (hdelivery : e.delivery? = some (reader, shape))
    (hid : shape.objectId = (deliveries h).length) (hreader : reader ∈ beginners ((e, rd) :: h))
    (hfirst : ∀ reader, e.beginner? h = some reader → beginners h = []) (hdue : e.IsDue h) :
    Lawful e rd h := by
  refine ⟨?_, ?_, hfirst, hdue⟩
  · rw [deliveries_cons, hdelivery, hcount, List.length_append]
    rfl
  · intro reader' shape' hd
    rw [hdelivery] at hd
    cases hd
    exact ⟨hid, hreader⟩

end Lawful

theorem beginners_subset (H : h <:+ h') : beginners h ⊆ beginners h' := by
  obtain ⟨later, rfl⟩ := H
  induction later with
  | nil => exact fun _ hr => hr
  | cons moment later ih => exact fun _ hr => List.mem_append_right _ (ih hr)

theorem lawfulHistory_nil : LawfulHistory [] := by
  intro later e rd earlier h
  cases later <;> cases h

theorem lawfulHistory_cons :
    LawfulHistory ((e, rd) :: h) ↔ Lawful e rd h ∧ LawfulHistory h := by
  constructor
  · intro H
    exact ⟨H [] e rd h rfl, fun later e' rd' earlier heq =>
      H ((e, rd) :: later) e' rd' earlier (congrArg _ heq)⟩
  · rintro ⟨He, H⟩ later e' rd' earlier heq
    cases later with
    | nil =>
      cases heq
      exact He
    | cons moment later =>
      injection heq with _ heq
      exact H later e' rd' earlier heq

namespace LawfulHistory

theorem length_beginners (H : LawfulHistory h) : (beginners h).length ≤ 1 := by
  induction h with
  | nil => exact Nat.zero_le 1
  | cons moment h ih =>
    obtain ⟨e, rd⟩ := moment
    obtain ⟨He, H⟩ := lawfulHistory_cons.mp H
    rw [beginners_cons]
    cases hb : e.beginner? h with
    | none => exact ih H
    | some reader =>
      rw [He.first reader hb]
      exact Nat.le_refl 1

theorem mem_beginners (H : LawfulHistory h) {reader : Reader} {shape : Shape}
    (hd : (reader, shape) ∈ deliveries h) : reader ∈ beginners h := by
  induction h with
  | nil => cases hd
  | cons moment h ih =>
    obtain ⟨e, rd⟩ := moment
    obtain ⟨He, H⟩ := lawfulHistory_cons.mp H
    rw [deliveries_cons] at hd
    rcases List.mem_append.mp hd with hd | hd
    · exact List.mem_append_right _ (ih H hd)
    · exact (He.delivered reader shape (Option.mem_toList.mp hd)).2

theorem objectIds (H : LawfulHistory h) :
    (deliveries h).map (·.2.objectId) = (List.range (deliveries h).length).map (↑·) := by
  induction h with
  | nil => rfl
  | cons moment h ih =>
    obtain ⟨e, rd⟩ := moment
    obtain ⟨He, H⟩ := lawfulHistory_cons.mp H
    rw [deliveries_cons]
    cases hd : e.delivery? with
    | none => simpa using ih H
    | some delivery =>
      obtain ⟨hid, -⟩ := He.delivered delivery.1 delivery.2 hd
      simp [ih H, List.range_succ, hid]

theorem countP_deliveries (H : LawfulHistory h) {reader : Reader} (hr : reader ∈ beginners h) :
    (deliveries h).countP (·.1 = reader) = (deliveries h).length := by
  rw [List.countP_eq_length]
  rintro ⟨reader', shape⟩ hd
  have hr' := H.mem_beginners hd
  have hlength := H.length_beginners
  rw [decide_eq_true_eq]
  match hb : beginners h with
  | [] =>
    rw [hb] at hr
    cases hr
  | [only] =>
    rw [hb, List.mem_singleton] at hr hr'
    exact hr'.trans hr.symm
  | _ :: _ :: _ =>
    rw [hb] at hlength
    simp at hlength

end LawfulHistory
end Shapefile.Desk
