import Shapefile.Proofs.Client

/-! # Chronicles

A chronicle is a history that tells of every event what a reading and its desk were right after it,
the log and the source included. From the events follows which readers have begun to give shapes and
have not come to an end: the `active` ones. -/

namespace Shapefile.Desk

/-- The events so far, the latest first, each with the view right after it. -/
abbrev Chronicle (σ : Type) := List (Event × View σ)

variable {σ : Type}

/-- The last view of a chronicle that starts with the view `start`. -/
def latest (start : View σ) : Chronicle σ → View σ
  | [] => start
  | (_, v) :: _ => v

def history (h : Chronicle σ) : History := h.map fun moment => (moment.1, moment.2.1)

/-- The setting in which the chronicle is recorded. -/
def chronicler : Setting σ (Chronicle σ) where
  history := history
  event e v memo := (e, v) :: memo

abbrev note (e : Event) : Reading × Desk σ (Chronicle σ) → Reading × Desk σ (Chronicle σ) :=
  chronicler.note e

/-- The reader that an event is about, if it goes on or ends there. -/
def Event.reader? : Event → Option Reader
  | asked i .. | closed i => some (.iterator i)
  | handed j _ | left j _ => some (.run j)
  | _ => none

def Event.isSkip : Event → Bool
  | skipped _ => true
  | _ => false

/-- The readers that have begun and not ended: those of which the last event is a delivery. -/
def active : Chronicle σ → List Reader
  | [] => []
  | (e, _) :: h =>
    (e.delivery?.map (·.1)).toList ++ (active h).filter fun reader => e.reader? != some reader

section
variable {s : Reading × Desk σ (Chronicle σ)} {e : Event} {v : View σ} {h : Chronicle σ}

@[simp] theorem note_memo : (note e s).2.memo = (e, view s) :: s.2.memo := rfl

@[simp] theorem history_cons : history ((e, v) :: h) = (e, v.1) :: history h := rfl

theorem chronicler_handing (j : Nat) (x : Shape → Action σ (Chronicle σ) Bool) (shape : Shape) :
    chronicler.handing j x shape s = x shape (note (.handed j shape) s) :=
  Setting.handing_of_silent fun _ _ _ _ => rfl

theorem active_cons :
    active ((e, v) :: h) = (e.delivery?.map (·.1)).toList ++
      (active h).filter fun reader => e.reader? != some reader := rfl

/-- An event leaves the readers alone that it is not about. -/
theorem mem_active_cons {reader : Reader} (hreader : e.reader? ≠ some reader)
    (hdelivery : ∀ shape, e.delivery? ≠ some (reader, shape)) :
    reader ∈ active ((e, v) :: h) ↔ reader ∈ active h := by
  have hnew : reader ∉ (e.delivery?.map (·.1)).toList := by
    cases hd : e.delivery? with
    | none => simp
    | some delivery =>
      have := hdelivery delivery.2
      simp only [Option.map_some, Option.toList_some, List.mem_singleton]
      rintro rfl
      exact this hd
  simp [active_cons, hnew, hreader]

end

end Shapefile.Desk
