import Shapefile.Proofs.Consumption
import Shapefile.Proofs.PlainReading

/-! # Asking for shapes one by one

A reading that is asked time after time gives shapes until it has no more or fails
(`Reading.exists_drains`), for every shape takes something off the budget. A run hands the same
shapes to a watcher that wants them all, and ends alike (`Reading.run_of_drains`). Where the watcher
has enough, the run settles the reading (`Reading.run_of_enough`). -/

namespace Shapefile

open Desk (outcome endState)

variable {τ υ : Type}

section
variable {α : Type} (f : τ → υ) (r : EStateM.Result Fault τ α)

theorem outcome_mapState : outcome (mapState f r) = outcome r := by cases r <;> rfl

theorem endState_mapState : endState (mapState f r) = f (endState r) := by cases r <;> rfl

end

/-- Asked time after time, a source of shapes gives these, and goes from one state to the other. -/
inductive Gives (ask : EStateM Fault τ (Option Shape)) : List Shape → τ → τ → Prop where
  | nil (s : τ) : Gives ask [] s s
  | cons {shape : Shape} {shapes : List Shape} {s t u : τ} (first : ask s = .ok (some shape) t)
      (rest : Gives ask shapes t u) : Gives ask (shape :: shapes) s u

/-- Asked until it has no more or fails, a source of shapes gives these and ends with the result. -/
def Drains (ask : EStateM Fault τ (Option Shape)) (shapes : List Shape) (s : τ)
    (r : EStateM.Result Fault τ (Option Shape)) : Prop :=
  ∃ t, Gives ask shapes s t ∧ ask t = r ∧ ∀ shape u, r ≠ .ok (some shape) u

namespace Gives

variable {ask : EStateM Fault τ (Option Shape)} {ask' : EStateM Fault υ (Option Shape)}
  {shapes shapes' : List Shape} {s t u : τ}

theorem append (H : Gives ask shapes s t) (H' : Gives ask shapes' t u) :
    Gives ask (shapes ++ shapes') s u := by
  induction H with
  | nil => exact H'
  | cons first _ ih => exact .cons first (ih H')

theorem append_iff :
    Gives ask (shapes ++ shapes') s u ↔ ∃ t, Gives ask shapes s t ∧ Gives ask shapes' t u := by
  refine ⟨fun H => ?_, fun ⟨t, H, H'⟩ => H.append H'⟩
  induction shapes generalizing s with
  | nil => exact ⟨s, .nil s, H⟩
  | cons shape shapes ih =>
    cases H with
    | cons first rest =>
      obtain ⟨t, H, H'⟩ := ih rest
      exact ⟨t, .cons first H, H'⟩

/-- A source of shapes gives what another one gives of which the states are part of its own. -/
theorem map (f : τ → υ)
    (hf : ∀ s shape t, ask s = .ok (some shape) t → ask' (f s) = .ok (some shape) (f t))
    (H : Gives ask shapes s t) : Gives ask' shapes (f s) (f t) := by
  induction H with
  | nil s => exact .nil (f s)
  | cons first _ ih => exact .cons (hf _ _ _ first) ih

/-- A source of shapes may begin in another state if the first answer is the same. -/
theorem of_eq {s' : τ} (hne : shapes ≠ []) (heq : ask s = ask s') (H : Gives ask shapes s' t) :
    Gives ask shapes s t := by
  cases H with
  | nil => exact absurd rfl hne
  | cons first rest => exact .cons (heq.trans first) rest

end Gives

namespace Drains

variable {ask : EStateM Fault τ (Option Shape)} {ask' : EStateM Fault υ (Option Shape)}
  {shapes shapes' : List Shape} {s : τ} {r : EStateM.Result Fault τ (Option Shape)}

theorem ends (H : Drains ask shapes s r) (shape : Shape) (t : τ) : r ≠ .ok (some shape) t := by
  obtain ⟨_, -, -, hend⟩ := H
  exact hend shape t

/-- As with `Gives.map`, when the end is the same in another state. -/
theorem map (f g : τ → υ)
    (hf : ∀ s shape t, ask s = .ok (some shape) t → ask' (f s) = .ok (some shape) (f t))
    (hlast : ∀ t, ask t = r → ask' (f t) = mapState g r) (H : Drains ask shapes s r) :
    Drains ask' shapes (f s) (mapState g r) := by
  obtain ⟨t, H, heq, hend⟩ := H
  refine ⟨f t, H.map f hf, hlast t heq, ?_⟩
  intro shape u h
  cases r with
  | ok shape? v =>
    cases h
    exact hend shape v rfl
  | error => cases h

theorem of_eq {s' : τ} (heq : ask s = ask s') (H : Drains ask shapes s' r) :
    Drains ask shapes s r := by
  obtain ⟨t, H, hlast, hend⟩ := H
  cases H with
  | nil => exact ⟨s, .nil s, heq.trans hlast, hend⟩
  | cons first rest => exact ⟨t, .cons (heq.trans first) rest, hlast, hend⟩

/-- What has been drained was given in part before. -/
theorem gives (H : Drains ask (shapes ++ shapes') s r) : ∃ t, Gives ask shapes s t := by
  obtain ⟨t, H, -⟩ := H
  obtain ⟨u, H, -⟩ := Gives.append_iff.mp H
  exact ⟨u, H⟩

end Drains

/-! ## Readings -/

namespace Reading

variable {ε ε' χ : Type} {link : Link ε} {s t u : Reading × ε} {shapes : List Shape}

/-- Asked often enough, a reading has no more shapes or fails. -/
theorem exists_drains (link : Link ε) (s : Reading × ε) :
    ∃ shapes r, Drains (advance link) shapes s r := by
  induction hn : s.1.left.toNat using Nat.strongRecOn generalizing s with
  | _ n ih =>
    cases hadvance : advance link s with
    | error f t => exact ⟨[], _, s, .nil s, hadvance, nofun⟩
    | ok shape? t =>
      cases shape? with
      | none => exact ⟨[], _, s, .nil s, hadvance, nofun⟩
      | some shape =>
        have hgave := gave_of_advance hadvance
        have hless : t.1.left.toNat < n := by
          have := hgave.left
          have := hgave.less
          omega
        obtain ⟨shapes, r, u, H, hend⟩ := ih _ hless t rfl
        exact ⟨shape :: shapes, r, u, .cons hadvance H, hend⟩

theorem shapeCount_of_gives (H : Gives (advance link) shapes s t) :
    t.1.shapeCount = s.1.shapeCount + shapes.length := by
  induction H with
  | nil => rfl
  | cons first _ ih =>
    rw [ih, (gave_of_advance first).count, List.length_cons]
    omega

/-- A reading that has no more shapes is settled. -/
theorem settle_of_advance (h : advance link s = .ok none t) : t = settle link s := by
  obtain ⟨rd, e⟩ := s
  by_cases hleft : rd.left ≤ 0
  · rw [advance_of_left hleft] at h
    cases h
    rfl
  simp only [advance, if_neg hleft] at h
  split at h
  · cases h
  · split at h <;> cases h

theorem left_of_gives (H : Gives (advance link) shapes s t) :
    t.1.left = s.1.left - sizeTaken shapes := by
  induction H with
  | nil => exact (Int.sub_zero _).symm
  | @cons shape shapes _ _ _ first _ ih =>
    have htaken := sizeTaken_cons shape shapes
    rw [ih, left_of_advance first]
    omega

theorem phase_of_gives (H : Gives (advance link) shapes s t) : t.1.phase = s.1.phase := by
  induction H with
  | nil => rfl
  | cons first _ ih => exact ih.trans (gave_of_advance first).phase

/-- A reading that gives no shape is settled, or it fails as a record does. -/
theorem end_of_advance {r : EStateM.Result Fault (Reading × ε) (Option Shape)}
    (h : advance link s = r) (hend : ∀ shape t, r ≠ .ok (some shape) t) :
    r = .ok none (settle link s) ∨ ∃ f meter e, r = .error f
      (if endsFailed f = true then ({ s.1 with meter, phase := .failed }, e)
        else settle link ({ s.1 with meter }, e)) := by
  cases r with
  | ok shape? t =>
    cases shape? with
    | none => exact .inl (by rw [settle_of_advance h])
    | some shape => exact absurd rfl (hend shape t)
  | error f t =>
    obtain ⟨-, meter, e, -, rfl⟩ := failure_of_advance h
    exact .inr ⟨f, meter, e, rfl⟩

theorem shapeCount_of_end {r : EStateM.Result Fault (Reading × ε) (Option Shape)}
    (h : advance link s = r) (hend : ∀ shape t, r ≠ .ok (some shape) t) :
    (endState r).1.shapeCount = s.1.shapeCount := by
  obtain rfl | ⟨f, meter, e, rfl⟩ := end_of_advance h hend
  · exact shapeCount_settle link s
  · simp only [endState]
    split
    · rfl
    · exact shapeCount_settle link ({ s.1 with meter }, e)

theorem shapeCount_of_drains (H : Drains (advance link) shapes s (.ok none t)) :
    t.1.shapeCount = s.1.shapeCount + shapes.length := by
  obtain ⟨u, H, hlast, -⟩ := H
  rw [settle_of_advance hlast, shapeCount_settle, shapeCount_of_gives H]

/-- The phase that a fault, or none, leaves behind with whoever asks for a shape. -/
def phaseAfter {α : Type} : Except Fault α → Phase
  | .ok _ => .done
  | .error f => if endsFailed f then .failed else .done

/-- A reading that is read ends done, or failed if readings fail with the fault. -/
theorem phase_of_end (hphase : s.1.phase = .reading)
    {r : EStateM.Result Fault (Reading × ε) (Option Shape)}
    (h : advance link s = r) (hend : ∀ shape t, r ≠ .ok (some shape) t) :
    (endState r).1.phase = phaseAfter (outcome r) := by
  obtain rfl | ⟨f, meter, e, rfl⟩ := end_of_advance h hend
  · simp only [endState, settle, if_pos hphase, outcome, phaseAfter]
  · by_cases hf : endsFailed f = true
    · simp only [if_pos hf, endState, outcome, phaseAfter]
    · simp only [if_neg hf, settle, if_pos hphase, endState, outcome, phaseAfter]

/-! ## Runs -/

/-- What a run makes of the way in which its reading ends, in an environment of its own. -/
def ranInto (f : ε → ε') : EStateM.Result Fault (Reading × ε) (Option Shape) →
    EStateM.Result Fault (Reading × ε') Nat
  | .ok _ (rd, e) => .ok rd.shapeCount (rd, f e)
  | .error fault (rd, e) => .error fault ({ rd with phase := .failed }, f e)

section
variable {link' : Link ε'} {consumer : Consumer ε'} {answer : Shape → χ → Bool × χ}
  (f : χ → ε → ε')
  (L : ∀ m, Link.Simulates (fun e e' => e' = f m e) link link')
include L

/-- A run goes through the shapes that its reading gives while its consumer, who is handed one after
the other, does what a watcher does who wants them all. What the consumer has in mind is all that
its environment `f m e` has besides. -/
theorem deliver_along (H : Gives (advance link) shapes s u) {m : χ}
    (C : ∀ before shape after, shapes = before ++ shape :: after → ∀ rd e,
      consumer shape (rd, f (mindAfter answer before m) e) =
        .ok true (rd, f (mindAfter answer (before ++ [shape]) m) e))
    {fuel : Nat} (hfuel : s.1.left.toNat < fuel) :
    ∃ fuel', u.1.left.toNat < fuel' ∧
      deliver link' consumer fuel .suspended (s.1, f m s.2) =
        deliver link' consumer fuel' .suspended (u.1, f (mindAfter answer shapes m) u.2) := by
  induction H generalizing m fuel with
  | nil s => exact ⟨fuel, hfuel, rfl⟩
  | @cons shape shapes s t u first rest ih =>
    have hgave := gave_of_advance first
    obtain ⟨fuel, rfl⟩ : ∃ n, fuel = n + 1 := ⟨fuel - 1, by omega⟩
    have hless : t.1.left.toNat < fuel := by
      have := hgave.left
      have := hgave.less
      omega
    obtain ⟨⟨_, _⟩, hadvance, rfl, rfl⟩ := (advance_simulates (L m)).eq_ok
      (t := (s.1, f m s.2)) ⟨rfl, rfl⟩ first
    have hconsumer := C [] shape shapes rfl t.1 t.2
    obtain ⟨fuel', hfuel', heq⟩ := ih (m := (answer shape m).2)
      (fun before shape' after h => C (shape :: before) shape' after (congrArg _ h)) hless
    exact ⟨fuel', hfuel', (deliver_of_more hadvance hconsumer).trans heq⟩

variable (C : ∀ shape rd m e, consumer shape (rd, f m e) =
    .ok (answer shape m).1 (rd, f (answer shape m).2 e))
include C

theorem deliver_of_gives (H : Gives (advance link) shapes s u) {m : χ}
    (hmore : wantsMore answer shapes m = true) {fuel : Nat} (hfuel : s.1.left.toNat < fuel) :
    ∃ fuel', u.1.left.toNat < fuel' ∧
      deliver link' consumer fuel .suspended (s.1, f m s.2) =
        deliver link' consumer fuel' .suspended (u.1, f (mindAfter answer shapes m) u.2) := by
  refine deliver_along f L H (fun before shape after h rd e => ?_) hfuel
  rw [C, mindAfter_append, wantsMore_middle (h ▸ hmore)]
  rfl

variable {rd : Reading} {e : ε}

/-- A run whose watcher wants every shape ends as the reading does when it is asked for them all. -/
theorem run_of_drains (hready : rd.phase = .ready)
    {r : EStateM.Result Fault (Reading × ε) (Option Shape)}
    (H : Drains (advance link) shapes ({ rd with phase := .reading }, e) r) {m : χ}
    (hmore : wantsMore answer shapes m = true) :
    run link' consumer (rd, f m e) = ranInto (f (mindAfter answer shapes m)) r := by
  obtain ⟨u, H, hr, hend⟩ := H
  obtain ⟨fuel, hfuel, heq⟩ := deliver_of_gives f L C H hmore (Nat.lt_succ_self _)
  obtain ⟨fuel, rfl⟩ : ∃ n, fuel = n + 1 := ⟨fuel - 1, by omega⟩
  have hdeliver : deliver link' consumer (rd.left.toNat + 1) .fresh (rd, f m e) = _ :=
    (deliver_fresh hready).trans heq
  have hlast := advance_simulates (L (mindAfter answer shapes m))
  cases r with
  | error fault t =>
    obtain ⟨⟨_, _⟩, hadvance, rfl, rfl⟩ := hlast.eq_error (t := (u.1, f _ u.2)) ⟨rfl, rfl⟩ hr
    exact run_of_error (hdeliver.trans (deliver_of_error hadvance))
  | ok shape? t =>
    obtain ⟨⟨_, _⟩, hadvance, rfl, rfl⟩ := hlast.eq_ok (t := (u.1, f _ u.2)) ⟨rfl, rfl⟩ hr
    cases shape? with
    | some shape => exact absurd rfl (hend shape t)
    | none => exact run_of_ok (hdeliver.trans (deliver_of_end hadvance))

/-- A run whose watcher has enough after the last shape ends as the reading does that is settled. -/
theorem run_of_enough (hready : rd.phase = .ready) {shape : Shape}
    (H : Gives (advance link) (shapes ++ [shape]) ({ rd with phase := .reading }, e) u) {m : χ}
    (hmore : wantsMore answer shapes m = true)
    (henough : (answer shape (mindAfter answer shapes m)).1 = false) :
    run link' consumer (rd, f m e) =
      .ok u.1.shapeCount ((settle link u).1,
        f (mindAfter answer (shapes ++ [shape]) m) (settle link u).2) := by
  obtain ⟨t, H, H'⟩ := Gives.append_iff.mp H
  obtain ⟨fuel, hfuel, heq⟩ := deliver_of_gives f L C H hmore (Nat.lt_succ_self _)
  obtain ⟨fuel, rfl⟩ : ∃ n, fuel = n + 1 := ⟨fuel - 1, by omega⟩
  cases H' with
  | cons first rest =>
    cases rest
    obtain ⟨⟨_, _⟩, hadvance, rfl, rfl⟩ :=
      (advance_simulates (L (mindAfter answer shapes m))).eq_ok
        (t := (t.1, f (mindAfter answer shapes m) t.2)) ⟨rfl, rfl⟩ first
    have hconsumer := C shape u.1 (mindAfter answer shapes m) u.2
    rw [henough] at hconsumer
    have hdeliver : deliver link' consumer (rd.left.toNat + 1) .fresh (rd, f m e) = _ :=
      (deliver_fresh hready).trans (heq.trans (deliver_of_enough hadvance hconsumer))
    obtain ⟨hrd, he⟩ := settle_simulates (L (answer shape (mindAfter answer shapes m)).2)
      (s := u) (t := (u.1, f _ u.2)) ⟨rfl, rfl⟩
    have hsettled : settle link' (u.1, f (answer shape (mindAfter answer shapes m)).2 u.2) =
        ((settle link u).1, f (answer shape (mindAfter answer shapes m)).2 (settle link u).2) :=
      Prod.ext hrd.symm he
    rw [hsettled] at hdeliver
    rw [mindAfter_append, ← shapeCount_settle link u]
    exact run_of_ok hdeliver

end

end Reading
end Shapefile
