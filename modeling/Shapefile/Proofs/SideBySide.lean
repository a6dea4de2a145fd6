import Shapefile.Proofs.ParseIteration

/-! # Parses side by side

Two parses that are told apart by little go through the same stages, each with handles of its own.
What is related at the start is related after each stage, or else both end there with the same
fault. -/

namespace Shapefile

open Desk (endState)

/-- Outcomes with values that go together, or with the same fault. -/
inductive Paired {σ τ α β : Type} (V : α → β → σ → τ → Prop) (R : σ → τ → Prop) :
    EStateM.Result Fault σ α → EStateM.Result Fault τ β → Prop where
  | ok {a : α} {b : β} {s : σ} {t : τ} (h : V a b s t) : Paired V R (.ok a s) (.ok b t)
  | error {f : Fault} {s : σ} {t : τ} (h : R s t) : Paired V R (.error f s) (.error f t)

namespace Paired

variable {σ τ α β α' β' : Type} {R : σ → τ → Prop} {V : α → β → σ → τ → Prop}

theorem bind {V' : α' → β' → σ → τ → Prop} {x : EStateM Fault σ α} {y : EStateM Fault τ β}
    {f : α → EStateM Fault σ α'} {g : β → EStateM Fault τ β'} {s : σ} {t : τ}
    (h : Paired V R (x s) (y t)) (hfg : ∀ ⦃a b s t⦄, V a b s t → Paired V' R (f a s) (g b t)) :
    Paired V' R ((x >>= f) s) ((y >>= g) t) := by
  simp only [Bind.bind, EStateM.bind]
  generalize x s = r at h ⊢
  generalize y t = r' at h ⊢
  cases h with
  | ok h => exact hfg h
  | error h => exact .error h

theorem of_alike {r : EStateM.Result Fault σ α} {r' : EStateM.Result Fault τ α}
    (h : Alike R r r') : Paired (fun _ _ => R) R r r' := by
  cases h with
  | ok h => exact .ok h
  | error h => exact .error h

theorem of_alike_ends {P : σ → Prop} {Q : τ → Prop} {r : EStateM.Result Fault σ α}
    {r' : EStateM.Result Fault τ α} (h : Alike R r r') (hP : P (endState r))
    (hQ : Q (endState r')) : Paired (fun _ _ s t => R s t ∧ P s ∧ Q t) R r r' := by
  cases h with
  | ok h => exact .ok ⟨h, hP, hQ⟩
  | error h => exact .error h

theorem alike {r : EStateM.Result Fault σ Unit} {r' : EStateM.Result Fault τ Unit}
    (h : Paired (fun _ _ => R) R r r') : Alike R r r' := by
  cases h with
  | ok h => exact .ok h
  | error h => exact .error h

end Paired

namespace Workspace

variable {σ χ α : Type} {R : Workspace σ χ → Workspace σ χ → Prop}

theorem parsing_alike
    (hconcluded : ∀ {u v} (o : Except Fault α), R u v → R (u.concluded o) (v.concluded o))
    {body body' : Action σ χ α} {w w' : Workspace σ χ}
    (h : Alike R (body (w.updateSession .forget)) (body' (w'.updateSession .forget))) :
    Alike R (parsing body w) (parsing body' w') := by
  rw [parsing_eq, parsing_eq]
  generalize body (w.updateSession .forget) = r at h ⊢
  generalize body' (w'.updateSession .forget) = r' at h ⊢
  cases h with
  | @ok a u v h => exact .ok (hconcluded (.ok a) h)
  | @error f u v h => exact .error (hconcluded (.error f) h)

section Stages
variable [Source σ] {S T : Workspace σ χ → Workspace σ χ → Prop} {handle handle' : Handle}
  {u v : Workspace σ χ}

/-- Headers of the index that are read alike are kept alike. -/
theorem checkIndex_of_read (hshx : u.session.shx = some handle)
    (hshx' : v.session.shx = some handle')
    (hread : Alike S (Header.read (feed handle) u) (Header.read (feed handle') v))
    (hkept : ∀ {u v} h, S u v →
      R ((u.updateSession ({ · with indexHeader := some h })).note (.indexHeader h))
        ((v.updateSession ({ · with indexHeader := some h })).note (.indexHeader h)))
    (hfailed : ∀ {u v}, S u v → R u v) : Alike R (checkIndex u) (checkIndex v) := by
  simp only [checkIndex, hshx, hshx']
  generalize Header.read (feed handle) u = r at hread ⊢
  generalize Header.read (feed handle') v = r' at hread ⊢
  cases hread with
  | ok h => exact .ok (hkept _ h)
  | error h => exact .error (hfailed h)

/-- After headers of the records that are read alike the same is to be read. -/
theorem beginReading_of_read (hshp : u.session.shp = some handle)
    (hshp' : v.session.shp = some handle')
    (hread : Alike S (Header.read (feed handle) u) (Header.read (feed handle') v))
    (hkept : ∀ {u v} h, S u v →
      T ((u.updateSession ({ · with header := some h })).note (.mainHeader h))
        ((v.updateSession ({ · with header := some h })).note (.mainHeader h)))
    (hfailed : ∀ {u v}, S u v → R u v) :
    Paired (fun begun begun' u v =>
        begun.1 = handle ∧ begun'.1 = handle' ∧ begun'.2 = begun.2 ∧ T u v)
      R (beginReading u) (beginReading v) := by
  simp only [beginReading, hshp, hshp']
  generalize Header.read (feed handle) u = r at hread ⊢
  generalize Header.read (feed handle') v = r' at hread ⊢
  cases hread with
  | ok h => exact .ok ⟨rfl, rfl, rfl, hkept _ h⟩
  | error h => exact .error (hfailed h)

/-- The number of the shapes is the last that the sessions learn. -/
theorem learned_alike (L : Link.Simulates S (link handle) (link handle'))
    {consumer consumer' : Consumer σ χ}
    (C : ∀ shape, Simulates S (consumer shape) (consumer' shape))
    (hcount : ∀ {u v} n, S u v → R (u.updateSession ({ · with shapeCount := n }))
      (v.updateSession ({ · with shapeCount := n })))
    (rd : Reading) (H : S u v) :
    Alike R (learned (Reading.run (link handle) (besideReading consumer) (rd, u)))
      (learned (Reading.run (link handle') (besideReading consumer') (rd, v))) := by
  have hrun := Reading.run_simulates L (besideReading_simulates C) (s := (rd, u)) (t := (rd, v))
    ⟨rfl, H⟩
  generalize Reading.run (link handle) _ (rd, u) = r at hrun ⊢
  generalize Reading.run (link handle') _ (rd, v) = r' at hrun ⊢
  cases hrun with
  | ok h =>
    obtain ⟨hrd, h⟩ := h
    simp only [learned, hrd]
    exact .ok (hcount _ h)
  | error h =>
    obtain ⟨hrd, h⟩ := h
    simp only [learned, hrd]
    exact .error (hcount _ h)

end Stages

end Workspace
end Shapefile
