import GuestControl.Task
import Mathlib.Logic.Function.Basic
import Mathlib.Tactic.Choose

/-!
# Effects on one machine

The state of a fleet has a component for each machine. An effect acts on one
machine when its result and its changes hang on that component alone. Effects
on two machines are independent: their order does not matter. So it is with
effects one after the other and an effect that is independent of each.
-/

namespace GuestControl

abbrev Fleet (σ : Type) := Guid → σ

variable {σ α β : Type} {id id' : Guid}

/-- The effect reads and changes the state of one machine only. -/
def ActsOn (id : Guid) (f : Fleet σ → α × Fleet σ) : Prop :=
  ∃ g : σ → α × σ, ∀ h, f h = ((g (h id)).1, Function.update h id (g (h id)).2)

theorem ActsOn.pure (id : Guid) (a : α) : ActsOn id fun h : Fleet σ => (a, h) :=
  ⟨fun c => (a, c), fun h => by rw [Function.update_eq_self]⟩

theorem ActsOn.bind {f : Fleet σ → α × Fleet σ} {k : α → Fleet σ → β × Fleet σ}
    (hf : ActsOn id f) (hk : ∀ a, ActsOn id (k a)) :
    ActsOn id fun h => k (f h).1 (f h).2 := by
  obtain ⟨g, hg⟩ := hf
  choose gk hgk using hk
  refine ⟨fun c => gk (g c).1 (g c).2, fun h => ?_⟩
  simp only [hg, hgk, Function.update_self, Function.update_idem]

/-- The order of the two effects does not matter, neither for their results
nor for the state after both. -/
def Independent (f : Fleet σ → α × Fleet σ) (f' : Fleet σ → β × Fleet σ) : Prop :=
  ∀ h, (f (f' h).2).1 = (f h).1 ∧ (f' (f h).2).1 = (f' h).1 ∧ (f (f' h).2).2 = (f' (f h).2).2

theorem ActsOn.independent {f : Fleet σ → α × Fleet σ} {f' : Fleet σ → β × Fleet σ}
    (hf : ActsOn id f) (hf' : ActsOn id' f') (hne : id ≠ id') : Independent f f' := by
  obtain ⟨g, hg⟩ := hf
  obtain ⟨g', hg'⟩ := hf'
  intro h
  simp only [hg, hg', Function.update_of_ne hne, Function.update_of_ne hne.symm, true_and]
  exact Function.update_comm hne.symm _ _ h

theorem Independent.pure (a : α) (f' : Fleet σ → β × Fleet σ) :
    Independent (fun h => (a, h)) f' :=
  fun _ => ⟨rfl, rfl, rfl⟩

def inTurn {η : Type} : List (η → α × η) → η → List α × η
  | [], h => ([], h)
  | f :: fs, h => ((f h).1 :: (inTurn fs (f h).2).1, (inTurn fs (f h).2).2)

theorem inTurn_append {η : Type} (fs gs : List (η → α × η)) (h : η) :
    inTurn (fs ++ gs) h =
      ((inTurn fs h).1 ++ (inTurn gs (inTurn fs h).2).1, (inTurn gs (inTurn fs h).2).2) := by
  induction fs generalizing h with
  | nil => rfl
  | cons f fs ih => simp only [List.cons_append, inTurn, ih]

theorem inTurn_pure {η : Type} (as : List α) (h : η) :
    inTurn (as.map fun a h => (a, h)) h = (as, h) := by
  induction as with
  | nil => rfl
  | cons a as ih => simp only [List.map_cons, inTurn, ih]

theorem Independent.inTurn {fs : List (Fleet σ → α × Fleet σ)} {f' : Fleet σ → β × Fleet σ}
    (hfs : ∀ f ∈ fs, Independent f f') : Independent (inTurn fs) f' := by
  induction fs with
  | nil => exact fun _ => ⟨rfl, rfl, rfl⟩
  | cons f fs ih =>
    intro h
    obtain ⟨hf, hf', hs⟩ := hfs f List.mem_cons_self h
    obtain ⟨ih₁, ih₂, ih₃⟩ := ih (fun f hf => hfs f (List.mem_cons_of_mem _ hf)) (f h).2
    simp only [GuestControl.inTurn, hf, hs, ih₁, ih₂, hf', ih₃, true_and]

/-- The first part of an effect may come ahead of effects that it is independent of. -/
theorem inTurn_ahead {fs gs : List (Fleet σ → α × Fleet σ)} {f' : Fleet σ → β × Fleet σ}
    {k : β → Fleet σ → α × Fleet σ} (hfs : Independent (inTurn fs) f') (h : Fleet σ) :
    inTurn (fs ++ k (f' h).1 :: gs) (f' h).2 =
      inTurn (fs ++ (fun h => k (f' h).1 (f' h).2) :: gs) h := by
  obtain ⟨h₁, h₂, h₃⟩ := hfs h
  simp only [inTurn_append, inTurn, h₁, h₂, h₃]

end GuestControl
