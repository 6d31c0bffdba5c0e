/-!
# Runs

A run of a system is a number of steps one after the other: the states that it
goes through and the events between them. What every step preserves holds
along the whole run.
-/

namespace GuestControl

/-- Event `k` leads from state `k` to state `k + 1`; states and events beyond
the length are of no account. -/
structure Run {σ ε : Type} (step : σ → ε → Option σ) where
  length : Nat
  state : Nat → σ
  event : Nat → ε
  step_event : ∀ k, k < length → step (state k) (event k) = some (state (k + 1))

variable {σ ε : Type} {step : σ → ε → Option σ}

def runEvents (step : σ → ε → Option σ) (s : σ) : List ε → Option σ
  | [] => some s
  | e :: es => (step s e).bind fun s => runEvents step s es

theorem runEvents_append (s : σ) (es es' : List ε) :
    runEvents step s (es ++ es') = (runEvents step s es).bind fun s => runEvents step s es' := by
  induction es generalizing s with
  | nil => rfl
  | cons e es ih =>
    simp only [List.cons_append, runEvents, Option.bind_assoc]
    exact congrArg _ (funext ih)

namespace Run

/-- What holds at first and is kept by every step holds throughout. -/
theorem invariant (r : Run step) {P : σ → Prop} (h0 : P (r.state 0))
    (hs : ∀ s e s', P s → step s e = some s' → P s') {k : Nat} (hk : k ≤ r.length) :
    P (r.state k) := by
  induction k with
  | zero => exact h0
  | succ k ih => exact hs _ _ _ (ih (by omega)) (r.step_event k hk)

def ofEvents (s : σ) (first : ε) (rest : List ε)
    (h : (runEvents step s (first :: rest)).isSome = true) : Run step where
  length := rest.length + 1
  state k := (runEvents step s ((first :: rest).take k)).getD s
  event k := (first :: rest)[k]?.getD first
  step_event k hk := by
    have hlt : k < (first :: rest).length := hk
    obtain ⟨last, hlast⟩ := Option.isSome_iff_exists.mp h
    rw [← List.take_append_drop k (first :: rest), runEvents_append] at hlast
    obtain ⟨s', hs', hlast⟩ := Option.bind_eq_some_iff.mp hlast
    rw [List.drop_eq_getElem_cons hlt] at hlast
    obtain ⟨s'', hs'', -⟩ := Option.bind_eq_some_iff.mp hlast
    have hnext : runEvents step s ((first :: rest).take (k + 1)) = some s'' := by
      rw [List.take_succ_eq_append_getElem hlt, runEvents_append, hs']
      simp [runEvents, hs'']
    rw [hs', hnext, List.getElem?_eq_getElem hlt]
    exact hs''

end Run

end GuestControl
