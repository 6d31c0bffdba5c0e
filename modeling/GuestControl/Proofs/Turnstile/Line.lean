import GuestControl.Proofs.Turnstile.Exclusion

/-!
# Threads in the line

A thread goes through its phases in their order, from the draw to the signing
off; the steps of others wake it up at most. Whoever draws a ticket comes
behind everyone in the line of the machine and stays there, and who holds the
slot has nobody ahead.
-/

namespace GuestControl.Turnstile

/-- How far a thread has come since it drew its ticket. -/
def Phase.stage : Phase → Nat
  | .arriving .. | .asleep .. => 0
  | .holding _ => 1
  | .advanced _ => 2
  | .called _ => 3
  | .idle => 4

variable {s s' : State} {t u v : Nat} {id : Guid} {slot : Slot} {a : Act} {p p' : Phase}

theorem Step.stage_le (h : Step s t a s') (hu : s.threads[u]? = some p)
    (hu' : s'.threads[u]? = some p') (hdraw : t = u → ∀ id, a ≠ .draw id) :
    p.stage ≤ p'.stage := by
  by_cases hut : u = t
  · subst hut
    obtain ⟨q, q', hq, hq', hm⟩ := h.moves
    obtain rfl := Option.some.inj (hu.symm.trans hq)
    obtain rfl := Option.some.inj (hu'.symm.trans hq')
    cases hm with
    | draw => exact absurd rfl (hdraw rfl _)
    | _ => simp [Phase.stage]
  · rcases h.others hut with he | ⟨slot, k, -, hk, hk'⟩
    · obtain rfl := Option.some.inj (hu'.symm.trans (he.trans hu))
      exact Nat.le_refl _
    · obtain rfl := Option.some.inj (hu.symm.trans hk)
      exact Nat.zero_le _

/-- Where both threads are in one line, the first has the lower ticket. -/
def Ahead (s : State) (t u : Nat) : Prop :=
  ∀ (slot : Slot) (k k' : Nat), s.standings[t]? = some (.queued slot k) →
    s.standings[u]? = some (.queued slot k') → k < k'

theorem Ahead.of_draw (ho : Orderly s) (hs : Step s u (.draw id) s') (htu : t ≠ u) :
    Ahead s' t u := by
  intro slot k k' ht hu
  have ht : s.standings[t]? = some (.queued slot k) := by
    rcases ho.queued_before hs ht with ht | ⟨hut, -⟩
    · exact ht
    · exact absurd hut.symm htu
  rcases ho.queued_before hs hu with hu | ⟨-, id', ha, rfl, rfl⟩
  · obtain ⟨p, p', hp, -, hm⟩ := hs.moves
    cases hm
    rw [State.standings_of_thread hp] at hu
    cases hu
  · cases ha
    exact ((ho.fits id).bounds ht).2

theorem Ahead.step (h : Ahead s t u) (ho : Orderly s) (hs : Step s v a s')
    (ht : v = t → ∀ id, a ≠ .draw id) (hu : v = u → ∀ id, a ≠ .draw id) : Ahead s' t u := by
  intro slot k k' hk hk'
  rcases ho.queued_before hs hk with hk | ⟨hv, id, ha, -⟩
  · rcases ho.queued_before hs hk' with hk' | ⟨hv, id, ha, -⟩
    · exact h slot k k' hk hk'
    · exact absurd ha (hu hv id)
  · exact absurd ha (ht hv id)

theorem Orderly.not_queued_ahead (ho : Orderly s) (ht : s.threads[t]? = some (.holding slot))
    (ha : Ahead s u t) (hid : sl.id = slot.id) : s.standings[u]? ≠ some (.queued sl k) := by
  intro hu
  have ht := State.standings_of_thread ht
  obtain rfl := ho.slot_unique hu rfl ht rfl hid
  have hlt := ha sl k _ hu ht
  have hf := ho.fits sl.id
  have hslot := hf.slot_eq hu rfl rfl
  have hle := (hf.bounds (k := k) (by rw [← hslot]; exact hu)).1
  rw [← hslot] at hle
  exact absurd hlt (Nat.not_lt.mpr hle)

end GuestControl.Turnstile
