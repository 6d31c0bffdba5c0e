import GuestControl.Proofs.Turnstile.Order

/-!
# One holder for each machine

At no time do two threads hold the slot of one machine, however their steps
interleave and however often the entry of the machine is removed and made
anew.
-/

namespace GuestControl.Turnstile

variable {s s' : State} {t u : Nat} {id : Guid} {slot sl : Slot}

namespace Orderly

theorem slot_unique (h : Orderly s) (ht : s.standings[t]? = some st) (hst : st.slot? = some slot)
    (hu : s.standings[u]? = some su) (hsu : su.slot? = some sl) (hid : slot.id = sl.id) :
    slot = sl :=
  ((h.fits sl.id).slot_eq ht hst hid).trans ((h.fits sl.id).slot_eq hu hsu rfl).symm

/-- A machine has one holder at most: holders have the ticket that the slot serves. -/
theorem holder_unique (h : Orderly s) (ht : s.heldBy? t = some id) (hu : s.heldBy? u = some id) :
    t = u := by
  obtain ⟨slot, ht, hid⟩ := State.heldBy?_eq_some.mp ht
  obtain ⟨sl, hu, hid'⟩ := State.heldBy?_eq_some.mp hu
  have ht := State.standings_of_thread ht
  have hu := State.standings_of_thread hu
  obtain rfl := h.slot_unique ht rfl hu rfl (hid.trans hid'.symm)
  exact h.queued_unique ht hu

end Orderly

theorem not_held_by_two (h : Reachable s) (hne : t ≠ u) :
    ¬ (s.heldBy? t = some id ∧ s.heldBy? u = some id) :=
  fun ⟨ht, hu⟩ => hne (h.orderly.holder_unique ht hu)

/-- The second slot of a machine, after the entry was removed with the first:
thread 1 holds it and thread 0, which held the first, waits. -/
theorem not_held_by_two_second_slot : ∃ s, Reachable s ∧
    s.threads = [.asleep ⟨.nil, 1⟩ 1, .holding ⟨.nil, 1⟩] ∧
    ¬ (s.heldBy? 0 = some .nil ∧ s.heldBy? 1 = some .nil) := by
  obtain ⟨s, hs⟩ : ∃ s, runEvents State.move (.init 2) [(0, .draw .nil), (0, .look), (0, .advance),
      (0, .call), (0, .sign), (1, .draw .nil), (0, .draw .nil), (1, .look), (0, .look)] = some s :=
    ⟨_, rfl⟩
  have h := (Reachable.init 2).run hs
  refine ⟨s, h, ?_, not_held_by_two h (by decide)⟩
  obtain rfl := Option.some.inj hs
  decide

end GuestControl.Turnstile
