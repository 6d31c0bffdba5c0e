import GuestControl.Proofs.Turnstile.Wakeup
import Mathlib.Data.Set.Card

/-!
# The registry tells the truth

Between any two steps the registry has an entry for exactly the machines that
somebody stands at. The entry counts these threads, its tickets count those of
them that hold or wait, and each of them has the slot of the entry. So who signs
off always finds the entry that it drew its ticket from, counting at least one.
-/

namespace GuestControl

theorem SortedMap.Sorted.encard_keys {κ α : Type} [DecidableEq κ] {before : κ → κ → Bool}
    {m : SortedMap κ α} (ho : IsOrder before) (hm : Sorted before m) :
    {k | ∃ v, find? m k = some v}.encard = m.length := by
  have hkeys : {k | ∃ v, find? m k = some v} = ((m.map Prod.fst).toFinset : Set κ) := by
    ext k
    simp only [Set.mem_ofPred_eq, ← mem_keys, List.coe_toFinset]
  rw [hkeys, Set.encard_coe_eq_coe_finsetCard, List.toFinset_card_of_nodup (hm.nodup_keys ho),
    List.length_map]

namespace Turnstile

variable {s s' : State} {t : Nat} {id : Guid} {slot : Slot} {e : Entry}

-- ---------------------------------------------------------------------------
-- Who stands where
-- ---------------------------------------------------------------------------

namespace Standing

def isLeaving (id : Guid) : Standing → Bool
  | .leaving slot => slot.id = id
  | .away | .queued .. => false

theorem countP_isAt (l : List Standing) (id : Guid) :
    l.countP (isAt id) = l.countP (isQueuedAt id) + l.countP (isLeaving id) := by
  induction l with
  | nil => rfl
  | cons st l ih => cases st <;> simp [List.countP_cons, ih, isLeaving] <;> omega

end Standing

namespace State

/-- How many threads have drawn a ticket for the machine and not yet signed off. -/
def numberAt (s : State) (id : Guid) : Nat := s.standings.countP (Standing.isAt id)

/-- How many threads hold or wait for the machine. -/
def numberQueued (s : State) (id : Guid) : Nat := s.standings.countP (Standing.isQueuedAt id)

/-- How many threads are giving a slot of the machine back. -/
def numberLeaving (s : State) (id : Guid) : Nat := s.standings.countP (Standing.isLeaving id)

theorem pending_eq_entry (s : State) (id : Guid) : s.pending id = (s.entry id).pending := by
  simp only [pending, entry, registered?]
  split <;> simp [*]

theorem numberAt_eq (s : State) (id : Guid) :
    s.numberAt id = s.numberQueued id + s.numberLeaving id := Standing.countP_isAt ..

theorem numberAt_pos : 0 < s.numberAt id ↔ ∃ t, StandsAt s t id := by
  simp only [numberAt, standings, StandsAt, List.countP_map, List.countP_pos_iff,
    Function.comp_apply, Standing.isAt_iff, List.mem_iff_getElem?]
  constructor
  · rintro ⟨p, ⟨t, hp⟩, slot, h⟩
    exact ⟨t, p, slot, hp, h⟩
  · rintro ⟨t, p, slot, hp, h⟩
    exact ⟨p, ⟨t, hp⟩, slot, h⟩

end State

namespace Orderly

theorem pending_eq (h : Orderly s) (id : Guid) : s.pending id = s.numberAt id :=
  (State.pending_eq_entry s id).trans (h.fits id).pending

theorem registered_iff_pending (h : Orderly s) :
    (∃ e, s.registered? id = some e) ↔ 0 < s.pending id := by
  rw [State.pending_eq_entry]
  constructor
  · rintro ⟨e, he⟩
    rw [State.entry_of_some he]
    exact (h.in_use he).1
  · intro hpos
    cases he : s.registered? id with
    | some e => exact ⟨e, rfl⟩
    | none =>
      rw [State.entry_of_none he] at hpos
      exact absurd hpos (Nat.lt_irrefl 0)

theorem registered_iff (h : Orderly s) :
    (∃ e, s.registered? id = some e) ↔ ∃ t, StandsAt s t id := by
  rw [h.registered_iff_pending, h.pending_eq, State.numberAt_pos]

theorem registered_of_slot (h : Orderly s) (hst : s.standings[t]? = some st)
    (hslot : st.slot? = some slot) :
    ∃ e, s.registered? slot.id = some e ∧ slot = ⟨slot.id, e.slot⟩ := by
  have hpos : 0 < s.pending slot.id := by
    rw [h.pending_eq]
    exact countP_pos_of_getElem? hst (Standing.isAt_iff.mpr ⟨slot, hslot, rfl⟩)
  obtain ⟨e, he⟩ := h.registered_iff_pending.mpr hpos
  have hentry := (h.fits slot.id).slot_eq hst hslot rfl
  rw [State.entry_of_some he] at hentry
  exact ⟨e, he, hentry⟩

end Orderly

-- ---------------------------------------------------------------------------
-- The registry
-- ---------------------------------------------------------------------------

structure Truthful (s : State) : Prop where
  registered_iff : ∀ id, (∃ e, s.registered? id = some e) ↔ ∃ t, StandsAt s t id
  pending_eq : ∀ id e, s.registered? id = some e → e.pending = s.numberAt id
  /-- The tickets drawn and not yet served past are those of the threads that hold or wait. -/
  tickets_eq : ∀ id e, s.registered? id = some e → s.serving ⟨id, e.slot⟩ ≤ e.nextTicket ∧
    e.nextTicket - s.serving ⟨id, e.slot⟩ = s.numberQueued id
  slot_eq : ∀ (t : Nat) p slot, s.threads[t]? = some p → (p.standing s.serving).slot? = some slot →
    ∃ e, s.registered? slot.id = some e ∧ slot = ⟨slot.id, e.slot⟩
  /-- Who signs off finds the entry of its own slot, counts as one in it, and
  takes the entry away as the last. -/
  sign : ∀ t s', s.step t .sign = some s' → ∃ slot e, s.threads[t]? = some (.called slot) ∧
    s.registered? slot.id = some e ∧ slot = ⟨slot.id, e.slot⟩ ∧ 1 ≤ e.pending ∧
    s'.registered? slot.id =
      if e.pending = 1 then none else some { e with pending := e.pending - 1 }
  /-- What is shown as pending lies between those that hold or wait, and those with the leaving. -/
  pending_bounds : ∀ id, s.numberQueued id ≤ s.pending id ∧
    s.pending id ≤ s.numberQueued id + s.numberLeaving id
  active_eq : {id | ∃ t, StandsAt s t id}.encard = s.active
  entries_eq_nil_iff : s.entries = [] ↔ ∀ p ∈ s.threads, p = .idle

namespace Orderly

theorem sign_found (h : Orderly s) (hs : Step s t .sign s') :
    ∃ slot e, s.threads[t]? = some (.called slot) ∧ s.registered? slot.id = some e ∧
      slot = ⟨slot.id, e.slot⟩ ∧ 1 ≤ e.pending ∧ s'.registered? slot.id =
        if e.pending = 1 then none else some { e with pending := e.pending - 1 } := by
  cases hs with
  | @sign slot ht =>
    obtain ⟨e, he, hslot⟩ := h.registered_of_slot (State.standings_of_thread ht) rfl
    have hpos := (h.in_use he).1
    refine ⟨slot, e, ht, he, hslot, hpos, ?_⟩
    have hlast : e.pending - 1 = 0 ↔ e.pending = 1 := by omega
    exact (State.registered?_signOff_self h.sorted he).trans (by simp only [hlast])

theorem active_eq (h : Orderly s) : {id | ∃ t, StandsAt s t id}.encard = s.active := by
  simp only [← h.registered_iff]
  exact h.sorted.encard_keys Guid.isOrder_before

theorem entries_eq_nil_iff (h : Orderly s) : s.entries = [] ↔ ∀ p ∈ s.threads, p = .idle := by
  rw [← List.length_eq_zero_iff]
  have hactive : s.entries.length = 0 ↔ {id | ∃ t, StandsAt s t id} = ∅ := by
    rw [← Set.encard_eq_zero, h.active_eq, State.active, Nat.cast_eq_zero]
  rw [hactive, Set.eq_empty_iff_forall_notMem]
  constructor
  · intro hnone p hp
    obtain ⟨t, ht⟩ := List.mem_iff_getElem?.mp hp
    cases p with
    | idle => rfl
    | arriving slot _ | asleep slot _ | holding slot | advanced slot | called slot =>
      exact absurd ⟨t, _, slot, ht, rfl, rfl⟩ (hnone slot.id)
  · rintro hidle id ⟨t, p, slot, hp, hslot, -⟩
    rw [hidle p (List.mem_of_getElem? hp)] at hslot
    cases hslot

end Orderly

theorem registry_truthful (h : Reachable s) : Truthful s := by
  have ho := h.orderly
  refine ⟨fun id => ho.registered_iff, fun id e he => ?_, fun id e he => ?_,
    fun t p slot hp => ho.registered_of_slot (State.standings_of_thread hp),
    fun t s' hs => ho.sign_found (.of_step hs), fun id => ?_, ho.active_eq, ho.entries_eq_nil_iff⟩
  · have hcount := (ho.fits id).pending
    rwa [State.entry_of_some he] at hcount
  · have hline := (ho.fits id).line
    rw [State.entry_of_some he] at hline
    rw [hline]
    exact ⟨Nat.le_add_right .., Nat.add_sub_cancel_left ..⟩
  · rw [ho.pending_eq, State.numberAt_eq]
    exact ⟨Nat.le_add_right .., Nat.le_refl _⟩

/-- Thread 0 has called and not signed off, thread 1 holds the slot already, and
thread 2 waits: the entry counts all three, and two tickets are not served past. -/
theorem registry_truthful_overlap : ∃ s e, Reachable s ∧
    s.threads = [.called ⟨.nil, 0⟩, .holding ⟨.nil, 0⟩, .asleep ⟨.nil, 0⟩ 2] ∧
    Truthful s ∧ s.registered? .nil = some e ∧ e.pending = 3 ∧
    e.nextTicket - s.serving ⟨.nil, e.slot⟩ = 2 := by
  obtain ⟨s, hs⟩ : ∃ s, runEvents State.move (.init 3) [(0, .draw .nil), (0, .look),
      (1, .draw .nil), (0, .advance), (2, .draw .nil), (2, .look), (1, .look), (0, .call),
      (2, .look)] = some s := ⟨_, rfl⟩
  have h := (Reachable.init 3).run hs
  have hthreads : s.threads =
      [.called ⟨.nil, 0⟩, .holding ⟨.nil, 0⟩, .asleep ⟨.nil, 0⟩ 2] := by
    obtain rfl := Option.some.inj hs
    decide
  have ht := registry_truthful h
  obtain ⟨e, he, -⟩ := ht.slot_eq 0 _ ⟨.nil, 0⟩ (by rw [hthreads]; rfl) rfl
  refine ⟨s, e, h, hthreads, ht, he, ?_, ?_⟩
  · rw [ht.pending_eq _ e he]
    simp [State.numberAt, State.standings, hthreads, Phase.standing]
  · rw [(ht.tickets_eq _ e he).2]
    simp [State.numberQueued, State.standings, hthreads, Phase.standing]

end Turnstile

end GuestControl
