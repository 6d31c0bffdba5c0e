import GuestControl.Proofs.Turnstile.Order

/-!
# No wake-up is lost

A thread asleep whose ticket is served is about to be called: somebody has
moved the counter of its slot on and not yet called. Whenever somebody stands
at a machine, somebody there can go on without being roused. A call touches
the sleepers of its own slot and nobody else.
-/

namespace GuestControl.Turnstile

/-- Whoever sleeps though its ticket is served will be called. -/
def Heard (s : State) : Prop :=
  ∀ (t : Nat) (slot : Slot), s.threads[t]? = some (.asleep slot (s.serving slot)) →
    ∃ u : Nat, s.threads[u]? = some (.advanced slot)

/-- The thread has drawn a ticket for the machine and not yet signed off. -/
def StandsAt (s : State) (t : Nat) (id : Guid) : Prop :=
  ∃ p slot, s.threads[t]? = some p ∧ (p.standing s.serving).slot? = some slot ∧ slot.id = id

/-- The thread stands at the machine and its next step lets it go on: it holds
the slot, gives it back, or is awake with the ticket that is served. -/
inductive CanGoOn (s : State) (id : Guid) (t : Nat) : Act → Prop
  | holding : s.threads[t]? = some (.holding slot) → slot.id = id → CanGoOn s id t .advance
  | advanced : s.threads[t]? = some (.advanced slot) → slot.id = id → CanGoOn s id t .call
  | called : s.threads[t]? = some (.called slot) → slot.id = id → CanGoOn s id t .sign
  | served : s.threads[t]? = some (.arriving slot (s.serving slot)) → slot.id = id →
      CanGoOn s id t .look

variable {s s' : State} {t u : Nat} {id : Guid} {slot : Slot} {a : Act}

-- ---------------------------------------------------------------------------
-- One step
-- ---------------------------------------------------------------------------

theorem Step.asleep_before (h : Step s t a s') (hu : s'.threads[u]? = some (.asleep slot k)) :
    s.threads[u]? = some (.asleep slot k) ∨ s'.serving slot ≠ k := by
  by_cases hut : u = t
  · subst hut
    obtain ⟨p, p', -, hp', hm⟩ := h.moves
    obtain rfl := Option.some.inj (hp'.symm.trans hu)
    cases hm
    cases h with
    | grant ht _ => cases (getElem?_set_self_of_some ht).symm.trans hu
    | sleep ht hk =>
      cases (getElem?_set_self_of_some ht).symm.trans hu
      exact .inr hk
  · rcases h.others hut with he | ⟨sl, n, -, -, hn⟩
    · exact .inl (he ▸ hu)
    · rw [hn] at hu
      cases hu

theorem Step.advanced_after (h : Step s t a s') (hu : s.threads[u]? = some (.advanced slot)) :
    s'.threads[u]? = some (.advanced slot) ∨ u = t ∧ a = .call := by
  by_cases hut : u = t
  · subst hut
    obtain ⟨p, p', hp, -, hm⟩ := h.moves
    obtain rfl := Option.some.inj (hp.symm.trans hu)
    cases hm
    exact .inr ⟨rfl, rfl⟩
  · rcases h.others hut with he | ⟨sl, n, -, hn, -⟩
    · exact .inl (he ▸ hu)
    · rw [hn] at hu
      cases hu

/-- Only who advances moves a counter on, and has then yet to call. -/
theorem Step.serving_after (h : Step s t a s') (slot : Slot) :
    s'.serving slot = s.serving slot ∨
    s'.threads[t]? = some (.advanced slot) := by
  cases h with
  | @advance sl ht =>
    by_cases hsl : slot = sl
    · subst hsl
      exact .inr (getElem?_set_self_of_some ht)
    · exact .inl (if_neg hsl)
  | draw id _ => exact .inl (congrFun (State.serving_enroll s id) slot)
  | sign _ => exact .inl (congrFun (State.serving_signOff s _) slot)
  | _ => exact .inl rfl

theorem Step.called_after (h : Step s t .call s') (ht : s.threads[t]? = some (.advanced slot))
    (hu : s.threads[u]? = some (.asleep slot k)) : s'.threads[u]? = some (.arriving slot k) := by
  have hut : t ≠ u := by
    rintro rfl
    rw [ht] at hu
    cases hu
  cases h with
  | @call sl ht' =>
    obtain rfl : slot = sl := by simpa [ht] using ht'
    simp [State.setPhase, State.wakeAll, List.getElem?_set_ne hut, hu, State.wake]

theorem Heard.step (hh : Heard s) (h : Step s t a s') : Heard s' := by
  intro u slot hu
  rcases h.asleep_before hu with hold | hne
  · rcases h.serving_after slot with hs | ht
    · obtain ⟨v, hv⟩ := hh u slot (hs ▸ hold)
      rcases h.advanced_after hv with hv' | ⟨rfl, rfl⟩
      · exact ⟨v, hv'⟩
      · -- The caller has just woken the thread up.
        rw [h.called_after hv hold] at hu
        cases hu
    · exact ⟨t, ht⟩
  · exact absurd rfl hne

-- ---------------------------------------------------------------------------
-- All runs
-- ---------------------------------------------------------------------------

theorem Reachable.heard (h : Reachable s) : Heard s := by
  induction h with
  | init n =>
    intro t slot ht
    obtain ⟨_, he⟩ := List.getElem?_eq_some_iff.mp ht
    simp [State.init] at he
  | @join s _ ih =>
    intro t slot ht
    have hold : s.threads[t]? = some (.asleep slot (s.serving slot)) := by
      simp only [State.join, List.getElem?_append] at ht
      split at ht
      · exact ht
      · cases List.mem_singleton.mp (List.mem_of_getElem? ht)
    obtain ⟨u, hu⟩ := ih t slot hold
    exact ⟨u, by rwa [State.join, List.getElem?_append_left (List.getElem?_eq_some_iff.mp hu).1]⟩
  | step _ hs ih => exact ih.step (.of_step hs)

theorem CanGoOn.step (h : CanGoOn s id t a) : ∃ s', s.step t a = some s' := by
  cases h with
  | holding ht => exact ⟨_, (Step.advance ht).to_step⟩
  | advanced ht => exact ⟨_, (Step.call ht).to_step⟩
  | called ht => exact ⟨_, (Step.sign ht).to_step⟩
  | served ht => exact ⟨_, (Step.grant ht rfl).to_step⟩

/-- Where somebody waits, the ticket that is served is in somebody's hands. -/
theorem Orderly.canGoOn_of_queued (ho : Orderly s) (hh : Heard s)
    (ht : s.standings[t]? = some (.queued slot k)) : ∃ u a, CanGoOn s slot.id u a := by
  have hf := ho.fits slot.id
  have hslot := hf.slot_eq ht rfl rfl
  have hb := hf.bounds (k := k) (by rw [← hslot]; exact ht)
  obtain ⟨u, hu⟩ := hf.complete (Nat.le_refl _) (Nat.lt_of_le_of_lt hb.1 hb.2)
  rw [← hslot] at hu
  obtain ⟨p, hp, hst⟩ : ∃ p, s.threads[u]? = some p ∧
      p.standing s.serving = .queued slot (s.serving slot) := by
    simpa [State.standings, Option.map_eq_some_iff] using hu
  cases p with
  | arriving sl n =>
    obtain ⟨rfl, rfl⟩ : sl = slot ∧ n = s.serving slot := by simpa [Phase.standing] using hst
    exact ⟨u, _, .served hp rfl⟩
  | asleep sl n =>
    obtain ⟨rfl, rfl⟩ : sl = slot ∧ n = s.serving slot := by simpa [Phase.standing] using hst
    obtain ⟨v, hv⟩ := hh u sl hp
    exact ⟨v, _, .advanced hv rfl⟩
  | holding sl =>
    obtain ⟨rfl, -⟩ := Standing.queued.inj hst
    exact ⟨u, _, .holding hp rfl⟩
  | _ => cases hst

theorem Orderly.canGoOn (ho : Orderly s) (hh : Heard s) (h : StandsAt s t id) :
    ∃ u a, CanGoOn s id u a := by
  obtain ⟨p, slot, hp, hslot, rfl⟩ := h
  have hst := State.standings_of_thread hp
  cases p with
  | idle => cases hslot
  | arriving sl n =>
    obtain rfl := Option.some.inj hslot
    exact ho.canGoOn_of_queued hh hst
  | asleep sl n =>
    obtain rfl := Option.some.inj hslot
    exact ho.canGoOn_of_queued hh hst
  | holding sl =>
    obtain rfl := Option.some.inj hslot
    exact ⟨t, _, .holding hp rfl⟩
  | advanced sl =>
    obtain rfl := Option.some.inj hslot
    exact ⟨t, _, .advanced hp rfl⟩
  | called sl =>
    obtain rfl := Option.some.inj hslot
    exact ⟨t, _, .called hp rfl⟩

/-- In every reachable state: who sleeps with the ticket that its slot serves
is about to be called; where somebody stands, somebody can go on; and a call
wakes everyone asleep at its slot and leaves all others where they are. -/
theorem no_lost_wakeup (h : Reachable s) :
    Heard s ∧
    (∀ t id, StandsAt s t id → ∃ u a s', CanGoOn s id u a ∧ s.step u a = some s') ∧
    ∀ (t : Nat) (slot : Slot) (s' : State), s.threads[t]? = some (.advanced slot) →
      s.step t .call = some s' →
      (∀ (u k : Nat), s.threads[u]? = some (.asleep slot k) →
        s'.threads[u]? = some (.arriving slot k)) ∧
      ∀ (u : Nat), u ≠ t → (∀ k, s.threads[u]? ≠ some (.asleep slot k)) →
        s'.threads[u]? = s.threads[u]? := by
  refine ⟨h.heard, ?_, ?_⟩
  · intro t id ht
    obtain ⟨u, a, hu⟩ := h.orderly.canGoOn h.heard ht
    obtain ⟨s', hs'⟩ := hu.step
    exact ⟨u, a, s', hu, hs'⟩
  · intro t slot s' ht hs
    have hs := Step.of_step hs
    refine ⟨fun u k => hs.called_after ht, fun u hut hu => ?_⟩
    rcases hs.others hut with he | ⟨sl, k, ht', hk, -⟩
    · exact he
    · rw [ht] at ht'
      cases ht'
      exact absurd hk (hu k)

/-- Threads 1 and 2 sleep at the slots of two machines, thread 0 has moved the
counter of the first on and not yet called: thread 1 is the one it will wake. -/
theorem no_lost_wakeup_two_machines : ∃ s id, Reachable s ∧
    s.threads = [.advanced ⟨.nil, 0⟩, .asleep ⟨.nil, 0⟩ 1, .asleep ⟨id, 0⟩ 1, .holding ⟨id, 0⟩] ∧
    ∃ s', s.step 0 .call = some s' ∧ Heard s' ∧
      s'.threads[1]? = some (.arriving ⟨.nil, 0⟩ 1) ∧ s'.threads[2]? = some (.asleep ⟨id, 0⟩ 1) ∧
      ∃ u a s'', CanGoOn s' .nil u a ∧ s'.step u a = some s'' := by
  let id : Guid := ⟨List.replicate 32 1, rfl⟩
  obtain ⟨s, hs⟩ : ∃ s, runEvents State.move (.init 4) [(0, .draw .nil), (0, .look), (3, .draw id),
      (3, .look), (1, .draw .nil), (1, .look), (2, .draw id), (2, .look), (0, .advance)] = some s :=
    ⟨_, rfl⟩
  have h := (Reachable.init 4).run hs
  have hthreads : s.threads =
      [.advanced ⟨.nil, 0⟩, .asleep ⟨.nil, 0⟩ 1, .asleep ⟨id, 0⟩ 1, .holding ⟨id, 0⟩] := by
    obtain rfl := Option.some.inj hs
    decide
  obtain ⟨s', hs'⟩ := (CanGoOn.advanced (s := s) (t := 0) (by rw [hthreads]; rfl) rfl).step
  obtain ⟨hwoken, hothers⟩ := (no_lost_wakeup h).2.2 0 _ s' (by rw [hthreads]; rfl) hs'
  have h1 := hwoken 1 1 (by rw [hthreads]; rfl)
  have h2 := hothers 2 (by decide) fun k hk => by
    rw [hthreads] at hk
    simp only [List.getElem?_cons_succ, List.getElem?_cons_zero, Option.some.injEq,
      Phase.asleep.injEq, Slot.mk.injEq] at hk
    exact absurd hk.1.1 (by decide)
  obtain ⟨hheard, hgo, -⟩ := no_lost_wakeup (h.step hs')
  refine ⟨s, id, h, hthreads, s', hs', hheard, h1, by rw [h2, hthreads]; rfl, ?_⟩
  exact hgo 1 .nil ⟨_, _, h1, rfl, rfl⟩

end GuestControl.Turnstile
