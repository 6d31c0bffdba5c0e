import GuestControl.Proofs.Run
import GuestControl.Proofs.Turnstile.Books

/-!
# The books are in order

`Orderly` says that the entries of all machines fit, that an entry is there
only while it is needed, and that slots not made yet are untouched. It holds
at first, every step keeps it, and so it holds in every reachable state.
-/

namespace GuestControl.Turnstile

-- ---------------------------------------------------------------------------
-- Entries
-- ---------------------------------------------------------------------------

namespace State

variable {s : State} {t : Nat} {id id' : Guid} {e : Entry}

theorem entry_of_some (h : s.registered? id = some e) : s.entry id = e := by
  rw [entry, h]
  rfl

theorem entry_of_none (h : s.registered? id = none) :
    s.entry id = { pending := 0, nextTicket := 0, slot := s.made id } := by
  rw [entry, h]
  rfl

theorem entry_congr {s' : State} (he : s'.registered? id = s.registered? id)
    (hm : s'.made id = s.made id) : s'.entry id = s.entry id := by
  rw [entry, he, hm, entry]

theorem entries_entryFor (s : State) (id : Guid) : (s.entryFor id).2.entries = s.entries := by
  simp only [entryFor]
  split <;> rfl

theorem serving_entryFor (s : State) (id : Guid) : (s.entryFor id).2.serving = s.serving := by
  simp only [entryFor]
  split <;> rfl

theorem registered?_enroll_self (s : State) (id : Guid) : (s.enroll id).registered? id =
    some { s.entry id with
      pending := (s.entry id).pending + 1, nextTicket := (s.entry id).nextTicket + 1 } :=
  SortedMap.find?_insert_self _ _ _ _

theorem registered?_enroll_of_ne (s : State) (h : id' ≠ id) :
    (s.enroll id).registered? id' = s.registered? id' := by
  simp only [registered?, enroll, putEntry, SortedMap.find?_insert_of_ne _ _ _ h, entries_entryFor]

theorem made_enroll_of_ne (s : State) (h : id' ≠ id) : (s.enroll id).made id' = s.made id' := by
  simp only [enroll, putEntry, entryFor]
  split <;> simp [h]

theorem made_le_enroll (s : State) (id id' : Guid) : s.made id' ≤ (s.enroll id).made id' := by
  simp only [enroll, putEntry, entryFor]
  split
  · exact Nat.le_refl _
  · show s.made id' ≤ if id' = id then s.made id + 1 else s.made id'
    split
    · rename_i h
      rw [h]
      exact Nat.le_succ _
    · exact Nat.le_refl _

theorem serving_enroll (s : State) (id : Guid) : (s.enroll id).serving = s.serving :=
  serving_entryFor s id

theorem serving_signOff (s : State) (id : Guid) : (s.signOff id).serving = s.serving := by
  simp only [signOff]
  split
  · rfl
  · split <;> rfl

theorem made_signOff (s : State) (id : Guid) : (s.signOff id).made = s.made := by
  simp only [signOff]
  split
  · rfl
  · split <;> rfl

theorem registered?_signOff_of_ne (s : State) (h : id' ≠ id) :
    (s.signOff id).registered? id' = s.registered? id' := by
  simp only [registered?, signOff]
  split
  · rfl
  · split
    · exact SortedMap.find?_erase_of_ne _ h
    · exact SortedMap.find?_insert_of_ne _ _ _ h

theorem registered?_signOff_self (hs : SortedMap.Sorted Guid.before s.entries)
    (h : s.registered? id = some e) : (s.signOff id).registered? id =
      if e.pending - 1 = 0 then none else some { e with pending := e.pending - 1 } := by
  simp only [registered?] at h
  simp only [registered?, signOff, h]
  split
  · exact SortedMap.find?_erase_self Guid.isOrder_before hs id
  · exact SortedMap.find?_insert_self _ _ _ _

theorem standings_enroll (s : State) (id : Guid) : (s.enroll id).standings = s.standings := by
  simp only [standings, serving_enroll, threads_enroll]

theorem standings_signOff (s : State) (id : Guid) : (s.signOff id).standings = s.standings := by
  simp only [standings, serving_signOff, threads_signOff]

end State

-- ---------------------------------------------------------------------------
-- All machines
-- ---------------------------------------------------------------------------

structure Orderly (s : State) : Prop where
  sorted : SortedMap.Sorted Guid.before s.entries
  /-- An entry is there for somebody, at a slot that has been made. -/
  in_use : ∀ {id e}, s.registered? id = some e → 0 < e.pending ∧ e.slot < s.made id
  /-- The counter of a slot not made yet stands at zero. -/
  unused : ∀ {id n}, s.made id ≤ n → s.serving ⟨id, n⟩ = 0
  fits : ∀ id, Fits s.standings s.serving id (s.entry id)

namespace Orderly

variable {s s' : State} {t u : Nat} {id : Guid} {slot : Slot} {a : Act}

theorem init (n : Nat) : Orderly (.init n) where
  sorted := List.Pairwise.nil
  in_use h := by cases h
  unused _ := rfl
  fits id := by
    refine Fits.fresh (fun st hst => ?_) rfl
    have hst : st ∈ (List.replicate n Phase.idle).map (·.standing fun _ => 0) := hst
    rw [List.map_replicate] at hst
    rw [(List.mem_replicate.mp hst).2]
    rfl

theorem join (h : Orderly s) : Orderly s.join where
  sorted := h.sorted
  in_use := h.in_use
  unused := h.unused
  fits id := State.standings_join s ▸ (h.fits id).join

theorem of_same (h : Orderly s) (he : s'.entries = s.entries) (hm : s'.made = s.made)
    (hc : s'.serving = s.serving) (hs : s'.standings = s.standings) : Orderly s' where
  sorted := he ▸ h.sorted
  in_use hf := by
    simp only [State.registered?, he] at hf
    rw [hm]
    exact h.in_use hf
  unused hn := by
    rw [hc]
    exact h.unused (hm ▸ hn)
  fits id := by
    rw [hs, hc, State.entry_congr (s := s) (by simp only [State.registered?, he]) (by rw [hm])]
    exact h.fits id

theorem queued_unique (h : Orderly s) (ht : s.standings[t]? = some (.queued slot k))
    (hu : s.standings[u]? = some (.queued slot k)) : t = u := by
  have hf := h.fits slot.id
  have hslot := hf.slot_eq ht rfl rfl
  exact hf.distinct (k := k) (by rw [← hslot, ht]) (by rw [← hslot, hu])

theorem draw (h : Orderly s) (ht : s.threads[t]? = some .idle) :
    Orderly ((s.enroll id).setPhase t
      (.arriving ⟨id, (s.entry id).slot⟩ (s.entry id).nextTicket)) where
  sorted := (State.entries_entryFor s id ▸ h.sorted).insert Guid.isOrder_before _ _
  in_use := by
    intro id' e he
    by_cases hid : id' = id
    · subst hid
      obtain rfl := Option.some.inj ((State.registered?_enroll_self s id').symm.trans he)
      refine ⟨Nat.succ_pos _, ?_⟩
      show (s.entry id').slot < (s.enroll id').made id'
      cases hold : s.registered? id' with
      | none =>
        simp only [State.registered?] at hold
        simp [State.entry, State.enroll, State.putEntry, State.entryFor, hold]
      | some e =>
        rw [State.entry_of_some hold]
        exact Nat.lt_of_lt_of_le (h.in_use hold).2 (State.made_le_enroll s id' id')
    · have hold : s.registered? id' = some e := (State.registered?_enroll_of_ne s hid).symm.trans he
      show 0 < e.pending ∧ e.slot < (s.enroll id).made id'
      rw [State.made_enroll_of_ne s hid]
      exact h.in_use hold
  unused := by
    intro id' n hn
    show (s.enroll id).serving ⟨id', n⟩ = 0
    rw [State.serving_enroll]
    exact h.unused (Nat.le_trans (State.made_le_enroll s id id') hn)
  fits := by
    intro id'
    have haway : s.standings[t]? = some .away := State.standings_of_thread ht
    rw [State.standings_setPhase, State.standings_enroll]
    show Fits _ (s.enroll id).serving id' ((s.enroll id).entry id')
    rw [State.serving_enroll]
    by_cases hid : id' = id
    · subst hid
      rw [State.entry_of_some (State.registered?_enroll_self s id')]
      exact (h.fits id').draw haway
    · rw [State.entry_congr (State.registered?_enroll_of_ne s hid) (State.made_enroll_of_ne s hid)]
      exact (h.fits id').frame haway rfl (decide_eq_false (Ne.symm hid)) fun _ => rfl

/-- While one thread holds a slot, moving its counter on changes no other standing. -/
theorem standings_advance (h : Orderly s) (ht : s.threads[t]? = some (.holding slot)) :
    ((s.serveNext slot).setPhase t (.advanced slot)).standings =
      s.standings.set t (.leaving slot) := by
  rw [State.standings_setPhase]
  refine List.ext_getElem? fun u => ?_
  by_cases hu : t = u
  · subst hu
    simp [State.standings, State.serveNext, List.getElem?_set, Phase.standing]
  rw [List.getElem?_set_ne hu, List.getElem?_set_ne hu]
  simp only [State.standings, State.serveNext, List.getElem?_map]
  cases hp : s.threads[u]? with
  | none => rfl
  | some p =>
    cases p with
    | holding sl =>
      have hne : sl ≠ slot := by
        rintro rfl
        exact hu (h.queued_unique (State.standings_of_thread ht) (State.standings_of_thread hp))
      simp [Phase.standing, hne]
    | _ => rfl

theorem advance (h : Orderly s) (ht : s.threads[t]? = some (.holding slot)) :
    Orderly ((s.serveNext slot).setPhase t (.advanced slot)) where
  sorted := h.sorted
  in_use := h.in_use
  unused := by
    intro id n hn
    have hqueued := State.standings_of_thread ht
    have hslot := (h.fits slot.id).slot_eq hqueued rfl rfl
    have hmade : slot.number < s.made slot.id := by
      cases he : s.registered? slot.id with
      | none =>
        have := (h.fits slot.id).isAt_eq_false (by rw [State.entry_of_none he]) hqueued
        simp [Phase.standing] at this
      | some e =>
        rw [hslot, State.entry_of_some he]
        exact (h.in_use he).2
    show (if (⟨id, n⟩ : Slot) = slot then s.serving slot + 1 else s.serving ⟨id, n⟩) = 0
    have hn : s.made id ≤ n := hn
    have hne : (⟨id, n⟩ : Slot) ≠ slot := by
      rintro rfl
      exact absurd hmade (Nat.not_lt.mpr hn)
    rw [if_neg hne]
    exact h.unused hn
  fits := by
    intro id
    have hqueued := State.standings_of_thread ht
    rw [h.standings_advance ht]
    show Fits _ (s.serveNext slot).serving id (s.entry id)
    by_cases hid : slot.id = id
    · have hslot := (h.fits id).slot_eq hqueued rfl hid
      rw [hslot] at hqueued ⊢
      exact (h.fits id).advance hqueued (by simp [State.serveNext])
    · refine (h.fits id).frame hqueued (decide_eq_false hid) (decide_eq_false hid) fun n => ?_
      have hne : (⟨id, n⟩ : Slot) ≠ slot := by
        rintro rfl
        exact hid rfl
      simp [State.serveNext, hne]

theorem sign (h : Orderly s) (ht : s.threads[t]? = some (.called slot)) :
    Orderly ((s.signOff slot.id).setPhase t .idle) := by
  have hleaving : s.standings[t]? = some (.leaving slot) := State.standings_of_thread ht
  -- A thread that stands at a machine is counted, so that there is an entry.
  obtain ⟨e, he⟩ : ∃ e, s.registered? slot.id = some e := by
    cases he : s.registered? slot.id with
    | some e => exact ⟨e, rfl⟩
    | none =>
      have := (h.fits slot.id).isAt_eq_false (by rw [State.entry_of_none he]) hleaving
      simp at this
  have hself := State.registered?_signOff_self h.sorted he
  have hfits := State.entry_of_some he ▸ (h.fits slot.id).sign hleaving rfl
  refine ⟨?_, ?_, ?_, ?_⟩
  · show SortedMap.Sorted Guid.before (s.signOff slot.id).entries
    simp only [State.signOff]
    split
    · exact h.sorted
    · split
      · exact h.sorted.erase _
      · exact h.sorted.insert Guid.isOrder_before _ _
  · intro id e' he'
    show 0 < e'.pending ∧ e'.slot < (s.signOff slot.id).made id
    have he' : (s.signOff slot.id).registered? id = some e' := he'
    rw [State.made_signOff]
    by_cases hid : id = slot.id
    · subst hid
      rw [hself] at he'
      split at he'
      · cases he'
      · rename_i hp
        obtain rfl := Option.some.inj he'
        exact ⟨Nat.pos_of_ne_zero hp, (h.in_use he).2⟩
    · exact h.in_use ((State.registered?_signOff_of_ne s hid).symm.trans he')
  · intro id n hn
    show (s.signOff slot.id).serving ⟨id, n⟩ = 0
    rw [State.serving_signOff]
    exact h.unused (State.made_signOff s slot.id ▸ hn)
  · intro id
    rw [State.standings_setPhase, State.standings_signOff]
    show Fits _ (s.signOff slot.id).serving id ((s.signOff slot.id).entry id)
    rw [State.serving_signOff]
    by_cases hid : id = slot.id
    · subst hid
      by_cases hp : e.pending - 1 = 0
      · rw [if_pos hp] at hself
        rw [State.entry_of_none hself, State.made_signOff]
        refine Fits.fresh (fun st hst => ?_) (h.unused (Nat.le_refl _))
        obtain ⟨u, hu⟩ := List.mem_iff_getElem?.mp hst
        exact hfits.isAt_eq_false hp hu
      · rw [if_neg hp] at hself
        rw [State.entry_of_some hself]
        exact hfits
    · rw [State.entry_congr (State.registered?_signOff_of_ne s hid) (by rw [State.made_signOff])]
      exact (h.fits id).frame hleaving (decide_eq_false (Ne.symm hid)) rfl fun _ => rfl

theorem standings_call (ht : s.threads[t]? = some (.advanced slot)) :
    ((s.wakeAll slot).setPhase t (.called slot)).standings = s.standings := by
  have ht : (s.wakeAll slot).threads[t]? = some (.advanced slot) := by
    simp [State.wakeAll, ht, State.wake]
  have hs : ((s.wakeAll slot).setPhase t (.called slot)).standings = (s.wakeAll slot).standings :=
    State.standings_setPhase_self ht rfl
  exact hs.trans (State.standings_wakeAll s slot)

theorem step (h : Orderly s) (hs : Step s t a s') : Orderly s' := by
  cases hs with
  | draw id ht => exact h.draw ht
  | grant ht hk =>
    refine h.of_same rfl rfl rfl (State.standings_setPhase_self ht ?_)
    simp [Phase.standing, hk]
  | sleep ht _ => exact h.of_same rfl rfl rfl (State.standings_setPhase_self ht rfl)
  | rouse ht => exact h.of_same rfl rfl rfl (State.standings_setPhase_self ht rfl)
  | advance ht => exact h.advance ht
  | call ht => exact h.of_same rfl rfl rfl (standings_call ht)
  | sign ht => exact h.sign ht

/-- What a step does to the standings: only the thread that draws, advances or
signs off gets another one. -/
theorem standings_step (h : Orderly s) (hs : Step s t a s') :
    (∃ id, a = .draw id ∧ s.standings[t]? = some .away ∧
      s'.standings = s.standings.set t (.queued ⟨id, (s.entry id).slot⟩ (s.entry id).nextTicket)) ∨
    (∃ slot, a = .advance ∧ s.standings[t]? = some (.queued slot (s.serving slot)) ∧
      s'.standings = s.standings.set t (.leaving slot)) ∨
    (∃ slot, a = .sign ∧ s.standings[t]? = some (.leaving slot) ∧
      s'.standings = s.standings.set t .away) ∨
    ((∀ id, a ≠ .draw id) ∧ a ≠ .advance ∧ a ≠ .sign ∧ s'.standings = s.standings) := by
  cases hs with
  | draw id ht =>
    refine .inl ⟨id, rfl, State.standings_of_thread ht, ?_⟩
    rw [State.standings_setPhase, State.standings_enroll]
    rfl
  | advance ht =>
    exact .inr (.inl ⟨_, rfl, State.standings_of_thread ht, h.standings_advance ht⟩)
  | sign ht =>
    refine .inr (.inr (.inl ⟨_, rfl, State.standings_of_thread ht, ?_⟩))
    rw [State.standings_setPhase, State.standings_signOff]
    rfl
  | grant ht hk =>
    refine .inr (.inr (.inr ⟨fun _ => Act.noConfusion, Act.noConfusion, Act.noConfusion, ?_⟩))
    exact State.standings_setPhase_self ht (by simp [Phase.standing, hk])
  | sleep ht _ =>
    refine .inr (.inr (.inr ⟨fun _ => Act.noConfusion, Act.noConfusion, Act.noConfusion, ?_⟩))
    exact State.standings_setPhase_self ht rfl
  | rouse ht =>
    refine .inr (.inr (.inr ⟨fun _ => Act.noConfusion, Act.noConfusion, Act.noConfusion, ?_⟩))
    exact State.standings_setPhase_self ht rfl
  | call ht =>
    refine .inr (.inr (.inr ⟨fun _ => Act.noConfusion, Act.noConfusion, Act.noConfusion, ?_⟩))
    exact standings_call ht

/-- A ticket stays with its thread until the thread advances. -/
theorem queued_after (h : Orderly s) (hs : Step s t a s')
    (hu : s.standings[u]? = some (.queued slot k)) :
    s'.standings[u]? = some (.queued slot k) ∨ t = u ∧ a = .advance := by
  by_cases htu : t = u
  · subst htu
    rcases h.standings_step hs with
      ⟨id, -, ht, -⟩ | ⟨sl, rfl, -, -⟩ | ⟨sl, -, ht, -⟩ | ⟨-, -, -, he⟩
    · rw [ht] at hu
      cases hu
    · exact .inr ⟨rfl, rfl⟩
    · rw [ht] at hu
      cases hu
    · exact .inl (he ▸ hu)
  · refine .inl ?_
    rcases h.standings_step hs with ⟨id, -, -, he⟩ | ⟨sl, -, -, he⟩ | ⟨sl, -, -, he⟩ | ⟨-, -, -, he⟩
    · rwa [he, List.getElem?_set_ne htu]
    · rwa [he, List.getElem?_set_ne htu]
    · rwa [he, List.getElem?_set_ne htu]
    · rwa [he]

/-- A ticket that a thread has it had before, unless the thread has just drawn it. -/
theorem queued_before (h : Orderly s) (hs : Step s t a s')
    (hu : s'.standings[u]? = some (.queued slot k)) :
    s.standings[u]? = some (.queued slot k) ∨ t = u ∧ ∃ id, a = .draw id ∧
      slot = ⟨id, (s.entry id).slot⟩ ∧ k = (s.entry id).nextTicket := by
  rcases h.standings_step hs with
    ⟨id, rfl, -, he⟩ | ⟨sl, -, -, he⟩ | ⟨sl, -, -, he⟩ | ⟨-, -, -, he⟩ <;> rw [he] at hu
  · rcases getElem?_set_some hu with ⟨rfl, hst⟩ | ⟨-, hu⟩
    · simp only [Standing.queued.injEq] at hst
      exact .inr ⟨rfl, id, rfl, hst.1, hst.2⟩
    · exact .inl hu
  · rcases getElem?_set_some hu with ⟨-, hst⟩ | ⟨-, hu⟩
    · cases hst
    · exact .inl hu
  · rcases getElem?_set_some hu with ⟨-, hst⟩ | ⟨-, hu⟩
    · cases hst
    · exact .inl hu
  · exact .inl hu

end Orderly

-- ---------------------------------------------------------------------------
-- Reachable states
-- ---------------------------------------------------------------------------

/-- States that come about from any number of threads, by their steps in any
order; further threads may join at any time. -/
inductive Reachable : State → Prop
  | init (n : Nat) : Reachable (.init n)
  | join : Reachable s → Reachable s.join
  | step : Reachable s → s.step t a = some s' → Reachable s'

theorem Reachable.orderly (h : Reachable s) : Orderly s := by
  induction h with
  | init n => exact .init n
  | join _ ih => exact ih.join
  | step _ hs ih => exact ih.step (.of_step hs)

def State.move (s : State) (m : Nat × Act) : Option State := s.step m.1 m.2

theorem Reachable.run (h : Reachable s) (hm : runEvents State.move s moves = some s') :
    Reachable s' := by
  induction moves generalizing s with
  | nil =>
    obtain rfl := Option.some.inj hm
    exact h
  | cons m moves ih =>
    obtain ⟨mid, hmid, hm⟩ := Option.bind_eq_some_iff.mp hm
    exact ih (h.step hmid) hm

end GuestControl.Turnstile
