import GuestControl.Turnstile.State

/-!
# Steps and standings

`Step` lists what a thread can do at the turnstiles, one rule for each way a
step can go. The books (registry, counters, tickets) do not tell all phases
apart: a `Standing` is what they know of a thread, and only drawing, advancing
and signing off change it.
-/

namespace GuestControl.Turnstile

-- ---------------------------------------------------------------------------
-- Lists with one place changed
-- ---------------------------------------------------------------------------

section
variable {α : Type} {l : List α} {t u : Nat} {a b x : α}

theorem getElem?_set_some (h : (l.set t b)[u]? = some x) :
    u = t ∧ x = b ∨ u ≠ t ∧ l[u]? = some x := by
  by_cases hu : u = t
  · subst hu
    have hlt : u < l.length := by simpa using (List.getElem?_eq_some_iff.mp h).1
    simp only [List.getElem?_set_self hlt, Option.some.injEq] at h
    exact .inl ⟨rfl, h.symm⟩
  · rw [List.getElem?_set_ne (Ne.symm hu)] at h
    exact .inr ⟨hu, h⟩

theorem getElem?_set_self_of_some (h : l[t]? = some a) : (l.set t b)[t]? = some b :=
  List.getElem?_set_self (List.getElem?_eq_some_iff.mp h).1

/-- What differs from the element that is replaced stays in its place. -/
theorem getElem?_set_of_ne_of_some (h : l[t]? = some a) (hu : l[u]? = some x) (hx : x ≠ a) :
    (l.set t b)[u]? = some x := by
  have hne : t ≠ u := by
    rintro rfl
    exact hx (Option.some.inj (hu.symm.trans h))
  rw [List.getElem?_set_ne hne, hu]

end

-- ---------------------------------------------------------------------------
-- Steps
-- ---------------------------------------------------------------------------

namespace State

abbrev registered? (s : State) (id : Guid) : Option Entry := SortedMap.find? s.entries id

def entry (s : State) (id : Guid) : Entry :=
  (s.registered? id).getD { pending := 0, nextTicket := 0, slot := s.made id }

theorem entryFor_fst (s : State) (id : Guid) : (s.entryFor id).1 = s.entry id := by
  simp only [entryFor, entry, registered?]
  split <;> simp [*]

def enroll (s : State) (id : Guid) : State :=
  (s.entryFor id).2.putEntry id
    { s.entry id with
      pending := (s.entry id).pending + 1, nextTicket := (s.entry id).nextTicket + 1 }

def serveNext (s : State) (slot : Slot) : State :=
  { s with serving := fun sl => if sl = slot then s.serving slot + 1 else s.serving sl }

def wakeAll (s : State) (slot : Slot) : State := { s with threads := s.threads.map (wake slot) }

theorem threads_entryFor (s : State) (id : Guid) : (s.entryFor id).2.threads = s.threads := by
  simp only [entryFor]
  split <;> rfl

theorem threads_enroll (s : State) (id : Guid) : (s.enroll id).threads = s.threads :=
  threads_entryFor s id

theorem threads_signOff (s : State) (id : Guid) : (s.signOff id).threads = s.threads := by
  simp only [signOff]
  split
  · rfl
  · split <;> rfl

end State

inductive Step (s : State) (t : Nat) : Act → State → Prop
  | draw (id : Guid) : s.threads[t]? = some .idle → Step s t (.draw id)
      ((s.enroll id).setPhase t (.arriving ⟨id, (s.entry id).slot⟩ (s.entry id).nextTicket))
  | grant : s.threads[t]? = some (.arriving slot k) → s.serving slot = k →
      Step s t .look (s.setPhase t (.holding slot))
  | sleep : s.threads[t]? = some (.arriving slot k) → s.serving slot ≠ k →
      Step s t .look (s.setPhase t (.asleep slot k))
  | rouse : s.threads[t]? = some (.asleep slot k) →
      Step s t .rouse (s.setPhase t (.arriving slot k))
  | advance : s.threads[t]? = some (.holding slot) →
      Step s t .advance ((s.serveNext slot).setPhase t (.advanced slot))
  | call : s.threads[t]? = some (.advanced slot) →
      Step s t .call ((s.wakeAll slot).setPhase t (.called slot))
  | sign : s.threads[t]? = some (.called slot) →
      Step s t .sign ((s.signOff slot.id).setPhase t .idle)

inductive Phase.Moves : Phase → Act → Phase → Prop
  | draw (id : Guid) : Moves .idle (.draw id) (.arriving ⟨id, n⟩ k)
  | grant : Moves (.arriving slot k) .look (.holding slot)
  | sleep : Moves (.arriving slot k) .look (.asleep slot k)
  | rouse : Moves (.asleep slot k) .rouse (.arriving slot k)
  | advance : Moves (.holding slot) .advance (.advanced slot)
  | call : Moves (.advanced slot) .call (.called slot)
  | sign : Moves (.called slot) .sign .idle

variable {s s' : State} {t u : Nat} {id : Guid} {slot : Slot} {a : Act}

theorem Step.of_step (h : s.step t a = some s') : Step s t a s' := by
  unfold State.step at h
  split at h
  · rename_i id hp
    have h : some (((s.entryFor id).2.putEntry id { (s.entryFor id).1 with
      pending := (s.entryFor id).1.pending + 1,
      nextTicket := (s.entryFor id).1.nextTicket + 1 }).setPhase t
        (.arriving ⟨id, (s.entryFor id).1.slot⟩ (s.entryFor id).1.nextTicket)) = some s' := h
    rw [State.entryFor_fst] at h
    exact Option.some.inj h ▸ .draw id hp
  · rename_i slot k hp
    split at h
    · rename_i hk
      exact Option.some.inj h ▸ .grant hp hk
    · rename_i hk
      exact Option.some.inj h ▸ .sleep hp hk
  · rename_i hp
    exact Option.some.inj h ▸ .rouse hp
  · rename_i hp
    exact Option.some.inj h ▸ .advance hp
  · rename_i hp
    exact Option.some.inj h ▸ .call hp
  · rename_i hp
    exact Option.some.inj h ▸ .sign hp
  · cases h

theorem Step.to_step (h : Step s t a s') : s.step t a = some s' := by
  cases h with
  | draw id hp => simp only [State.step, hp, State.enroll, ← State.entryFor_fst]
  | grant hp hk => simp [State.step, hp, hk]
  | sleep hp hk => simp [State.step, hp, hk]
  | rouse hp => simp [State.step, hp]
  | advance hp => simp only [State.step, hp]; rfl
  | call hp => simp only [State.step, hp]; rfl
  | sign hp => simp [State.step, hp]

theorem Step.moves (h : Step s t a s') :
    ∃ p p', s.threads[t]? = some p ∧ s'.threads[t]? = some p' ∧ p.Moves a p' := by
  cases h with
  | draw id ht =>
    refine ⟨_, _, ht, getElem?_set_self_of_some (a := .idle) ?_, .draw id⟩
    rw [State.threads_enroll, ht]
  | grant ht _ => exact ⟨_, _, ht, getElem?_set_self_of_some ht, .grant⟩
  | sleep ht _ => exact ⟨_, _, ht, getElem?_set_self_of_some ht, .sleep⟩
  | rouse ht => exact ⟨_, _, ht, getElem?_set_self_of_some ht, .rouse⟩
  | advance ht => exact ⟨_, _, ht, getElem?_set_self_of_some ht, .advance⟩
  | @call slot ht =>
    refine ⟨_, _, ht, getElem?_set_self_of_some (a := .advanced slot) ?_, .call⟩
    simp [State.wakeAll, ht, State.wake]
  | @sign slot ht =>
    refine ⟨_, _, ht, getElem?_set_self_of_some (a := .called slot) ?_, .sign⟩
    rw [State.threads_signOff, ht]

/-- A step of one thread leaves the others where they are, but that it may wake sleepers. -/
theorem Step.others (h : Step s t a s') (hu : u ≠ t) : s'.threads[u]? = s.threads[u]? ∨
    ∃ slot k, s.threads[t]? = some (.advanced slot) ∧ s.threads[u]? = some (.asleep slot k) ∧
      s'.threads[u]? = some (.arriving slot k) := by
  cases h with
  | draw id _ =>
    refine .inl ((List.getElem?_set_ne hu.symm).trans ?_)
    rw [State.threads_enroll]
  | call ht =>
    rename_i slot
    have hset : (((s.wakeAll slot).setPhase t (.called slot)).threads)[u]? =
        s.threads[u]?.map (State.wake slot) := by
      simp [State.setPhase, State.wakeAll, List.getElem?_set_ne hu.symm]
    cases hp : s.threads[u]? with
    | none => exact .inl (by rw [hset, hp]; rfl)
    | some p =>
      cases p with
      | asleep sl k =>
        by_cases hsl : sl = slot
        · subst hsl
          exact .inr ⟨sl, k, ht, rfl, by simp [hset, hp, State.wake]⟩
        · exact .inl (by simp [hset, hp, State.wake, hsl])
      | _ => exact .inl (by rw [hset, hp]; rfl)
  | sign _ =>
    refine .inl ((List.getElem?_set_ne hu.symm).trans ?_)
    rw [State.threads_signOff]
  | _ => exact .inl (List.getElem?_set_ne hu.symm)

theorem State.heldBy?_eq_some : s.heldBy? t = some id ↔
    ∃ slot, s.threads[t]? = some (.holding slot) ∧ slot.id = id := by
  simp only [heldBy?]
  split
  · rename_i slot hp
    simp [hp]
  · rename_i hp
    refine ⟨nofun, fun ⟨slot, h, _⟩ => absurd h (hp slot)⟩

-- ---------------------------------------------------------------------------
-- Standings
-- ---------------------------------------------------------------------------

/-- What the books know of a thread. -/
inductive Standing where
  | away
  /-- It waits with a ticket, or holds the slot by it. -/
  | queued (slot : Slot) (ticket : Nat)
  /-- It has moved the counter on and not yet signed off. -/
  | leaving (slot : Slot)
  deriving DecidableEq

namespace Standing

def slot? : Standing → Option Slot
  | .away => none
  | .queued slot _ | .leaving slot => some slot

/-- The thread is counted in the entry of a machine. -/
def isAt (id : Guid) : Standing → Bool
  | .away => false
  | .queued slot _ | .leaving slot => slot.id = id

/-- The thread holds or waits for a machine. -/
def isQueuedAt (id : Guid) : Standing → Bool
  | .queued slot _ => slot.id = id
  | .away | .leaving _ => false

@[simp] theorem isAt_away : isAt id .away = false := rfl
@[simp] theorem isAt_queued : isAt id (.queued slot k) = decide (slot.id = id) := rfl
@[simp] theorem isAt_leaving : isAt id (.leaving slot) = decide (slot.id = id) := rfl
@[simp] theorem isQueuedAt_away : isQueuedAt id .away = false := rfl
@[simp] theorem isQueuedAt_queued : isQueuedAt id (.queued slot k) = decide (slot.id = id) := rfl
@[simp] theorem isQueuedAt_leaving : isQueuedAt id (.leaving slot) = false := rfl

theorem isAt_iff {st : Standing} :
    st.isAt id = true ↔ ∃ slot, st.slot? = some slot ∧ slot.id = id := by
  cases st <;> simp [isAt, slot?]

theorem isQueuedAt_eq_false {st : Standing} (h : st.isAt id = false) :
    st.isQueuedAt id = false := by
  cases st with
  | queued => exact h
  | _ => rfl

end Standing

/-- A holder's ticket is the one that its slot serves. -/
def Phase.standing (serving : Slot → Nat) : Phase → Standing
  | .idle => .away
  | .arriving slot k | .asleep slot k => .queued slot k
  | .holding slot => .queued slot (serving slot)
  | .advanced slot | .called slot => .leaving slot

namespace State

def standings (s : State) : List Standing := s.threads.map (·.standing s.serving)

variable {p p' : Phase}

theorem standings_of_thread (h : s.threads[t]? = some p) :
    s.standings[t]? = some (p.standing s.serving) := by
  simp [standings, h]

theorem standings_setPhase (s : State) (t : Nat) (p : Phase) :
    (s.setPhase t p).standings = s.standings.set t (p.standing s.serving) :=
  List.map_set

theorem standings_setPhase_self (h : s.threads[t]? = some p)
    (hp : p.standing s.serving = p'.standing s.serving) :
    (s.setPhase t p').standings = s.standings := by
  obtain ⟨hlt, he⟩ := List.getElem?_eq_some_iff.mp (standings_of_thread h)
  rw [standings_setPhase, ← hp, ← he]
  exact List.set_getElem_self hlt

theorem standing_wake (f : Slot → Nat) (p : Phase) :
    (wake slot p).standing f = p.standing f := by
  cases p with
  | asleep sl k => simp only [wake]; split <;> rfl
  | _ => rfl

theorem standings_wakeAll (s : State) (slot : Slot) : (s.wakeAll slot).standings = s.standings := by
  simp only [standings, wakeAll, List.map_map]
  exact List.map_congr_left fun p _ => standing_wake s.serving p

theorem standings_join (s : State) : s.join.standings = s.standings ++ [.away] := by
  simp [standings, join, Phase.standing]

end State

end GuestControl.Turnstile
