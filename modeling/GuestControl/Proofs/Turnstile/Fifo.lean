import GuestControl.Proofs.Turnstile.Order

/-!
# First come, first served

Who draws a ticket for a machine first is granted its slot first, and has
moved the counter on before the other is granted it. This holds along every
run, also when the entry of the machine is removed and made anew in between.
-/

namespace GuestControl.Turnstile

variable {s s' : State} {t u : Nat} {id : Guid} {slot : Slot} {a : Act}

theorem Step.holding_before (h : Step s t a s') (hu : s'.threads[u]? = some (.holding slot)) :
    s.threads[u]? = some (.holding slot) ∨ t = u ∧ a = .look := by
  by_cases htu : u = t
  · subst htu
    obtain ⟨p, p', -, hp', hm⟩ := h.moves
    obtain rfl := Option.some.inj (hp'.symm.trans hu)
    cases hm
    exact .inr ⟨rfl, rfl⟩
  · rcases h.others htu with he | ⟨sl, k, -, -, hk⟩
    · exact .inl (he ▸ hu)
    · rw [hk] at hu
      cases hu

theorem Step.idle_of_draw (h : Step s t (.draw id) s') : s.threads[t]? = some .idle := by
  obtain ⟨p, p', hp, -, hm⟩ := h.moves
  cases hm
  exact hp

theorem Step.holding_of_advance (h : Step s t .advance s') :
    ∃ slot, s.threads[t]? = some (.holding slot) := by
  obtain ⟨p, p', hp, -, hm⟩ := h.moves
  cases hm
  exact ⟨_, hp⟩

theorem Step.granted (h : Step s t .look s') (hh : s'.holds t = true) :
    ∃ slot, s.threads[t]? = some (.arriving slot (s.serving slot)) := by
  cases h with
  | grant ht hk => exact ⟨_, by rw [ht, hk]⟩
  | sleep ht hk =>
    simp only [State.holds, State.heldBy?, State.setPhase, getElem?_set_self_of_some ht] at hh
    cases hh

abbrev History := Run State.move

namespace History

variable {r : History} {i j k m : Nat}

def Draws (r : History) (t : Nat) (id : Guid) (i : Nat) : Prop :=
  i < r.length ∧ r.event i = (t, .draw id)

/-- Since it drew a ticket at moment `i` the thread has drawn no other before `k`. -/
def SinceDraw (r : History) (t i k : Nat) : Prop :=
  i < k ∧ k ≤ r.length ∧ ∀ m, i < m → m < k → ∀ id, r.event m ≠ (t, .draw id)

/-- The slot that the thread drew a ticket for at moment `i` is granted at `k`. -/
def Grants (r : History) (t i k : Nat) : Prop :=
  r.SinceDraw t i k ∧ k < r.length ∧ r.event k = (t, .look) ∧ (r.state (k + 1)).holds t = true

/-- The slot that the thread drew a ticket for at moment `i` is given back at
`k`: the counter moves on. -/
def Returns (r : History) (t i k : Nat) : Prop :=
  r.SinceDraw t i k ∧ k < r.length ∧ r.event k = (t, .advance)

theorem reachable (r : History) (h0 : Reachable (r.state 0)) (hk : k ≤ r.length) :
    Reachable (r.state k) :=
  r.invariant h0 (fun _ _ _ h hs => h.step hs) hk

theorem step_at (r : History) (hk : k < r.length) (he : r.event k = (t, a)) :
    Step (r.state k) t a (r.state (k + 1)) := by
  have := r.step_event k hk
  rw [he] at this
  exact .of_step this

def ticket (r : History) (id : Guid) (i : Nat) : Standing :=
  .queued ⟨id, ((r.state i).entry id).slot⟩ ((r.state i).entry id).nextTicket

theorem queued_of_draws (h0 : Reachable (r.state 0)) (hi : r.Draws t id i) :
    (r.state (i + 1)).standings[t]? = some (r.ticket id i) := by
  have ho := (r.reachable h0 (Nat.le_of_lt hi.1)).orderly
  rcases ho.standings_step (r.step_at hi.1 hi.2) with
    ⟨id', hid, ht, he⟩ | ⟨_, hid, -⟩ | ⟨_, hid, -⟩ | ⟨hid, -⟩
  · cases hid
    rw [he]
    exact getElem?_set_self_of_some ht
  · cases hid
  · cases hid
  · exact absurd rfl (hid id)

/-- The thread keeps its ticket until it gives the slot back. -/
theorem returns_or_queued (h0 : Reachable (r.state 0)) (hi : r.Draws t id i) (him : i < m)
    (hm : m ≤ r.length) : (∃ a, r.Returns t i a ∧ a < m) ∨
      r.SinceDraw t i m ∧ (r.state m).standings[t]? = some (r.ticket id i) := by
  induction m with
  | zero => omega
  | succ m ih =>
    by_cases hfirst : m = i
    · subst hfirst
      exact .inr ⟨⟨him, hm, fun _ _ _ => by omega⟩, queued_of_draws h0 hi⟩
    rcases ih (by omega) (by omega) with ⟨a, ha, ham⟩ | ⟨hsince, hq⟩
    · exact .inl ⟨a, ha, by omega⟩
    have ho := (r.reachable h0 hsince.2.1).orderly
    have hs := r.step_at (t := (r.event m).1) (a := (r.event m).2) hm rfl
    rcases ho.queued_after hs hq with hq' | ⟨ht, ha⟩
    · refine .inr ⟨⟨by omega, hm, fun k hik hkm id' hk => ?_⟩, hq'⟩
      by_cases hlast : k = m
      · -- Nobody draws with a ticket in hand.
        subst hlast
        rcases ho.standings_step (r.step_at hm hk) with
          ⟨_, -, hst, -⟩ | ⟨_, ha, -⟩ | ⟨_, ha, -⟩ | ⟨ha, -⟩
        · rw [hq] at hst
          cases hst
        · cases ha
        · cases ha
        · exact absurd rfl (ha id')
      · exact hsince.2.2 k hik (by omega) id' hk
    · exact .inl ⟨m, ⟨hsince, hm, Prod.ext ht ha⟩, by omega⟩

theorem eq_ticket_of_queued (h0 : Reachable (r.state 0)) (hi : r.Draws t id i)
    (hk : r.SinceDraw t i k) (hq : (r.state k).standings[t]? = some (.queued slot n)) :
    .queued slot n = r.ticket id i := by
  -- Backwards from `k`: only drawing would have brought the ticket about.
  suffices ∀ d m, m + d = k → i < m → (r.state m).standings[t]? = some (.queued slot n) by
    have := this (k - (i + 1)) (i + 1) (by have := hk.1; omega) (by omega)
    exact Option.some.inj (this.symm.trans (queued_of_draws h0 hi))
  intro d
  induction d with
  | zero =>
    rintro m rfl -
    exact hq
  | succ d ih =>
    intro m hm him
    have hlt : m < r.length := by have := hk.2.1; omega
    have hs := r.step_at (t := (r.event m).1) (a := (r.event m).2) hlt rfl
    have ho := (r.reachable h0 (Nat.le_of_lt hlt)).orderly
    rcases ho.queued_before hs (ih (m + 1) (by omega) (by omega)) with hq | ⟨ht, id', ha, -⟩
    · exact hq
    · exact absurd (Prod.ext ht ha) (hk.2.2 m him (by omega) id')

theorem grants_of_returns (hi : r.Draws t id i) (hk : r.Returns t i k) :
    ∃ g, r.Grants t i g ∧ g < k := by
  obtain ⟨hsince, hlt, hev⟩ := hk
  obtain ⟨slot, hhold⟩ := (r.step_at hlt hev).holding_of_advance
  -- Backwards from `k`, to the look that made the thread a holder.
  suffices ∀ m, i < m → m ≤ k → (r.state m).threads[t]? = some (.holding slot) →
      ∃ g, r.Grants t i g ∧ g < m from this k hsince.1 (Nat.le_refl k) hhold
  intro m
  induction m with
  | zero => omega
  | succ m ih =>
    intro him hmk hm
    have hs := r.step_at (t := (r.event m).1) (a := (r.event m).2) (by omega) rfl
    rcases hs.holding_before hm with hm' | ⟨ht, ha⟩
    · have hne : m ≠ i := by
        rintro rfl
        rw [(r.step_at hi.1 hi.2).idle_of_draw] at hm'
        cases hm'
      obtain ⟨g, hg, hgm⟩ := ih (by omega) (by omega) hm'
      exact ⟨g, hg, by omega⟩
    · have hne : m ≠ i := by
        rintro rfl
        rw [hi.2] at ha
        cases ha
      refine ⟨m, ⟨⟨by omega, by omega, fun j hij hjm => hsince.2.2 j hij (by omega)⟩, by omega,
        Prod.ext ht ha, ?_⟩, by omega⟩
      simp [State.holds, State.heldBy?, hm]

/-- Of two threads that draw a ticket for one machine, the first is granted the
slot and gives it back before the second is granted it. -/
theorem first_come_first_served (r : History) (h0 : Reachable (r.state 0))
    (hi : r.Draws t id i) (hj : r.Draws u id j) (hij : i < j) (hk : r.Grants u j k) :
    ∃ g b, r.Grants t i g ∧ r.Returns t i b ∧ g < b ∧ b < k := by
  obtain ⟨hsince, hlt, hev, hheld⟩ := hk
  have hjk := hsince.1
  suffices ∃ b, r.Returns t i b ∧ b < k by
    obtain ⟨b, hb, hbk⟩ := this
    obtain ⟨g, hg, hgb⟩ := grants_of_returns hi hb
    exact ⟨g, b, hg, hb, hgb, hbk⟩
  -- Otherwise the first still has its ticket when the second draws and when it is granted the slot.
  rcases returns_or_queued h0 hi hij (Nat.le_of_lt hj.1) with ⟨b, hb, hbj⟩ | ⟨-, hqj⟩
  · exact ⟨b, hb, by omega⟩
  rcases returns_or_queued h0 hi (m := k) (by omega) (Nat.le_of_lt hlt) with hb | ⟨-, hqk⟩
  · exact hb
  exfalso
  obtain ⟨slot, hserved⟩ := (r.step_at hlt hev).granted hheld
  have hsecond := eq_ticket_of_queued h0 hj hsince (State.standings_of_thread hserved)
  simp only [ticket, Standing.queued.injEq] at hsecond
  obtain ⟨rfl, hserving⟩ := hsecond
  have hfj := (r.reachable h0 (Nat.le_of_lt hj.1)).orderly.fits id
  have hfk := (r.reachable h0 (Nat.le_of_lt hlt)).orderly.fits id
  have hslotj := hfj.slot_eq hqj rfl rfl
  have hslotk := hfk.slot_eq hqk rfl rfl
  rw [ticket, hslotj] at hqj
  rw [ticket, hslotk] at hqk
  have hbelow := (hfj.bounds hqj).2
  have habove := (hfk.bounds hqk).1
  rw [← hslotk, hslotj, hserving] at habove
  omega

/-- Thread 1 wakes up uncalled in vain, and is granted the slot while thread 0,
which held it, has yet to sign off. -/
theorem first_come_first_served_roused :
    ∃ r : History, r.Draws 0 .nil 0 ∧ r.Draws 1 .nil 2 ∧ r.Grants 1 2 8 ∧
      ∃ g b, r.Grants 0 0 g ∧ r.Returns 0 0 b ∧ g < b ∧ b < 8 := by
  let r : History := .ofEvents (.init 2) (0, .draw .nil) [(0, .look), (1, .draw .nil), (1, .look),
    (1, .rouse), (1, .look), (0, .advance), (0, .call), (1, .look), (0, .sign)] (by decide)
  have hk : r.Grants 1 2 8 := by
    refine ⟨⟨by decide, by decide, fun m h2 h8 id he => ?_⟩, by decide, rfl, by decide⟩
    obtain rfl | rfl | rfl | rfl | rfl : m = 3 ∨ m = 4 ∨ m = 5 ∨ m = 6 ∨ m = 7 := by omega
    all_goals cases he
  refine ⟨r, ⟨by decide, rfl⟩, ⟨by decide, rfl⟩, hk, ?_⟩
  exact first_come_first_served r (.init 2) ⟨by decide, rfl⟩ ⟨by decide, rfl⟩ (by decide) hk

end History

end GuestControl.Turnstile
