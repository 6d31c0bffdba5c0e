import GuestControl.Proofs.Turnstile.Line
import GuestControl.Proofs.Turnstile.Queues

/-!
# Quiet states

Whatever steps the workers take between the cues of a script, every quiet state
shows what the queues show: the head of each queue holds the machine, and its
length is the number pending there. A quiet state can always be reached, so that
a script can be played exactly if the queues allow it.
-/

namespace GuestControl.Turnstile

variable {n : Nat} {cues : List Cue} {c : Cue} {s s' : State} {t u i : Nat} {a : Act} {q : Queues}
  {id : Guid} {slot sl : Slot}

namespace Quiet

theorem of_thread (h : Quiet s) (ht : s.threads[t]? = some p) : p.isQuiet s.serving = true :=
  h p (List.mem_of_getElem? ht)

/-- Among those who hold or wait, the holder is the one whose ticket is served. -/
theorem heldBy?_iff (h : Quiet s) : s.heldBy? t = some id ↔ Ranks s id t 0 := by
  rw [State.heldBy?_eq_some]
  refine ⟨fun ⟨slot, ht, hid⟩ => ⟨slot, hid, State.standings_of_thread ht⟩, ?_⟩
  rintro ⟨slot, hid, ht⟩
  obtain ⟨p, hp, hst⟩ : ∃ p, s.threads[t]? = some p ∧
      p.standing s.serving = .queued slot (s.serving slot) := by
    simpa [State.standings, Option.map_eq_some_iff] using ht
  have hquiet := h.of_thread hp
  cases p with
  | holding sl =>
    obtain ⟨rfl, -⟩ := Standing.queued.inj hst
    exact ⟨sl, hp, hid⟩
  | arriving sl k | asleep sl k =>
    obtain ⟨rfl, rfl⟩ := Standing.queued.inj hst
    exact absurd rfl (of_decide_eq_true hquiet)
  | _ => cases hst

theorem numberLeaving_eq_zero (h : Quiet s) (id : Guid) : s.numberLeaving id = 0 := by
  refine List.countP_eq_zero.mpr fun st hst => ?_
  obtain ⟨p, hp, rfl⟩ := List.mem_map.mp hst
  have hquiet := h p hp
  cases p with
  | advanced | called => cases hquiet
  | _ => exact Bool.false_ne_true

theorem shows (h : Quiet s) (ho : Orderly s) (hm : Mirrors q s) : Shows s q := by
  have hnumber : ∀ id, s.numberAt id = (q id).length := by
    intro id
    rw [State.numberAt_eq, h.numberLeaving_eq_zero, hm.length_eq ho, Nat.add_zero]
  refine ⟨fun t id => ?_, fun id => ?_, ?_⟩
  · rw [h.heldBy?_iff, hm.head_iff]
  · rw [ho.pending_eq, hnumber]
  · rw [← ho.active_eq]
    simp only [← State.numberAt_pos, hnumber, List.length_pos_iff]

theorem idle_iff (h : Quiet s) (ho : Orderly s) (hm : Mirrors q s) :
    s.threads[t]? = some .idle ↔ t < s.threads.length ∧ ∀ id, t ∉ q id := by
  constructor
  · intro ht
    refine ⟨(List.getElem?_eq_some_iff.mp ht).1, fun id hmem => ?_⟩
    obtain ⟨i, slot, -, hst⟩ := hm.mem_iff.mp hmem
    cases (State.standings_of_thread ht).symm.trans hst
  · rintro ⟨hlt, hout⟩
    have hp := List.getElem?_eq_getElem hlt
    have hquiet := h.of_thread hp
    have hst := State.standings_of_thread hp
    generalize s.threads[t] = p at hp hquiet hst
    cases p with
    | idle => exact hp
    | arriving slot _ | asleep slot _ | holding slot =>
      exact absurd (hm.mem_iff.mpr (ho.ranks_of_queued hst)) (hout slot.id)
    | advanced | called => cases hquiet

/-- In a quiet state a worker can follow its cue exactly if the queues allow it. -/
theorem step_iff_allows (h : Quiet s) (ho : Orderly s) (hm : Mirrors q s) :
    (∃ s', s.step c.worker c.act = some s') ↔ q.Allows s.threads.length c := by
  have hgive : ∀ t, (∃ s', s.step t .advance = some s') ↔ ∃ id, (q id).head? = some t := by
    intro t
    simp only [hm.head_iff, ← h.heldBy?_iff, State.heldBy?_eq_some]
    constructor
    · rintro ⟨s', hs⟩
      obtain ⟨p, p', hp, -, hmoves⟩ := (Step.of_step hs).moves
      cases hmoves
      exact ⟨_, _, hp, rfl⟩
    · rintro ⟨_, slot, ht, -⟩
      exact ⟨_, (Step.advance ht).to_step⟩
  cases c with
  | acquire t id =>
    show (∃ s', s.step t (.draw id) = some s') ↔ t < s.threads.length ∧ ∀ id, t ∉ q id
    rw [← h.idle_iff ho hm]
    constructor
    · rintro ⟨s', hs⟩
      obtain ⟨p, p', hp, -, hmoves⟩ := (Step.of_step hs).moves
      cases hmoves
      exact hp
    · exact fun ht => ⟨_, (Step.draw id ht).to_step⟩
  | release t | panic t => exact hgive t

end Quiet

-- ---------------------------------------------------------------------------
-- Coming to rest
-- ---------------------------------------------------------------------------

theorem sum_map_set_add {α : Type} {l : List α} {t : Nat} {x y : α} (f : α → Nat)
    (h : l[t]? = some x) : ((l.set t y).map f).sum + f x = (l.map f).sum + f y := by
  induction l generalizing t with
  | nil => simp at h
  | cons z l ih =>
    cases t with
    | zero =>
      obtain rfl : z = x := by simpa using h
      simp only [List.set_cons_zero, List.map_cons, List.sum_cons]
      omega
    | succ t =>
      have := ih (t := t) (by simpa using h)
      simp only [List.set_cons_succ, List.map_cons, List.sum_cons]
      omega

def State.due (s : State) : Nat := (s.threads.map fun p => 4 - p.stage).sum

theorem State.due_wakeAll (s : State) (slot : Slot) : (s.wakeAll slot).due = s.due := by
  simp only [due, wakeAll, List.map_map]
  congr 1
  refine List.map_congr_left fun p _ => ?_
  cases p with
  | asleep sl k => simp only [Function.comp_apply, wake]; split <;> rfl
  | _ => rfl

theorem State.due_setPhase_lt (ht : s.threads[t]? = some p) (hp : p.stage < p'.stage)
    (hle : p'.stage ≤ 4) : (s.setPhase t p').due < s.due := by
  have hsum := sum_map_set_add (y := p') (fun p => 4 - p.stage) ht
  simp only [due, setPhase]
  omega

/-- Unless all is quiet, somebody can go on to a later stage without a cue. -/
theorem Heard.exists_own (hh : Heard s) (hq : ¬ Quiet s) :
    ∃ t a s', a.isOwn = true ∧ s.step t a = some s' ∧ s'.due < s.due := by
  have call : ∀ (t : Nat) (slot : Slot), s.threads[t]? = some (.advanced slot) →
      ∃ t a s', a.isOwn = true ∧ s.step t a = some s' ∧ s'.due < s.due := by
    intro t slot ht
    refine ⟨t, .call, _, rfl, (Step.call ht).to_step, ?_⟩
    rw [← s.due_wakeAll slot]
    exact State.due_setPhase_lt (p := .advanced slot) (by simp [State.wakeAll, ht, State.wake])
      (Nat.lt_succ_self 2) (Nat.le_succ 3)
  simp only [Quiet, not_forall] at hq
  obtain ⟨p, hp, hloud⟩ := hq
  obtain ⟨t, ht⟩ := List.mem_iff_getElem?.mp hp
  cases p with
  | idle | holding => exact absurd rfl hloud
  | advanced slot => exact call t slot ht
  | called slot =>
    refine ⟨t, .sign, _, rfl, (Step.sign ht).to_step, ?_⟩
    have hdue : (s.signOff slot.id).due = s.due := by simp only [State.due, State.threads_signOff]
    rw [← hdue]
    exact State.due_setPhase_lt (p := .called slot) (by rw [State.threads_signOff, ht])
      (Nat.lt_succ_self 3) (Nat.le_refl 4)
  | arriving slot k =>
    obtain rfl : s.serving slot = k := by simpa [Phase.isQuiet] using hloud
    exact ⟨t, .look, _, rfl, (Step.grant ht rfl).to_step,
      State.due_setPhase_lt ht Nat.zero_lt_one (Nat.le_add_left 1 3)⟩
  | asleep slot k =>
    obtain rfl : s.serving slot = k := by simpa [Phase.isQuiet] using hloud
    obtain ⟨u, hu⟩ := hh t slot ht
    exact call u slot hu

theorem Played.exists_quiet (h : Played n cues s) : ∃ s', Played n cues s' ∧ Quiet s' := by
  induction hd : s.due using Nat.strong_induction_on generalizing s with
  | _ d ih =>
    by_cases hq : Quiet s
    · exact ⟨s, h, hq⟩
    · obtain ⟨t, a, s', ha, hs, hlt⟩ := h.reachable.heard.exists_own hq
      exact ih _ (hd ▸ hlt) (h.own ha hs) rfl

theorem exists_played_iff : (∃ s, Played n cues s) ↔ Queues.Legal n cues := by
  constructor
  · rintro ⟨s, h⟩
    induction h with
    | init => exact .nil
    | own _ _ _ ih => exact ih
    | cue h hq hs ih =>
      refine ih.snoc ?_
      rw [← h.length_threads]
      exact (hq.step_iff_allows h.reachable.orderly h.mirrors).mp ⟨_, hs⟩
  · intro h
    induction h with
    | nil => exact ⟨_, .init⟩
    | snoc _ hc ih =>
      obtain ⟨s, h⟩ := ih
      obtain ⟨s, h, hq⟩ := h.exists_quiet
      rw [← h.length_threads] at hc
      obtain ⟨s', hs⟩ := (hq.step_iff_allows h.reachable.orderly h.mirrors).mpr hc
      exact ⟨s', h.cue hq hs⟩

/-- Every quiet state of a script shows the queues after it, so that any two of
them show the same; and the scripts that come to one are those that the queues allow. -/
theorem quiet_shows_queues (n : Nat) (cues : List Cue) :
    ((∃ s, Played n cues s ∧ Quiet s) ↔ Queues.Legal n cues) ∧
    ∀ s, Played n cues s → Quiet s → Shows s (Queues.after cues) ∧
      ∀ s', Played n cues s' → Quiet s' →
        s'.heldBy? = s.heldBy? ∧ s'.pending = s.pending ∧ s'.active = s.active := by
  refine ⟨⟨fun ⟨s, h, _⟩ => exists_played_iff.mp ⟨s, h⟩, fun h => ?_⟩, fun s h hq => ?_⟩
  · obtain ⟨s, h⟩ := exists_played_iff.mpr h
    exact h.exists_quiet
  have hs := hq.shows h.reachable.orderly h.mirrors
  refine ⟨hs, fun s' h' hq' => ?_⟩
  have hs' := hq'.shows h'.reachable.orderly h'.mirrors
  refine ⟨funext fun t => Option.ext fun id => ?_, funext fun id => ?_, ?_⟩
  · rw [hs'.holder, hs.holder]
  · rw [hs'.pending, hs.pending]
  · exact Nat.cast_inj.mp (hs'.active.trans hs.active.symm)

/-- Worker 1 waits for worker 0, which crashes: in the end worker 1 holds the machine alone. -/
theorem quiet_shows_queues_crash : ∃ s,
    Played 2 [.acquire 0 .nil, .acquire 1 .nil, .panic 0] s ∧ Quiet s ∧
    s.heldBy? 1 = some .nil ∧ s.pending .nil = 1 := by
  have hfirst : Queues.Legal 2 [.acquire 0 .nil] :=
    .snoc .nil ⟨by decide, fun id => List.not_mem_nil⟩
  have hsecond : Queues.Legal 2 [.acquire 0 .nil, .acquire 1 .nil] := by
    refine hfirst.snoc ⟨by decide, fun id => ?_⟩
    by_cases hid : id = .nil <;> simp [Queues.after, Queues.cue, hid]
  have hlegal : Queues.Legal 2 [.acquire 0 .nil, .acquire 1 .nil, .panic 0] :=
    hsecond.snoc ⟨.nil, by simp [Queues.after, Queues.cue]⟩
  obtain ⟨hplayed, hshows⟩ := quiet_shows_queues 2 [.acquire 0 .nil, .acquire 1 .nil, .panic 0]
  obtain ⟨s, h, hq⟩ := hplayed.mpr hlegal
  obtain ⟨hs, -⟩ := hshows s h hq
  refine ⟨s, h, hq, ?_, ?_⟩
  · rw [hs.holder]
    simp [Queues.after, Queues.cue]
  · rw [hs.pending]
    simp [Queues.after, Queues.cue]

end GuestControl.Turnstile
