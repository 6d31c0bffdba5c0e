import GuestControl.Proofs.Turnstile.Exclusion
import GuestControl.Proofs.Turnstile.Registry
import Mathlib.Order.Basic

/-!
# The turnstiles as queues

Workers follow a script: each cue is given when all is quiet, and between two
cues the workers take their own steps in any order. `Mirrors` ties the tickets
to one queue of workers for each machine. Drawing and advancing change the
queues as their cues say, and the other steps leave them alone.
-/

namespace GuestControl.Turnstile

-- ---------------------------------------------------------------------------
-- Scripts
-- ---------------------------------------------------------------------------

inductive Cue where
  | acquire (worker : Nat) (id : Guid)
  | release (worker : Nat)
  /-- The worker crashes, which unwinds its operation. -/
  | panic (worker : Nat)

def Cue.worker : Cue → Nat
  | .acquire worker _ | .release worker | .panic worker => worker

def Cue.act : Cue → Act
  | .acquire _ id => .draw id
  | .release _ | .panic _ => .advance

def Act.isOwn : Act → Bool
  | .look | .rouse | .call | .sign => true
  | .draw _ | .advance => false

def Phase.isQuiet (serving : Slot → Nat) : Phase → Bool
  | .idle | .holding _ => true
  | .arriving slot k | .asleep slot k => serving slot ≠ k
  | .advanced _ | .called _ => false

/-- Nobody is giving a slot back, and nobody waits with the ticket that is served. -/
def Quiet (s : State) : Prop := ∀ p ∈ s.threads, p.isQuiet s.serving = true

/-- The state may come about when `n` workers are given the cues, each in a quiet state. -/
inductive Played (n : Nat) : List Cue → State → Prop
  | init : Played n [] (.init n)
  | own : Played n cues s → a.isOwn = true → s.step t a = some s' → Played n cues s'
  | cue : Played n cues s → Quiet s → s.step c.worker c.act = some s' → Played n (cues ++ [c]) s'

-- ---------------------------------------------------------------------------
-- Queues
-- ---------------------------------------------------------------------------

abbrev Queues := Guid → List Nat

namespace Queues

/-- Who acquires goes to the end of a queue; who gives back leaves the head of its queue. -/
def cue (q : Queues) : Cue → Queues
  | .acquire worker id => Function.update q id (q id ++ [worker])
  | .release worker | .panic worker => fun id =>
    if (q id).head? = some worker then (q id).tail else q id

def after (cues : List Cue) : Queues := cues.foldl cue fun _ => []

/-- Who acquires must be in no queue, who gives back at the head of one. -/
def Allows (n : Nat) (q : Queues) : Cue → Prop
  | .acquire worker _ => worker < n ∧ ∀ id, worker ∉ q id
  | .release worker | .panic worker => ∃ id, (q id).head? = some worker

inductive Legal (n : Nat) : List Cue → Prop
  | nil : Legal n []
  | snoc : Legal n cues → (after cues).Allows n c → Legal n (cues ++ [c])

theorem after_append (cues : List Cue) (c : Cue) : after (cues ++ [c]) = (after cues).cue c :=
  List.foldl_append

end Queues

/-- What can be seen of a state is what can be seen of the queues. -/
structure Shows (s : State) (q : Queues) : Prop where
  holder : ∀ t id, s.heldBy? t = some id ↔ (q id).head? = some t
  pending : ∀ id, s.pending id = (q id).length
  active : s.active = {id | q id ≠ []}.encard

variable {n : Nat} {cues : List Cue} {c : Cue} {s s' : State} {t u i : Nat} {a : Act} {q : Queues}
  {id : Guid} {slot sl : Slot}

-- ---------------------------------------------------------------------------
-- Ranks
-- ---------------------------------------------------------------------------

/-- The thread holds or waits for the machine, and its ticket is the `i`-th after the one served. -/
def Ranks (s : State) (id : Guid) (t i : Nat) : Prop :=
  ∃ slot, slot.id = id ∧ s.standings[t]? = some (.queued slot (s.serving slot + i))

theorem Ranks.eq_slot (h : Ranks s id t i) (ht : s.standings[t]? = some (.queued slot k)) :
    slot.id = id ∧ k = s.serving slot + i := by
  obtain ⟨sl, hid, hsl⟩ := h
  obtain ⟨rfl, rfl⟩ := Standing.queued.inj (Option.some.inj (hsl.symm.trans ht))
  exact ⟨hid, rfl⟩

namespace Orderly

theorem ranks_lt (h : Orderly s) (hr : Ranks s id t i) : i < s.numberQueued id := by
  obtain ⟨slot, rfl, ht⟩ := hr
  have hf := h.fits slot.id
  have hslot := hf.slot_eq ht rfl rfl
  rw [hslot] at ht
  have hlt := (hf.bounds ht).2
  rw [hf.line] at hlt
  exact Nat.lt_of_add_lt_add_left hlt

theorem exists_ranks (h : Orderly s) (hi : i < s.numberQueued id) : ∃ t, Ranks s id t i := by
  have hf := h.fits id
  obtain ⟨t, ht⟩ := hf.complete (Nat.le_add_right _ i)
    (hf.line ▸ Nat.add_lt_add_left hi _)
  exact ⟨t, ⟨id, (s.entry id).slot⟩, rfl, ht⟩

theorem ranks_of_queued (h : Orderly s) (ht : s.standings[t]? = some (.queued slot k)) :
    ∃ i, Ranks s slot.id t i := by
  have hf := h.fits slot.id
  have hslot := hf.slot_eq ht rfl rfl
  have hle := (hf.bounds (k := k) (by rw [← hslot, ht])).1
  rw [← hslot] at hle
  exact ⟨k - s.serving slot, slot, rfl, by rw [Nat.add_sub_cancel' hle, ht]⟩

theorem ranks_own (hs : Step s t a s') (ha : a.isOwn = true) :
    Ranks s' id u i ↔ Ranks s id u i := by
  have same : s'.standings = s.standings → s'.serving = s.serving →
      (Ranks s' id u i ↔ Ranks s id u i) := by
    intro hst hsv
    simp only [Ranks, hst, hsv]
  cases hs with
  | draw | advance => cases ha
  | grant ht hk =>
    exact same (State.standings_setPhase_self ht (by simp [Phase.standing, hk])) rfl
  | sleep ht _ | rouse ht => exact same (State.standings_setPhase_self ht rfl) rfl
  | call ht => exact same (standings_call ht) rfl
  | @sign slot ht =>
    have hleaving : s.standings[t]? = some (.leaving slot) := State.standings_of_thread ht
    simp only [Ranks, State.standings_setPhase, State.standings_signOff]
    show (∃ sl, sl.id = id ∧ (s.standings.set t .away)[u]? =
      some (.queued sl ((s.signOff slot.id).serving sl + i))) ↔ _
    rw [State.serving_signOff]
    refine exists_congr fun sl => and_congr_right fun _ => ⟨fun hu => ?_, fun hu => ?_⟩
    · rcases getElem?_set_some hu with ⟨-, hst⟩ | ⟨-, hu⟩
      · cases hst
      · exact hu
    · exact getElem?_set_of_ne_of_some hleaving hu Standing.noConfusion

theorem ranks_draw (h : Orderly s) (hs : Step s t (.draw id) s') :
    Ranks s' id' u i ↔ Ranks s id' u i ∨ u = t ∧ id' = id ∧ i = s.numberQueued id := by
  cases hs with
  | draw _ ht =>
    have haway : s.standings[t]? = some .away := State.standings_of_thread ht
    have hline := (h.fits id).line
    simp only [Ranks, State.standings_setPhase, State.standings_enroll]
    show (∃ sl, sl.id = id' ∧ (s.standings.set t (.queued ⟨id, (s.entry id).slot⟩
      (s.entry id).nextTicket))[u]? = some (.queued sl ((s.enroll id).serving sl + i))) ↔ _
    rw [State.serving_enroll]
    constructor
    · rintro ⟨sl, rfl, hu⟩
      rcases getElem?_set_some hu with ⟨rfl, hst⟩ | ⟨-, hu⟩
      · obtain ⟨rfl, hk⟩ := Standing.queued.inj hst
        exact .inr ⟨rfl, rfl, Nat.add_left_cancel (hk.trans hline)⟩
      · exact .inl ⟨sl, rfl, hu⟩
    · rintro (⟨sl, hid, hu⟩ | ⟨rfl, rfl, rfl⟩)
      · exact ⟨sl, hid, getElem?_set_of_ne_of_some haway hu nofun⟩
      · exact ⟨⟨id', (s.entry id').slot⟩, rfl, hline ▸ getElem?_set_self_of_some haway⟩

theorem ranks_advance (h : Orderly s) (ht : s.threads[t]? = some (.holding slot))
    (hs : Step s t .advance s') :
    Ranks s' id u i ↔ if id = slot.id then Ranks s id u (i + 1) else Ranks s id u i := by
  have hheld := State.standings_of_thread ht
  cases hs with
  | @advance sl' ht' =>
    obtain rfl : sl' = slot := by simpa [ht] using ht'.symm
    simp only [Ranks, h.standings_advance ht]
    show (∃ sl, sl.id = id ∧ (s.standings.set t (.leaving sl'))[u]? =
      some (.queued sl ((s.serveNext sl').serving sl + i))) ↔ _
    have hserving : ∀ sl, (s.serveNext sl').serving sl =
        if sl = sl' then s.serving sl' + 1 else s.serving sl := fun _ => rfl
    by_cases hid : id = sl'.id
    · subst hid
      rw [if_pos rfl]
      refine exists_congr fun sl => and_congr_right fun hsl => ⟨fun hu => ?_, fun hu => ?_⟩
      · rcases getElem?_set_some hu with ⟨-, hst⟩ | ⟨-, hu⟩
        · cases hst
        · obtain rfl := h.slot_unique hu rfl hheld rfl hsl
          rwa [hserving, if_pos rfl, Nat.add_assoc, Nat.add_comm 1] at hu
      · obtain rfl := h.slot_unique hu rfl hheld rfl hsl
        rw [hserving, if_pos rfl, Nat.add_assoc, Nat.add_comm 1]
        refine getElem?_set_of_ne_of_some hheld hu fun he => ?_
        have := (Standing.queued.inj he).2
        omega
    · rw [if_neg hid]
      refine exists_congr fun sl => and_congr_right fun hsl => ?_
      have hne : sl ≠ sl' := by
        rintro rfl
        exact hid hsl.symm
      rw [hserving, if_neg hne]
      refine ⟨fun hu => ?_, fun hu => ?_⟩
      · rcases getElem?_set_some hu with ⟨-, hst⟩ | ⟨-, hu⟩
        · cases hst
        · exact hu
      · exact getElem?_set_of_ne_of_some hheld hu fun he => hne (Standing.queued.inj he).1

end Orderly

-- ---------------------------------------------------------------------------
-- The queues follow the turnstiles
-- ---------------------------------------------------------------------------

/-- Each queue lists those who hold or wait for the machine by their tickets. -/
def Mirrors (q : Queues) (s : State) : Prop :=
  ∀ id t i, (q id)[i]? = some t ↔ Ranks s id t i

namespace Mirrors

theorem length_eq (hm : Mirrors q s) (h : Orderly s) (id : Guid) :
    (q id).length = s.numberQueued id := by
  refine eq_of_forall_lt_iff fun i => ⟨fun hi => ?_, fun hi => ?_⟩
  · exact h.ranks_lt ((hm id _ i).mp (List.getElem?_eq_getElem hi))
  · obtain ⟨t, ht⟩ := h.exists_ranks hi
    exact (List.getElem?_eq_some_iff.mp ((hm id t i).mpr ht)).1

theorem mem_iff (hm : Mirrors q s) : t ∈ q id ↔ ∃ i, Ranks s id t i := by
  simp only [List.mem_iff_getElem?, hm id t]

theorem head_iff (hm : Mirrors q s) : (q id).head? = some t ↔ Ranks s id t 0 := by
  rw [List.head?_eq_getElem?, hm id t 0]

theorem init (n : Nat) : Mirrors (fun _ => []) (.init n) := by
  refine fun id t i => ⟨nofun, fun ⟨slot, _, ht⟩ => ?_⟩
  obtain ⟨p, hp, hst⟩ : ∃ p, (State.init n).threads[t]? = some p ∧
      p.standing (State.init n).serving = .queued slot ((State.init n).serving slot + i) := by
    simpa [State.standings, Option.map_eq_some_iff] using ht
  obtain rfl := List.eq_of_mem_replicate (List.mem_of_getElem? hp)
  cases hst

theorem own (hm : Mirrors q s) (hs : Step s t a s') (ha : a.isOwn = true) : Mirrors q s' :=
  fun id u i => (hm id u i).trans (Orderly.ranks_own hs ha).symm

theorem draw (hm : Mirrors q s) (h : Orderly s) (hs : Step s t (.draw id) s') :
    Mirrors (q.cue (.acquire t id)) s' := by
  intro id' u i
  rw [h.ranks_draw hs, ← hm id' u i, ← hm.length_eq h]
  simp only [Queues.cue]
  by_cases hid : id' = id
  · subst hid
    rw [Function.update_self, List.getElem?_append]
    split
    · rename_i hlt
      exact ⟨.inl, fun h => h.resolve_right fun ⟨_, _, hi⟩ => absurd hi (Nat.ne_of_lt hlt)⟩
    · rename_i hge
      rw [List.getElem?_eq_none (Nat.not_lt.mp hge)]
      by_cases hi : i = (q id').length
      · simp [hi, eq_comm]
      · have : i - (q id').length ≠ 0 := by omega
        simp [hi, this]
  · rw [Function.update_of_ne hid]
    exact ⟨.inl, fun h => h.resolve_right fun ⟨_, he, _⟩ => hid he⟩

theorem advance (hm : Mirrors q s) (h : Orderly s) (hs : Step s t .advance s') :
    Mirrors (q.cue (.release t)) s' := by
  obtain ⟨p, p', hp, -, hmoves⟩ := hs.moves
  cases hmoves with
  | @advance slot =>
    have hheld := State.standings_of_thread hp
    -- The thread is the head of the queue at its machine, and of no other.
    have hhead : ∀ id, (q id).head? = some t ↔ id = slot.id := by
      intro id
      rw [hm.head_iff]
      exact ⟨fun hr => (hr.eq_slot hheld).1.symm, fun hid => ⟨slot, hid.symm, hheld⟩⟩
    intro id u i
    rw [h.ranks_advance hp hs]
    simp only [Queues.cue, hhead]
    split
    · rw [List.getElem?_tail, hm id u (i + 1)]
    · exact hm id u i

end Mirrors

theorem Step.length_threads (hs : Step s t a s') : s'.threads.length = s.threads.length := by
  cases hs with
  | draw id _ => simp [State.setPhase, State.threads_enroll]
  | sign _ => simp [State.setPhase, State.threads_signOff]
  | call _ => simp [State.setPhase, State.wakeAll]
  | _ => exact List.length_set

namespace Played

theorem reachable (h : Played n cues s) : Reachable s := by
  induction h with
  | init => exact .init n
  | own _ _ hs ih => exact ih.step hs
  | cue _ _ hs ih => exact ih.step hs

theorem mirrors (h : Played n cues s) : Mirrors (Queues.after cues) s := by
  induction h with
  | init => exact .init n
  | own _ ha hs ih => exact ih.own (.of_step hs) ha
  | @cue _ _ _ c h _ hs ih =>
    rw [Queues.after_append]
    cases c with
    | acquire t id => exact ih.draw h.reachable.orderly (.of_step hs)
    | release t | panic t => exact ih.advance h.reachable.orderly (.of_step hs)

theorem length_threads (h : Played n cues s) : s.threads.length = n := by
  induction h with
  | init => exact List.length_replicate
  | own _ _ hs ih => rw [(Step.of_step hs).length_threads, ih]
  | cue _ _ hs ih => rw [(Step.of_step hs).length_threads, ih]

end Played

end GuestControl.Turnstile
