import GuestControl.Proofs.Operation.Dialogue
import GuestControl.Proofs.Turnstile.Registry

/-!
# A thread alone at the turnstile

A thread that takes its steps at the turnstile alone is granted a free slot at once,
and when it has given the slot back everything is as it was: the registry, the
threads and the counters of all slots that there were.
-/

namespace GuestControl.Turnstile

namespace State

/-- What a thread does at the turnstile for a request, if no other thread does
anything meanwhile: a slot is granted at once, or never. -/
def serve (t : Nat) (s : State) : Request → Option State
  | .enter id =>
    (runEvents move s [(t, .draw id), (t, .look)]).filter fun s => s.heldBy? t == some id
  | .leave id =>
    if s.heldBy? t = some id then runEvents move s [(t, .advance), (t, .call), (t, .sign)] else none
  | .status | .start | .resume | .wait .. | .execute .. => some s

def alone (t : Nat) (s : State) (xs : List Exchange) : Option State :=
  runEvents (fun s x => s.serve t x.request) s xs

/-- Nothing is left of what happened in between. Slots that were not made yet are
of no account. -/
structure SameAs (s' s : State) : Prop where
  entries : s'.entries = s.entries
  threads : s'.threads = s.threads
  serving : ∀ slot : Slot, slot.number < s.made slot.id → s'.serving slot = s.serving slot

end State

variable {s s' : State} {t u : Nat} {id : Guid} {slot : Slot} {p : Phase}

-- ---------------------------------------------------------------------------
-- Taking a slot and giving it back
-- ---------------------------------------------------------------------------

theorem State.setPhase_setPhase (s : State) (t : Nat) (p q : Phase) :
    (s.setPhase t p).setPhase t q = s.setPhase t q := by
  simp only [setPhase, List.set_set]

theorem State.thread_setPhase (h : s.threads[t]? = some p) (q : Phase) :
    (s.setPhase t q).threads[t]? = some q := getElem?_set_self_of_some h

def State.taken (s : State) (t : Nat) (id : Guid) : State :=
  (s.enroll id).setPhase t (.holding ⟨id, s.made id⟩)

theorem State.thread_enroll (h : s.threads[t]? = some p) :
    (s.enroll id).threads[t]? = some p := by
  rw [threads_enroll, h]

theorem State.heldBy?_taken (ht : s.threads[t]? = some p) :
    (s.taken t id).heldBy? t = some id :=
  heldBy?_eq_some.mpr ⟨_, thread_setPhase (thread_enroll ht) _, rfl⟩

theorem serve_enter (h : Orderly s) (ht : s.threads[t]? = some .idle)
    (hfree : s.registered? id = none) : s.serve t (.enter id) = some (s.taken t id) := by
  have hdraw : s.move (t, .draw id) =
      some ((s.enroll id).setPhase t (.arriving ⟨id, s.made id⟩ 0)) := by
    have hstep := (Step.draw (s := s) (t := t) id ht).to_step
    rwa [State.entry_of_none hfree] at hstep
  have hlook : ((s.enroll id).setPhase t (.arriving ⟨id, s.made id⟩ 0)).move (t, .look) =
      some (s.taken t id) := by
    have hzero : (s.enroll id).serving ⟨id, s.made id⟩ = 0 := by
      rw [State.serving_enroll]
      exact h.unused (Nat.le_refl _)
    have hstep := (Step.grant (State.thread_setPhase (State.thread_enroll ht) _) hzero).to_step
    rwa [State.setPhase_setPhase] at hstep
  have hheld : (s.taken t id).heldBy? t = some id := State.heldBy?_taken ht
  simp [State.serve, runEvents, hdraw, hlook, hheld]

def State.givenBack (s : State) (t : Nat) (slot : Slot) : State :=
  (((((s.serveNext slot).setPhase t (.advanced slot)).wakeAll slot).setPhase t
    (.called slot)).signOff slot.id).setPhase t .idle

theorem serve_leave (ht : s.threads[t]? = some (.holding slot)) :
    s.serve t (.leave slot.id) = some (s.givenBack t slot) := by
  have hheld : s.heldBy? t = some slot.id := State.heldBy?_eq_some.mpr ⟨slot, ht, rfl⟩
  have hadvanced := State.thread_setPhase (s := s.serveNext slot) ht (.advanced slot)
  have hwoken : (((s.serveNext slot).setPhase t (.advanced slot)).wakeAll slot).threads[t]? =
      some (.advanced slot) := by
    simp [State.wakeAll, hadvanced, State.wake]
  have hcalled := State.thread_setPhase hwoken (.called slot)
  have hadvance : s.move (t, .advance) = some _ := (Step.advance ht).to_step
  have hcall : State.move _ (t, .call) = some _ := (Step.call hadvanced).to_step
  have hsign : State.move _ (t, .sign) = some _ := (Step.sign hcalled).to_step
  simp only [State.serve, hheld, if_true, runEvents, hadvance, Option.bind_some, hcall, hsign]
  rfl

theorem State.threads_givenBack (s : State) (t : Nat) (slot : Slot) :
    (s.givenBack t slot).threads = (s.threads.map (wake slot)).set t .idle := by
  simp only [givenBack, setPhase, threads_signOff, wakeAll, serveNext, List.map_set, List.set_set]

theorem State.serving_givenBack (s : State) (t : Nat) {slot sl : Slot} (h : sl ≠ slot) :
    (s.givenBack t slot).serving sl = s.serving sl := by
  simp [givenBack, setPhase, serving_signOff, wakeAll, serveNext, h]

theorem State.entries_givenBack {e : Entry} (h : s.registered? slot.id = some e)
    (he : e.pending = 1) :
    (s.givenBack t slot).entries = SortedMap.erase s.entries slot.id := by
  have hfind : SortedMap.find? (((((s.serveNext slot).setPhase t (.advanced slot)).wakeAll
      slot).setPhase t (.called slot))).entries slot.id = some e := h
  simp only [givenBack, setPhase, signOff] at hfind ⊢
  simp only [hfind, he]
  rfl

theorem wake_eq (h : Orderly s) (hfree : s.registered? id = none) (hp : p ∈ s.threads) (n : Nat) :
    State.wake ⟨id, n⟩ p = p := by
  cases p with
  | asleep sl k =>
    obtain ⟨u, hu⟩ := List.mem_iff_getElem?.mp hp
    obtain ⟨e, he, -⟩ := h.registered_of_slot (State.standings_of_thread hu) rfl
    have hne : sl ≠ ⟨id, n⟩ := by
      rintro rfl
      cases hfree.symm.trans he
    simp [State.wake, hne]
  | _ => rfl

theorem sameAs_givenBack (h : Orderly s) (ht : s.threads[t]? = some .idle)
    (hfree : s.registered? id = none) :
    ((s.taken t id).givenBack t ⟨id, s.made id⟩).SameAs s where
  entries := by
    have hregistered := State.registered?_enroll_self s id
    rw [State.entry_of_none hfree] at hregistered
    have hentries : ((s.taken t id).givenBack t ⟨id, s.made id⟩).entries =
        SortedMap.erase (s.taken t id).entries id := State.entries_givenBack hregistered rfl
    rw [hentries]
    show SortedMap.erase (SortedMap.insert Guid.before (s.entryFor id).2.entries id _) id = _
    rw [State.entries_entryFor]
    exact SortedMap.erase_insert _ _ hfree
  threads := by
    have hwake : s.threads.map (State.wake ⟨id, s.made id⟩) = s.threads :=
      (List.map_congr_left fun p hp => wake_eq h hfree hp _).trans (List.map_id _)
    obtain ⟨hlt, hidle⟩ := List.getElem?_eq_some_iff.mp ht
    rw [State.threads_givenBack]
    simp only [State.taken, State.setPhase, State.threads_enroll, List.map_set, hwake, List.set_set]
    exact hidle ▸ List.set_getElem_self hlt
  serving slot hslot := by
    have hne : slot ≠ ⟨id, s.made id⟩ := by
      rintro rfl
      exact absurd hslot (Nat.lt_irrefl _)
    rw [State.serving_givenBack _ _ hne]
    exact congrFun (State.serving_enroll s id) slot

-- ---------------------------------------------------------------------------
-- A call alone
-- ---------------------------------------------------------------------------

open Exchange (held underSlot)

variable {xs ys before after : List Exchange}

theorem alone_slotless (s : State) (t : Nat) (h : ∀ x ∈ xs, x.request.IsSlotless) :
    s.alone t xs = some s := by
  induction xs with
  | nil => rfl
  | cons x xs ih =>
    have hx := h x List.mem_cons_self
    have hserve : s.serve t x.request = some s := by
      cases hq : x.request with
      | enter | leave => rw [hq] at hx; exact hx.elim
      | status | start | resume | wait | execute => rfl
    have ih := ih fun y hy => h y (List.mem_cons_of_mem x hy)
    simp only [State.alone, runEvents, hserve, Option.bind_some] at ih ⊢
    exact ih

theorem held_slotless (ids : List Guid) (h : ∀ x ∈ xs, x.request.IsSlotless) :
    xs.foldl (fun ids x => x.request.hold ids) ids = ids := by
  induction xs with
  | nil => rfl
  | cons x xs ih =>
    have hx := h x List.mem_cons_self
    have hhold : x.request.hold ids = ids := by
      cases hq : x.request with
      | enter | leave => rw [hq] at hx; exact hx.elim
      | status | start | resume | wait | execute => rfl
    rw [List.foldl_cons, hhold]
    exact ih fun y hy => h y (List.mem_cons_of_mem x hy)

def Keeps (s : State) (t : Nat) (xs : List Exchange) : Prop :=
  (held xs).length ≤ 1 ∧ ∃ s', s.alone t xs = some s' ∧ s'.heldBy? t = (held xs).head?

theorem keeps_slotless (ht : s.threads[t]? = some .idle) (h : ∀ x ∈ xs, x.request.IsSlotless) :
    Keeps s t xs := by
  have hheld : held xs = [] := held_slotless [] h
  refine ⟨by simp [hheld], s, alone_slotless s t h, ?_⟩
  simp [hheld, State.heldBy?, ht]

theorem held_taken (id : Guid) (hxs : ∀ x ∈ xs, x.request.IsSlotless)
    (hys : ∀ x ∈ ys, x.request.IsSlotless) : held (xs ++ ⟨.enter id, ()⟩ :: ys) = [id] := by
  rw [held, List.foldl_append, held_slotless _ hxs, List.foldl_cons]
  exact held_slotless [id] hys

theorem held_givenBack (id : Guid) (hxs : ∀ x ∈ xs, x.request.IsSlotless)
    (hys : ∀ x ∈ ys, x.request.IsSlotless) : held (xs ++ underSlot (some id) ys) = [] := by
  rw [held, List.foldl_append, held_slotless _ hxs, underSlot, List.foldl_cons, List.foldl_append,
    held_slotless _ hys]
  exact List.erase_cons_head id []

section
variable (h : Orderly s) (ht : s.threads[t]? = some .idle) (hfree : s.registered? id = none)
  (hxs : ∀ x ∈ xs, x.request.IsSlotless) (hys : ∀ x ∈ ys, x.request.IsSlotless)
include h ht hfree hxs hys

theorem alone_taken : s.alone t (xs ++ ⟨.enter id, ()⟩ :: ys) = some (s.taken t id) := by
  have hrest := alone_slotless (s.taken t id) t hys
  unfold State.alone at hrest ⊢
  rw [runEvents_append, show runEvents _ s xs = some s from alone_slotless s t hxs,
    Option.bind_some, runEvents, serve_enter h ht hfree, Option.bind_some, hrest]

theorem alone_givenBack : s.alone t (xs ++ underSlot (some id) ys) =
    some ((s.taken t id).givenBack t ⟨id, s.made id⟩) := by
  have hthread : (s.taken t id).threads[t]? = some (.holding ⟨id, s.made id⟩) :=
    State.thread_setPhase (State.thread_enroll ht) _
  have hleave := serve_leave hthread
  have htaken := alone_taken h ht hfree hxs hys
  have hsplit : xs ++ underSlot (some id) ys =
      (xs ++ ⟨.enter id, ()⟩ :: ys) ++ [⟨.leave id, ()⟩] := by
    simp [underSlot]
  unfold State.alone at htaken ⊢
  rw [hsplit, runEvents_append, htaken, Option.bind_some, runEvents, hleave]
  rfl

theorem keeps_taken : Keeps s t (xs ++ ⟨.enter id, ()⟩ :: ys) := by
  have hheld := held_taken id hxs hys
  refine ⟨by simp [hheld], _, alone_taken h ht hfree hxs hys, ?_⟩
  rw [hheld, State.heldBy?_taken ht]
  rfl

theorem keeps_givenBack : Keeps s t (xs ++ underSlot (some id) ys) := by
  have hheld := held_givenBack id hxs hys
  refine ⟨by simp [hheld], _, alone_givenBack h ht hfree hxs hys, ?_⟩
  have hidle := (sameAs_givenBack h ht hfree).threads
  simp [hheld, State.heldBy?, hidle, ht]

end

-- ---------------------------------------------------------------------------
-- At every point of a call
-- ---------------------------------------------------------------------------

/-- A call that is under a slot at most once holds the slot from when it took it
until it gave it back, and no other. -/
theorem keeps_prefix (h : Orderly s) (ht : s.threads[t]? = some .idle) {slot? : Option Guid}
    (hfree : ∀ id, slot? = some id → s.registered? id = none)
    (hxs : ∀ x ∈ xs, x.request.IsSlotless) (hys : ∀ x ∈ ys, x.request.IsSlotless)
    (hsplit : xs ++ underSlot slot? ys = before ++ after) : Keeps s t before := by
  obtain ⟨under, rfl, hunder⟩ | ⟨rest, rfl, -⟩ := List.append_eq_append_iff.mp hsplit
  swap
  · exact keeps_slotless ht fun x hx => hxs x (List.mem_append_left _ hx)
  cases slot? with
  | none =>
    refine keeps_slotless ht fun x hx => ?_
    rcases List.mem_append.mp hx with hx | hx
    · exact hxs x hx
    · exact hys x (show x ∈ underSlot none ys from hunder ▸ List.mem_append_left _ hx)
  | some id =>
    have hfree := hfree id rfl
    cases under with
    | nil => exact (List.append_nil xs).symm ▸ keeps_slotless ht hxs
    | cons x under =>
      obtain ⟨rfl, htail⟩ := List.cons.inj hunder
      obtain ⟨last, rfl, hlast⟩ | ⟨rest, rfl, -⟩ := List.append_eq_append_iff.mp htail
      · cases last with
        | nil => exact (List.append_nil ys).symm ▸ keeps_taken h ht hfree hxs hys
        | cons x last =>
          obtain ⟨rfl, hnil⟩ := List.cons.inj hlast
          obtain ⟨rfl, -⟩ := List.append_eq_nil_iff.mp hnil.symm
          exact keeps_givenBack h ht hfree hxs hys
      · exact keeps_taken h ht hfree hxs fun x hx => hys x (List.mem_append_left _ hx)

theorem alone_sameAs (h : Orderly s) (ht : s.threads[t]? = some .idle) {slot? : Option Guid}
    (hfree : ∀ id, slot? = some id → s.registered? id = none)
    (hxs : ∀ x ∈ xs, x.request.IsSlotless) (hys : ∀ x ∈ ys, x.request.IsSlotless) :
    ∃ s', s.alone t (xs ++ underSlot slot? ys) = some s' ∧ s'.SameAs s := by
  cases slot? with
  | none =>
    refine ⟨s, alone_slotless s t fun x hx => ?_, rfl, rfl, fun _ _ => rfl⟩
    exact (List.mem_append.mp hx).elim (hxs x) (hys x)
  | some id =>
    exact ⟨_, alone_givenBack h ht (hfree id rfl) hxs hys, sameAs_givenBack h ht (hfree id rfl)⟩

end GuestControl.Turnstile
