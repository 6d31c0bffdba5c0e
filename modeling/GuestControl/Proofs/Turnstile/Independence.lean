import GuestControl.Proofs.Turnstile.Registry
import GuestControl.Proofs.Turnstile.Queues

/-!
# Machines are independent

A step is about one machine. It depends only on what there is at that machine and
changes nothing at another one, so that two steps of two threads at two machines
may be taken in either order. What stands at a machine after a run is what stands
there if only the steps at that machine are taken.
-/

namespace GuestControl.Turnstile

def Phase.slot? : Phase → Option Slot
  | .idle => none
  | .arriving slot _ | .asleep slot _ | .holding slot | .advanced slot | .called slot => some slot

def Phase.isAt (id : Guid) (p : Phase) : Bool := p.slot?.any (·.id = id)

namespace State

def phaseAt? (s : State) (id : Guid) (t : Nat) : Option Phase := s.threads[t]?.filter (·.isAt id)

def about? (s : State) (t : Nat) : Act → Option Guid
  | .draw id => some id
  | .look | .rouse | .advance | .call | .sign => (s.threads[t]?.bind Phase.slot?).map (·.id)

def CanTake (s : State) (t : Nat) (a : Act) (id : Guid) : Prop :=
  s.about? t a = some id ∧ ∃ s', s.step t a = some s'

end State

/-- Two states have the same at a machine: its entry, the counters of its slots, and
who holds, waits, sleeps or leaves there. -/
structure AgreeAt (id : Guid) (s s' : State) : Prop where
  registered : s'.registered? id = s.registered? id
  made : s'.made id = s.made id
  serving : ∀ n, s'.serving ⟨id, n⟩ = s.serving ⟨id, n⟩
  phase : ∀ t, s'.phaseAt? id t = s.phaseAt? id t

variable {s s' s'' z : State} {t u : Nat} {id id' : Guid} {slot : Slot} {a b : Act} {p q : Phase}

-- ---------------------------------------------------------------------------
-- Phases at a machine
-- ---------------------------------------------------------------------------

theorem Phase.isAt_iff : p.isAt id = true ↔ ∃ slot, p.slot? = some slot ∧ slot.id = id := by
  simp [isAt, Option.any_eq_true]

theorem Phase.isAt_of_ne (hp : p.slot? = some slot) (hne : id ≠ slot.id) : p.isAt id = false := by
  simp [isAt, hp, hne.symm]

theorem Phase.eq_idle_of_slot? (hp : p.slot? = none) : p = .idle := by
  cases p with
  | idle => rfl
  | _ => cases hp

theorem Phase.slot?_wake (slot : Slot) (p : Phase) : (State.wake slot p).slot? = p.slot? := by
  cases p with
  | asleep sl k =>
    simp only [State.wake]
    split
    · rfl
    · rfl
  | _ => rfl

theorem Phase.isAt_wake (id : Guid) (slot : Slot) (p : Phase) :
    (State.wake slot p).isAt id = p.isAt id := by
  rw [isAt, slot?_wake, isAt]

theorem Phase.isAt_asleep {k : Nat} :
    (Phase.asleep slot k).isAt id = true ↔ slot.id = id := by
  simp [isAt, slot?]

theorem State.wake_of_isAt (hp : p.isAt id = true) (hne : id ≠ slot.id) :
    State.wake slot p = p := by
  cases p with
  | asleep sl k =>
    have hsl : sl ≠ slot := by
      rintro rfl
      exact hne (Phase.isAt_asleep.mp hp).symm
    simp [State.wake, hsl]
  | _ => rfl

namespace State

theorem phaseAt?_eq_some : s.phaseAt? id t = some p ↔ s.threads[t]? = some p ∧ p.isAt id = true :=
  Option.filter_eq_some_iff

theorem phaseAt?_setPhase (ht : s.threads[t]? = some p) (q : Phase) :
    (s.setPhase t q).phaseAt? id u =
      if u = t then (some q).filter (·.isAt id) else s.phaseAt? id u := by
  split
  · rename_i hut
    subst hut
    rw [phaseAt?, setPhase, getElem?_set_self_of_some ht]
  · rename_i hut
    rw [phaseAt?, setPhase, List.getElem?_set_ne (Ne.symm hut), phaseAt?]

theorem phaseAt?_wakeAll (s : State) (slot : Slot) :
    (s.wakeAll slot).phaseAt? id t = (s.phaseAt? id t).map (wake slot) := by
  simp only [phaseAt?, wakeAll, List.getElem?_map]
  cases s.threads[t]? with
  | none => rfl
  | some p =>
    simp only [Option.map_some, Option.filter_some, Phase.isAt_wake]
    split <;> rfl

theorem phaseAt?_congr (h : s'.threads = s.threads) : s'.phaseAt? id t = s.phaseAt? id t := by
  rw [phaseAt?, h, phaseAt?]

theorem thread_wakeAll (ht : s.threads[t]? = some (.advanced slot)) :
    (s.wakeAll slot).threads[t]? = some (.advanced slot) := by
  simp [wakeAll, ht, wake]

theorem registered?_signOff (hs : SortedMap.Sorted Guid.before s.entries) (id : Guid) :
    (s.signOff id).registered? id = (s.registered? id).bind fun e =>
      if e.pending - 1 = 0 then none else some { e with pending := e.pending - 1 } := by
  cases he : s.registered? id with
  | some e => exact registered?_signOff_self hs he
  | none =>
    have hsame : s.signOff id = s := by simp only [signOff, he]
    rw [hsame, he]
    rfl

theorem made_enroll_self (s : State) (id : Guid) :
    (s.enroll id).made id = s.made id + if (s.registered? id).isSome then 0 else 1 := by
  simp only [enroll, putEntry, entryFor, registered?]
  split
  · rename_i e he
    simp [he]
  · rename_i he
    simp [he]

end State

-- ---------------------------------------------------------------------------
-- States that agree at a machine
-- ---------------------------------------------------------------------------

namespace AgreeAt

theorem symm (h : AgreeAt id s s') : AgreeAt id s' s :=
  ⟨h.registered.symm, h.made.symm, fun n => (h.serving n).symm, fun t => (h.phase t).symm⟩

theorem trans (h : AgreeAt id s s') (h' : AgreeAt id s' s'') : AgreeAt id s s'' :=
  ⟨h'.registered.trans h.registered, h'.made.trans h.made,
    fun n => (h'.serving n).trans (h.serving n), fun t => (h'.phase t).trans (h.phase t)⟩

theorem thread_iff (h : AgreeAt id s s') (hp : p.isAt id = true) :
    s'.threads[t]? = some p ↔ s.threads[t]? = some p := by
  have hphase := h.phase t
  constructor
  · intro ht
    exact (State.phaseAt?_eq_some.mp (hphase ▸ State.phaseAt?_eq_some.mpr ⟨ht, hp⟩)).1
  · intro ht
    exact (State.phaseAt?_eq_some.mp (hphase.symm ▸ State.phaseAt?_eq_some.mpr ⟨ht, hp⟩)).1

theorem pending_eq (h : AgreeAt id s s') : s'.pending id = s.pending id := by
  have hentry : SortedMap.find? s'.entries id = SortedMap.find? s.entries id := h.registered
  simp only [State.pending, hentry]

theorem heldBy?_iff (h : AgreeAt id s s') : s'.heldBy? t = some id ↔ s.heldBy? t = some id := by
  have hholding (slot : Slot) (hid : slot.id = id) :
      s'.threads[t]? = some (.holding slot) ↔ s.threads[t]? = some (.holding slot) :=
    h.thread_iff (Phase.isAt_iff.mpr ⟨slot, rfl, hid⟩)
  simp only [State.heldBy?_eq_some]
  exact exists_congr fun slot => and_congr_left fun hid => hholding slot hid

-- What is done to two states that agree at a machine leaves them so.

theorem setPhase (h : AgreeAt id s z) (hs : s.threads[t]? = some p) (hz : z.threads[t]? = some p)
    (q : Phase) : AgreeAt id (s.setPhase t q) (z.setPhase t q) where
  registered := h.registered
  made := h.made
  serving := h.serving
  phase u := by rw [State.phaseAt?_setPhase hs, State.phaseAt?_setPhase hz, h.phase u]

theorem enroll (h : AgreeAt id s z) : AgreeAt id (s.enroll id) (z.enroll id) where
  registered := by
    rw [State.registered?_enroll_self, State.registered?_enroll_self,
      State.entry_congr h.registered h.made]
  made := by rw [State.made_enroll_self, State.made_enroll_self, h.registered, h.made]
  serving n := by
    rw [State.serving_enroll, State.serving_enroll]
    exact h.serving n
  phase u := by
    rw [State.phaseAt?_congr (State.threads_enroll s id),
      State.phaseAt?_congr (State.threads_enroll z id)]
    exact h.phase u

theorem serveNext (h : AgreeAt slot.id s z) :
    AgreeAt slot.id (s.serveNext slot) (z.serveNext slot) where
  registered := h.registered
  made := h.made
  serving n := by
    have hslot : z.serving slot = s.serving slot := h.serving slot.number
    simp only [State.serveNext, hslot, h.serving n]
  phase := h.phase

theorem wakeAll (h : AgreeAt id s z) (slot : Slot) :
    AgreeAt id (s.wakeAll slot) (z.wakeAll slot) where
  registered := h.registered
  made := h.made
  serving := h.serving
  phase u := by rw [State.phaseAt?_wakeAll, State.phaseAt?_wakeAll, h.phase u]

theorem signOff (h : AgreeAt id s z) (hs : SortedMap.Sorted Guid.before s.entries)
    (hz : SortedMap.Sorted Guid.before z.entries) : AgreeAt id (s.signOff id) (z.signOff id) where
  registered := by
    rw [State.registered?_signOff hs, State.registered?_signOff hz, h.registered]
  made := by
    rw [State.made_signOff, State.made_signOff]
    exact h.made
  serving n := by
    rw [State.serving_signOff, State.serving_signOff]
    exact h.serving n
  phase u := by
    rw [State.phaseAt?_congr (State.threads_signOff s id),
      State.phaseAt?_congr (State.threads_signOff z id)]
    exact h.phase u

-- What is done at another machine leaves a state as it was at this one.

theorem setPhase_of_ne (ht : s.threads[t]? = some p) (hp : p.isAt id = false)
    (hq : q.isAt id = false) : AgreeAt id s (s.setPhase t q) where
  registered := rfl
  made := rfl
  serving _ := rfl
  phase u := by
    rw [State.phaseAt?_setPhase ht]
    split
    · rename_i hut
      subst hut
      simp [State.phaseAt?, ht, Option.filter_some, hp, hq]
    · rfl

theorem enroll_of_ne (hne : id ≠ id') : AgreeAt id s (s.enroll id') where
  registered := State.registered?_enroll_of_ne s hne
  made := State.made_enroll_of_ne s hne
  serving _ := by rw [State.serving_enroll]
  phase _ := State.phaseAt?_congr (State.threads_enroll s id')

theorem serveNext_of_ne (hne : id ≠ slot.id) : AgreeAt id s (s.serveNext slot) where
  registered := rfl
  made := rfl
  serving n := by
    have hslot : (⟨id, n⟩ : Slot) ≠ slot := by
      rintro rfl
      exact hne rfl
    simp [State.serveNext, hslot]
  phase _ := rfl

theorem wakeAll_of_ne (hne : id ≠ slot.id) : AgreeAt id s (s.wakeAll slot) where
  registered := rfl
  made := rfl
  serving _ := rfl
  phase u := by
    rw [State.phaseAt?_wakeAll]
    cases hp : s.phaseAt? id u with
    | none => rfl
    | some p =>
      rw [Option.map_some, State.wake_of_isAt (State.phaseAt?_eq_some.mp hp).2 hne]

theorem signOff_of_ne (hne : id ≠ id') : AgreeAt id s (s.signOff id') where
  registered := State.registered?_signOff_of_ne s hne
  made := by rw [State.made_signOff]
  serving _ := by rw [State.serving_signOff]
  phase _ := State.phaseAt?_congr (State.threads_signOff s id')

end AgreeAt

-- ---------------------------------------------------------------------------
-- One step
-- ---------------------------------------------------------------------------

theorem Step.about?_of_slot (h : Step s t a s') (ht : s.threads[t]? = some p)
    (hp : p.slot? = some slot) : s.about? t a = some slot.id := by
  obtain ⟨p', _, hp', -, hmoves⟩ := h.moves
  obtain rfl := Option.some.inj (ht.symm.trans hp')
  cases hmoves with
  | draw id => cases hp
  | _ => simp [State.about?, ht, hp]

theorem Step.isAt_of_ne (h : Step s t a s') (ha : s.about? t a = some id') (hne : id ≠ id') :
    ∃ p, s.threads[t]? = some p ∧ p.isAt id = false := by
  obtain ⟨p, -, hp, -, -⟩ := h.moves
  refine ⟨p, hp, ?_⟩
  cases hslot : p.slot? with
  | none => simp [Phase.isAt, hslot]
  | some slot =>
    rw [h.about?_of_slot hp hslot] at ha
    exact Phase.isAt_of_ne hslot (Option.some.inj ha ▸ hne)

theorem Step.agreeAt (h : Step s t a s') (ha : s.about? t a = some id') (hne : id ≠ id') :
    AgreeAt id s s' := by
  have hother {p : Phase} {slot : Slot} (ht : s.threads[t]? = some p)
      (hp : p.slot? = some slot) : id ≠ slot.id := by
    rw [h.about?_of_slot ht hp] at ha
    exact Option.some.inj ha ▸ hne
  cases h with
  | draw id' ht =>
    obtain rfl := Option.some.inj ha
    exact (AgreeAt.enroll_of_ne hne).trans (.setPhase_of_ne (s.threads_enroll _ ▸ ht) rfl
      (Phase.isAt_of_ne rfl hne))
  | grant ht _ | sleep ht _ | rouse ht =>
    have hid := hother ht rfl
    exact .setPhase_of_ne ht (Phase.isAt_of_ne rfl hid) (Phase.isAt_of_ne rfl hid)
  | advance ht =>
    have hid := hother ht rfl
    exact (AgreeAt.serveNext_of_ne hid).trans (.setPhase_of_ne ht (Phase.isAt_of_ne rfl hid)
      (Phase.isAt_of_ne rfl hid))
  | call ht =>
    have hid := hother ht rfl
    exact (AgreeAt.wakeAll_of_ne hid).trans (.setPhase_of_ne (State.thread_wakeAll ht)
      (Phase.isAt_of_ne rfl hid) (Phase.isAt_of_ne rfl hid))
  | sign ht =>
    have hid := hother ht rfl
    exact (AgreeAt.signOff_of_ne hid).trans (.setPhase_of_ne (s.threads_signOff _ ▸ ht)
      (Phase.isAt_of_ne rfl hid) rfl)

/-- A step depends only on its thread and on what there is at its machine. -/
theorem AgreeAt.step (h : AgreeAt id s z) (hs : Orderly s) (hz : Orderly z)
    (ht : z.threads[t]? = s.threads[t]?) (hstep : Step s t a s') (ha : s.about? t a = some id) :
    ∃ z', Step z t a z' ∧ AgreeAt id s' z' := by
  have hown {p : Phase} {slot : Slot} (hp : s.threads[t]? = some p)
      (hslot : p.slot? = some slot) : slot.id = id := by
    rw [hstep.about?_of_slot hp hslot] at ha
    exact Option.some.inj ha
  cases hstep with
  | draw id hp =>
    obtain rfl := Option.some.inj ha
    refine ⟨_, .draw _ (ht.trans hp), ?_⟩
    rw [State.entry_congr h.registered h.made]
    exact h.enroll.setPhase (State.threads_enroll s _ ▸ hp)
      (State.threads_enroll z _ ▸ ht.trans hp) _
  | @grant slot k hp hk =>
    obtain rfl := hown hp rfl
    have hserving : z.serving slot = s.serving slot := h.serving slot.number
    exact ⟨_, .grant (ht.trans hp) (hserving.trans hk), h.setPhase hp (ht.trans hp) _⟩
  | @sleep slot k hp hk =>
    obtain rfl := hown hp rfl
    have hserving : z.serving slot = s.serving slot := h.serving slot.number
    exact ⟨_, .sleep (ht.trans hp) (hserving ▸ hk), h.setPhase hp (ht.trans hp) _⟩
  | rouse hp => exact ⟨_, .rouse (ht.trans hp), h.setPhase hp (ht.trans hp) _⟩
  | advance hp =>
    obtain rfl := hown hp rfl
    exact ⟨_, .advance (ht.trans hp), h.serveNext.setPhase hp (ht.trans hp) _⟩
  | call hp =>
    exact ⟨_, .call (ht.trans hp), (h.wakeAll _).setPhase (State.thread_wakeAll hp)
      (State.thread_wakeAll (ht.trans hp)) _⟩
  | sign hp =>
    obtain rfl := hown hp rfl
    exact ⟨_, .sign (ht.trans hp), (h.signOff hs.sorted hz.sorted).setPhase
      (State.threads_signOff s _ ▸ hp) (State.threads_signOff z _ ▸ ht.trans hp) _⟩

/-- A step about one machine leaves the other threads where they are, those at that
machine aside. -/
theorem Step.thread_iff (h : Step s t a s') (ha : s.about? t a = some id) (hu : u ≠ t)
    (hp : p.isAt id = false) : s'.threads[u]? = some p ↔ s.threads[u]? = some p := by
  rcases h.others hu with he | ⟨slot, k, ht, hold, hnew⟩
  · rw [he]
  · rw [h.about?_of_slot ht rfl] at ha
    obtain rfl := Option.some.inj ha
    rw [hold, hnew]
    constructor
    · intro he
      obtain rfl := Option.some.inj he
      simp [Phase.isAt, Phase.slot?] at hp
    · intro he
      obtain rfl := Option.some.inj he
      simp [Phase.isAt, Phase.slot?] at hp

theorem Step.thread_eq (h : Step s t a s') (ha : s.about? t a = some id) (hu : u ≠ t)
    (hb : Step s u b z ∧ s.about? u b = some id' ∨ Step s' u b z ∧ s'.about? u b = some id')
    (hne : id ≠ id') : s'.threads[u]? = s.threads[u]? := by
  rcases hb with ⟨hb, hid⟩ | ⟨hb, hid⟩
  · obtain ⟨p, hp, hat⟩ := hb.isAt_of_ne hid hne
    rw [hp, h.thread_iff ha hu hat, hp]
  · obtain ⟨p, hp, hat⟩ := hb.isAt_of_ne hid hne
    rw [hp, (h.thread_iff ha hu hat).mp hp]

theorem State.about?_congr (ht : s'.threads[u]? = s.threads[u]?) :
    s'.about? u b = s.about? u b := by
  cases b with
  | draw id => rfl
  | _ => simp only [about?, ht]

-- ---------------------------------------------------------------------------
-- Two steps
-- ---------------------------------------------------------------------------

/-- States with as many threads that agree at every machine are one state. -/
theorem State.eq_of_agreeAt (hs : Orderly s) (hs' : Orderly s')
    (hlength : s'.threads.length = s.threads.length) (h : ∀ id, AgreeAt id s s') : s' = s := by
  have hentries : s'.entries = s.entries :=
    hs'.sorted.ext Guid.isOrder_before hs.sorted fun id => (h id).registered
  have hmade : s'.made = s.made := funext fun id => (h id).made
  have hserving : s'.serving = s.serving := funext fun slot => (h slot.id).serving slot.number
  have hbusy {t : Nat} {p : Phase} {slot : Slot} (hp : p.slot? = some slot) :
      s'.threads[t]? = some p ↔ s.threads[t]? = some p :=
    (h slot.id).thread_iff (Phase.isAt_iff.mpr ⟨slot, hp, rfl⟩)
  have hthreads : s'.threads = s.threads := by
    refine List.ext_getElem hlength fun t ht' ht => ?_
    cases hp : s.threads[t].slot? with
    | some slot =>
      have hthread := (hbusy hp).mpr (List.getElem?_eq_getElem ht)
      exact (List.getElem?_eq_some_iff.mp hthread).2
    | none =>
      cases hp' : s'.threads[t].slot? with
      | some slot =>
        have hthread := (hbusy hp').mp (List.getElem?_eq_getElem ht')
        exact (List.getElem?_eq_some_iff.mp hthread).2.symm
      | none => rw [Phase.eq_idle_of_slot? hp, Phase.eq_idle_of_slot? hp']
  cases s
  cases s'
  simp_all

/-- What a thread can do at a machine is not changed by a step of another thread
at another machine. -/
theorem Step.canTake_iff (hs : Orderly s) (h : Step s t a s') (ha : s.about? t a = some id')
    (hne : id ≠ id') (hu : u ≠ t) : s'.CanTake u b id ↔ s.CanTake u b id := by
  have hagree := h.agreeAt ha hne
  constructor
  · rintro ⟨hb, s'', hstep⟩
    have hstep := Step.of_step hstep
    have hthread := h.thread_eq ha hu (.inr ⟨hstep, hb⟩) hne.symm
    obtain ⟨mid, hmid, -⟩ := hagree.symm.step (hs.step h) hs hthread.symm hstep hb
    exact ⟨State.about?_congr hthread ▸ hb, mid, hmid.to_step⟩
  · rintro ⟨hb, mid, hstep⟩
    have hstep := Step.of_step hstep
    have hthread := h.thread_eq ha hu (.inl ⟨hstep, hb⟩) hne.symm
    obtain ⟨s'', hs'', -⟩ := hagree.step hs (hs.step h) hthread hstep hb
    exact ⟨(State.about?_congr hthread).trans hb, s'', hs''.to_step⟩

theorem Step.swap (hs : Orderly s) (h : Step s t a s') (ha : s.about? t a = some id')
    (hne : id ≠ id') (hu : u ≠ t) (h' : Step s' u b s'') (hb : s'.about? u b = some id) :
    ∃ mid, Step s u b mid ∧ Step mid t a s'' := by
  have hthread := h.thread_eq ha hu (.inr ⟨h', hb⟩) hne.symm
  obtain ⟨mid, hmid, hown⟩ := (h.agreeAt ha hne).symm.step (hs.step h) hs hthread.symm h' hb
  have hb' : s.about? u b = some id := State.about?_congr hthread ▸ hb
  have hthread' := hmid.thread_eq hb' hu.symm (.inl ⟨h, ha⟩) hne
  obtain ⟨last, hlast, hown'⟩ := (hmid.agreeAt hb' hne.symm).step hs (hs.step hmid) hthread' h ha
  have ha' : mid.about? t a = some id' := (State.about?_congr hthread').trans ha
  have hlength : last.threads.length = s''.threads.length := by
    rw [hlast.length_threads, hmid.length_threads, h'.length_threads, h.length_threads]
  -- At the two machines one of the steps is a frame; everywhere else both are.
  have hagree (i : Guid) : AgreeAt i s'' last := by
    by_cases hi : i = id
    · subst hi
      exact hown.trans (hlast.agreeAt ha' hne)
    by_cases hi' : i = id'
    · subst hi'
      exact (h'.agreeAt hb hne.symm).symm.trans hown'
    · exact ((h.agreeAt ha hi').trans (h'.agreeAt hb hi)).symm.trans
        ((hmid.agreeAt hb' hi).trans (hlast.agreeAt ha' hi'))
  obtain rfl := State.eq_of_agreeAt ((hs.step h).step h') ((hs.step hmid).step hlast) hlength hagree
  exact ⟨mid, hmid, hlast⟩

-- ---------------------------------------------------------------------------
-- Runs
-- ---------------------------------------------------------------------------

def State.movesAt (id : Guid) (s : State) : List (Nat × Act) → List (Nat × Act)
  | [] => []
  | m :: moves =>
    match s.move m with
    | none => []
    | some s' =>
      if s.about? m.1 m.2 = some id then m :: s'.movesAt id moves else s'.movesAt id moves

/-- The second state has at the machine what the first has, and nobody anywhere else. -/
structure Isolates (id : Guid) (s z : State) : Prop where
  agree : AgreeAt id s z
  length : z.threads.length = s.threads.length
  elsewhere : ∀ id' t, id' ≠ id → z.phaseAt? id' t = none

theorem Step.exists_about (h : Step s t a s') : ∃ id, s.about? t a = some id := by
  obtain ⟨p, _, hp, -, hmoves⟩ := h.moves
  cases hmoves with
  | draw id => exact ⟨id, rfl⟩
  | _ => exact ⟨_, h.about?_of_slot hp rfl⟩

namespace Isolates

theorem init (id : Guid) (n : Nat) : Isolates id (.init n) (.init n) where
  agree := ⟨rfl, rfl, fun _ => rfl, fun _ => rfl⟩
  length := rfl
  elsewhere id' t _ := by
    cases hp : (State.init n).phaseAt? id' t with
    | none => rfl
    | some p =>
      obtain ⟨ht, hat⟩ := State.phaseAt?_eq_some.mp hp
      obtain rfl := List.eq_of_mem_replicate (List.mem_of_getElem? ht)
      cases hat

theorem thread_eq (h : Isolates id s z) (hp : s.threads[t]? = some p)
    (hslot : ∀ slot, p.slot? = some slot → slot.id = id) : z.threads[t]? = s.threads[t]? := by
  cases hps : p.slot? with
  | some slot => rw [hp, h.agree.thread_iff (Phase.isAt_iff.mpr ⟨slot, hps, hslot slot hps⟩), hp]
  | none =>
    have hlt : t < z.threads.length := h.length ▸ (List.getElem?_eq_some_iff.mp hp).1
    have hq := List.getElem?_eq_getElem hlt
    cases hqs : z.threads[t].slot? with
    | none => rw [hq, hp, Phase.eq_idle_of_slot? hps, Phase.eq_idle_of_slot? hqs]
    | some slot =>
      have hat : z.threads[t].isAt slot.id = true := Phase.isAt_iff.mpr ⟨slot, hqs, rfl⟩
      by_cases hid : slot.id = id
      · rw [hq, (h.agree.thread_iff (hid ▸ hat)).mp hq]
      · have hnobody := h.elsewhere slot.id t hid
        rw [State.phaseAt?_eq_some.mpr ⟨hq, hat⟩] at hnobody
        cases hnobody

theorem step (h : Isolates id s z) (hs : Orderly s) (hz : Orderly z) (hstep : Step s t a s')
    (ha : s.about? t a = some id) : ∃ z', Step z t a z' ∧ Isolates id s' z' := by
  obtain ⟨p, -, hp, -, -⟩ := hstep.moves
  have hthread := h.thread_eq hp fun slot hslot => by
    rw [hstep.about?_of_slot hp hslot] at ha
    exact Option.some.inj ha
  obtain ⟨z', hz', hagree⟩ := h.agree.step hs hz hthread hstep ha
  refine ⟨z', hz', hagree, ?_, fun id' u hne => ?_⟩
  · rw [hz'.length_threads, hstep.length_threads, h.length]
  · rw [(hz'.agreeAt ((State.about?_congr hthread).trans ha) hne).phase u]
    exact h.elsewhere id' u hne

/-- A step elsewhere can be left out. -/
theorem skip (h : Isolates id s z) (hstep : Step s t a s') (ha : s.about? t a ≠ some id) :
    Isolates id s' z := by
  obtain ⟨id', hid'⟩ := hstep.exists_about
  have hne : id ≠ id' := by
    rintro rfl
    exact ha hid'
  exact ⟨(hstep.agreeAt hid' hne).symm.trans h.agree, h.length.trans hstep.length_threads.symm,
    h.elsewhere⟩

theorem run {moves : List (Nat × Act)} (h : Isolates id s z) (hs : Orderly s) (hz : Orderly z)
    (hm : runEvents State.move s moves = some s') :
    ∃ z', runEvents State.move z (s.movesAt id moves) = some z' ∧ Isolates id s' z' := by
  induction moves generalizing s z with
  | nil =>
    obtain rfl := Option.some.inj hm
    exact ⟨z, rfl, h⟩
  | cons m moves ih =>
    obtain ⟨mid, hmid, hm⟩ := Option.bind_eq_some_iff.mp hm
    have hstep : Step s m.1 m.2 mid := .of_step hmid
    simp only [State.movesAt, hmid]
    by_cases ha : s.about? m.1 m.2 = some id
    · rw [if_pos ha]
      obtain ⟨zmid, hzmid, hmid⟩ := h.step hs hz hstep ha
      obtain ⟨z', hz', hlast⟩ := ih hmid (hs.step hstep) (hz.step hzmid) hm
      refine ⟨z', ?_, hlast⟩
      rw [runEvents, show z.move m = some zmid from hzmid.to_step, Option.bind_some, hz']
    · rw [if_neg ha]
      exact ih (h.skip hstep ha) (hs.step hstep) hz hm

end Isolates

/-- A step at one machine leaves another as it is: its entry, its slots, who holds,
waits or sleeps there, and what the other threads can do there. Steps of two threads
at two machines can be taken in either order. What a run leaves at a machine, its steps
at that machine alone leave there as well, with nobody anywhere else. -/
theorem machines_independent (id : Guid) :
    (∀ (s s' : State) (t : Nat) (a : Act) (id' : Guid), Reachable s → s.step t a = some s' →
      s.about? t a = some id' → id ≠ id' →
      AgreeAt id s s' ∧ s'.pending id = s.pending id ∧
      (∀ u, s'.heldBy? u = some id ↔ s.heldBy? u = some id) ∧
      (∀ (u : Nat) p, p.isAt id = true → (s'.threads[u]? = some p ↔ s.threads[u]? = some p)) ∧
      ∀ u b, u ≠ t → (s'.CanTake u b id ↔ s.CanTake u b id) ∧
        ∀ s'', s'.about? u b = some id → s'.step u b = some s'' →
          ∃ mid, s.step u b = some mid ∧ mid.step t a = some s'') ∧
    ∀ (n : Nat) (moves : List (Nat × Act)) (s : State),
      runEvents State.move (.init n) moves = some s →
      ∃ z, runEvents State.move (.init n) ((State.init n).movesAt id moves) = some z ∧
        AgreeAt id s z ∧ ∀ id' t, id' ≠ id → z.phaseAt? id' t = none := by
  constructor
  · intro s s' t a id' h hstep ha hne
    have hstep := Step.of_step hstep
    have hagree := hstep.agreeAt ha hne
    refine ⟨hagree, hagree.pending_eq, fun u => hagree.heldBy?_iff,
      fun u p hp => hagree.thread_iff hp, fun u b hu => ⟨hstep.canTake_iff h.orderly ha hne hu, ?_⟩⟩
    intro s'' hb hstep'
    obtain ⟨mid, hmid, hlast⟩ := hstep.swap h.orderly ha hne hu (.of_step hstep') hb
    exact ⟨mid, hmid.to_step, hlast.to_step⟩
  · intro n moves s hm
    obtain ⟨z, hz, h⟩ := (Isolates.init id n).run (.init n) (.init n) hm
    exact ⟨z, hz, h.agree, h.elsewhere⟩

/-- Thread 0 signs off as the last at one machine; thread 1 holds another, where
thread 2 sleeps. Thread 1 may as well have given its slot back before, and it came
to hold it as if thread 0 had never been there. -/
theorem machines_independent_last : ∃ id n moves s s' s'' mid z, Reachable s ∧
    s.threads = [.called ⟨.nil, 0⟩, .holding ⟨id, 0⟩, .asleep ⟨id, 0⟩ 1] ∧
    s.step 0 .sign = some s' ∧ s.registered? .nil ≠ none ∧ s'.registered? .nil = none ∧
    s'.registered? id = s.registered? id ∧ s'.pending id = 2 ∧
    s'.step 1 .advance = some s'' ∧ s.step 1 .advance = some mid ∧ mid.step 0 .sign = some s'' ∧
    runEvents State.move (.init n) moves = some s ∧
    runEvents State.move (.init n) ((State.init n).movesAt id moves) = some z ∧
    z.threads = [.idle, .holding ⟨id, 0⟩, .asleep ⟨id, 0⟩ 1] := by
  let id : Guid := ⟨List.replicate 32 1, rfl⟩
  have hne : id ≠ .nil := by decide
  let moves : List (Nat × Act) := [(0, .draw .nil), (1, .draw id), (0, .look), (2, .draw id),
    (1, .look), (0, .advance), (2, .look), (0, .call)]
  obtain ⟨s, hs⟩ : ∃ s, runEvents State.move (.init 3) moves = some s := ⟨_, rfl⟩
  have h := (Reachable.init 3).run hs
  have hthreads : s.threads = [.called ⟨.nil, 0⟩, .holding ⟨id, 0⟩, .asleep ⟨id, 0⟩ 1] := by
    obtain rfl := Option.some.inj hs
    decide
  obtain ⟨hstep, hrun⟩ := machines_independent id
  have hcalled : s.threads[0]? = some (.called ⟨.nil, 0⟩) := by rw [hthreads]; rfl
  obtain ⟨s', hs'⟩ : ∃ s', s.step 0 .sign = some s' := ⟨_, (Step.sign hcalled).to_step⟩
  have habout : s.about? 0 .sign = some .nil := by simp [State.about?, hcalled, Phase.slot?]
  obtain ⟨hagree, hpending, -, hphase, hothers⟩ := hstep s s' 0 .sign .nil h hs' habout hne
  have hholding : s'.threads[1]? = some (.holding ⟨id, 0⟩) :=
    (hphase 1 _ (by decide)).mpr (by rw [hthreads]; rfl)
  obtain ⟨s'', hs''⟩ : ∃ s'', s'.step 1 .advance = some s'' :=
    ⟨_, (Step.advance hholding).to_step⟩
  obtain ⟨mid, hmid, hlast⟩ := (hothers 1 .advance (by decide)).2 s''
    (by simp [State.about?, hholding, Phase.slot?]) hs''
  obtain ⟨z, hz, -, -⟩ := hrun 3 moves s hs
  refine ⟨id, 3, moves, s, s', s'', mid, z, h, hthreads, hs', ?_, ?_, hagree.registered, ?_, hs'',
    hmid, hlast, hs, hz, ?_⟩
  · obtain rfl := Option.some.inj hs
    decide
  · obtain rfl := Option.some.inj hs
    obtain rfl := Option.some.inj hs'
    decide
  · rw [hpending]
    obtain rfl := Option.some.inj hs
    decide
  · obtain rfl := Option.some.inj hz
    decide

end GuestControl.Turnstile
