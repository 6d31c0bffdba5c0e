import GuestControl.Proofs.Turnstile.Step

/-!
# The books of one machine

`Fits` says of one machine that its entry counts exactly the threads that
stand at it, and that the tickets from the one served to the next to be drawn
are each in the hands of one thread. One lemma for each change of a standing
says that the entry, changed accordingly, still fits.
-/

namespace GuestControl.Turnstile

-- ---------------------------------------------------------------------------
-- Counting with one place changed
-- ---------------------------------------------------------------------------

section
variable {α : Type} {l : List α} {t : Nat} {a b : α}

theorem countP_set_add (p : α → Bool) (h : l[t]? = some a) :
    (l.set t b).countP p + (if p a then 1 else 0) = l.countP p + (if p b then 1 else 0) := by
  induction l generalizing t with
  | nil => simp at h
  | cons y ys ih =>
    cases t with
    | zero =>
      obtain rfl : y = a := by simpa using h
      simp only [List.set_cons_zero, List.countP_cons]
      omega
    | succ t =>
      have := ih (t := t) (by simpa using h)
      simp only [List.set_cons_succ, List.countP_cons]
      omega

theorem countP_set_eq {p : α → Bool} (h : l[t]? = some a) (hp : p a = p b) :
    (l.set t b).countP p = l.countP p := by
  have := countP_set_add (b := b) p h
  rw [hp] at this
  omega

theorem countP_set_of_pos {p : α → Bool} (h : l[t]? = some a) (ha : p a = false)
    (hb : p b = true) : (l.set t b).countP p = l.countP p + 1 := by
  simpa [ha, hb] using countP_set_add (b := b) p h

theorem countP_set_of_neg {p : α → Bool} (h : l[t]? = some a) (ha : p a = true)
    (hb : p b = false) : (l.set t b).countP p + 1 = l.countP p := by
  simpa [ha, hb] using countP_set_add (b := b) p h

theorem countP_pos_of_getElem? {p : α → Bool} (h : l[t]? = some a) (ha : p a = true) :
    0 < l.countP p :=
  List.countP_pos_iff.mpr ⟨a, List.mem_of_getElem? h, ha⟩

end

-- ---------------------------------------------------------------------------
-- One machine
-- ---------------------------------------------------------------------------

/-- An entry of a machine tells the truth about the threads, given their
standings and the counters of the slots. -/
structure Fits (l : List Standing) (serving : Slot → Nat) (id : Guid) (e : Entry) : Prop where
  pending : e.pending = l.countP (Standing.isAt id)
  line : e.nextTicket = serving ⟨id, e.slot⟩ + l.countP (Standing.isQueuedAt id)
  slot_eq : ∀ {t : Nat} {st : Standing} {slot : Slot}, l[t]? = some st → st.slot? = some slot →
    slot.id = id → slot = ⟨id, e.slot⟩
  bounds : ∀ {t k : Nat}, l[t]? = some (.queued ⟨id, e.slot⟩ k) →
    serving ⟨id, e.slot⟩ ≤ k ∧ k < e.nextTicket
  complete : ∀ {k : Nat}, serving ⟨id, e.slot⟩ ≤ k → k < e.nextTicket →
    ∃ t : Nat, l[t]? = some (.queued ⟨id, e.slot⟩ k)
  distinct : ∀ {t u k : Nat}, l[t]? = some (.queued ⟨id, e.slot⟩ k) →
    l[u]? = some (.queued ⟨id, e.slot⟩ k) → t = u

namespace Fits

variable {l : List Standing} {f f' : Slot → Nat} {id : Guid} {e : Entry} {t : Nat}
  {st st' : Standing} {slot : Slot}

theorem isAt_eq_false (h : Fits l f id e) (he : e.pending = 0) (ht : l[t]? = some st) :
    st.isAt id = false := by
  cases hst : st.isAt id with
  | false => rfl
  | true =>
    have := countP_pos_of_getElem? ht hst
    have := h.pending
    omega

/-- With nobody at a machine, a new slot may be opened for it. -/
theorem fresh (h : ∀ st ∈ l, st.isAt id = false) (hf : f ⟨id, n⟩ = 0) :
    Fits l f id { pending := 0, nextTicket := 0, slot := n } := by
  have hq : ∀ st ∈ l, st.isQueuedAt id = false := fun st hst =>
    Standing.isQueuedAt_eq_false (h st hst)
  have none_at : ∀ {t : Nat} {st : Standing} {slot : Slot}, l[t]? = some st →
      st.slot? = some slot → slot.id ≠ id := by
    intro t st slot ht hs hid
    have := h st (List.mem_of_getElem? ht)
    rw [Standing.isAt_iff.mpr ⟨slot, hs, hid⟩] at this
    cases this
  refine ⟨?_, ?_, ?_, ?_, ?_, ?_⟩
  · exact (List.countP_eq_zero.mpr fun st hst => by simp [h st hst]).symm
  · simp only [hf, Nat.zero_add]
    exact (List.countP_eq_zero.mpr fun st hst => by simp [hq st hst]).symm
  · exact fun ht hs hid => absurd hid (none_at ht hs)
  · exact fun ht => absurd rfl (none_at ht rfl)
  · intro k _ hk
    exact absurd hk (Nat.not_lt_zero k)
  · exact fun ht _ => absurd rfl (none_at ht rfl)

theorem frame (h : Fits l f id e) (ht : l[t]? = some st) (hst : st.isAt id = false)
    (hst' : st'.isAt id = false) (hf : ∀ n, f' ⟨id, n⟩ = f ⟨id, n⟩) :
    Fits (l.set t st') f' id e := by
  have hold : ∀ {u k : Nat}, (l.set t st')[u]? = some (.queued ⟨id, e.slot⟩ k) →
      l[u]? = some (.queued ⟨id, e.slot⟩ k) := by
    intro u k hu
    rcases getElem?_set_some hu with ⟨-, rfl⟩ | ⟨-, hu⟩
    · simp [Standing.isAt] at hst'
    · exact hu
  refine ⟨?_, ?_, ?_, ?_, ?_, ?_⟩
  · rw [countP_set_eq ht (hst.trans hst'.symm)]
    exact h.pending
  · rw [hf, countP_set_eq ht ((Standing.isQueuedAt_eq_false hst).trans
      (Standing.isQueuedAt_eq_false hst').symm)]
    exact h.line
  · intro u su slot hu hs hid
    rcases getElem?_set_some hu with ⟨-, rfl⟩ | ⟨-, hu⟩
    · rw [Standing.isAt_iff.mpr ⟨slot, hs, hid⟩] at hst'
      cases hst'
    · exact h.slot_eq hu hs hid
  · intro u k hu
    rw [hf]
    exact h.bounds (hold hu)
  · intro k hle hlt
    rw [hf] at hle
    obtain ⟨u, hu⟩ := h.complete hle hlt
    refine ⟨u, getElem?_set_of_ne_of_some ht hu ?_⟩
    rintro rfl
    simp at hst
  · exact fun hu hv => h.distinct (hold hu) (hold hv)

theorem draw (h : Fits l f id e) (ht : l[t]? = some .away) :
    Fits (l.set t (.queued ⟨id, e.slot⟩ e.nextTicket)) f id
      { e with pending := e.pending + 1, nextTicket := e.nextTicket + 1 } := by
  have hold : ∀ {u k : Nat}, (l.set t (.queued ⟨id, e.slot⟩ e.nextTicket))[u]? =
      some (.queued ⟨id, e.slot⟩ k) →
      u = t ∧ k = e.nextTicket ∨ k < e.nextTicket ∧ l[u]? = some (.queued ⟨id, e.slot⟩ k) := by
    intro u k hu
    rcases getElem?_set_some hu with ⟨rfl, hk⟩ | ⟨-, hu⟩
    · simp only [Standing.queued.injEq, true_and] at hk
      exact .inl ⟨rfl, hk⟩
    · exact .inr ⟨(h.bounds hu).2, hu⟩
  have hline := h.line
  refine ⟨?_, ?_, ?_, ?_, ?_, ?_⟩
  · rw [countP_set_of_pos ht rfl (decide_eq_true rfl), ← h.pending]
  · show e.nextTicket + 1 = f ⟨id, e.slot⟩ + _
    rw [countP_set_of_pos ht rfl (decide_eq_true rfl), h.line, Nat.add_assoc]
  · intro u su slot hu hs hid
    rcases getElem?_set_some hu with ⟨-, rfl⟩ | ⟨-, hu⟩
    · exact (Option.some.inj hs).symm
    · exact h.slot_eq hu hs hid
  · intro u k hu
    show f ⟨id, e.slot⟩ ≤ k ∧ k < e.nextTicket + 1
    rcases hold hu with ⟨-, rfl⟩ | ⟨-, hu⟩
    · omega
    · have := h.bounds hu
      omega
  · intro k hle hlt
    rcases Nat.lt_succ_iff_lt_or_eq.mp hlt with hlt | rfl
    · obtain ⟨u, hu⟩ := h.complete hle hlt
      exact ⟨u, getElem?_set_of_ne_of_some ht hu nofun⟩
    · exact ⟨t, getElem?_set_self_of_some ht⟩
  · intro u v k hu hv
    rcases hold hu with ⟨rfl, rfl⟩ | ⟨hk, hu⟩ <;> rcases hold hv with ⟨rfl, hk'⟩ | ⟨hk', hv⟩
    · rfl
    · omega
    · omega
    · exact h.distinct hu hv

theorem advance (h : Fits l f id e) (ht : l[t]? = some (.queued ⟨id, e.slot⟩ (f ⟨id, e.slot⟩)))
    (hf : f' ⟨id, e.slot⟩ = f ⟨id, e.slot⟩ + 1) :
    Fits (l.set t (.leaving ⟨id, e.slot⟩)) f' id e := by
  have hold : ∀ {u k : Nat},
      (l.set t (.leaving ⟨id, e.slot⟩))[u]? = some (.queued ⟨id, e.slot⟩ k) →
      u ≠ t ∧ l[u]? = some (.queued ⟨id, e.slot⟩ k) := by
    intro u k hu
    rcases getElem?_set_some hu with ⟨-, hk⟩ | hu
    · cases hk
    · exact hu
  refine ⟨?_, ?_, ?_, ?_, ?_, ?_⟩
  · rw [countP_set_eq (b := .leaving ⟨id, e.slot⟩) ht rfl]
    exact h.pending
  · have := countP_set_of_neg (b := .leaving ⟨id, e.slot⟩) (p := Standing.isQueuedAt id) ht
      (decide_eq_true rfl) rfl
    have := h.line
    omega
  · intro u su slot hu hs hid
    rcases getElem?_set_some hu with ⟨-, rfl⟩ | ⟨-, hu⟩
    · exact (Option.some.inj hs).symm
    · exact h.slot_eq hu hs hid
  · intro u k hu
    obtain ⟨hne, hu⟩ := hold hu
    have hk : k ≠ f ⟨id, e.slot⟩ := by
      rintro rfl
      exact hne (h.distinct hu ht)
    have := h.bounds hu
    omega
  · intro k hle hlt
    obtain ⟨u, hu⟩ := h.complete (k := k) (by omega) hlt
    refine ⟨u, getElem?_set_of_ne_of_some ht hu fun heq => ?_⟩
    cases heq
    omega
  · exact fun hu hv => h.distinct (hold hu).2 (hold hv).2

theorem sign (h : Fits l f id e) (ht : l[t]? = some (.leaving slot)) (hid : slot.id = id) :
    Fits (l.set t .away) f id { e with pending := e.pending - 1 } := by
  have hold : ∀ {u : Nat} {st : Standing} {slot : Slot}, (l.set t .away)[u]? = some st →
      st.slot? = some slot → l[u]? = some st := by
    intro u st slot hu hs
    rcases getElem?_set_some hu with ⟨-, rfl⟩ | ⟨-, hu⟩
    · cases hs
    · exact hu
  refine ⟨?_, ?_, ?_, ?_, ?_, ?_⟩
  · have := countP_set_of_neg (b := .away) (p := Standing.isAt id) ht (decide_eq_true hid) rfl
    rw [h.pending, ← this, Nat.add_sub_cancel]
  · rw [countP_set_eq (b := .away) ht rfl]
    exact h.line
  · exact fun hu hs hid => h.slot_eq (hold hu hs) hs hid
  · exact fun hu => h.bounds (hold hu rfl)
  · intro k hle hlt
    obtain ⟨u, hu⟩ := h.complete hle hlt
    exact ⟨u, getElem?_set_of_ne_of_some ht hu nofun⟩
  · exact fun hu hv => h.distinct (hold hu rfl) (hold hv rfl)

theorem join (h : Fits l f id e) : Fits (l ++ [.away]) f id e := by
  have hold : ∀ {u : Nat} {st : Standing} {slot : Slot}, (l ++ [.away])[u]? = some st →
      st.slot? = some slot → l[u]? = some st := by
    intro u st slot hu hs
    rw [List.getElem?_append] at hu
    split at hu
    · exact hu
    · obtain rfl := List.mem_singleton.mp (List.mem_of_getElem? hu)
      cases hs
  refine ⟨by simpa using h.pending, by simpa using h.line,
    fun hu hs hid => h.slot_eq (hold hu hs) hs hid, fun hu => h.bounds (hold hu rfl), ?_,
    fun hu hv => h.distinct (hold hu rfl) (hold hv rfl)⟩
  intro k hle hlt
  obtain ⟨u, hu⟩ := h.complete hle hlt
  exact ⟨u, by rwa [List.getElem?_append_left (List.getElem?_eq_some_iff.mp hu).1]⟩

end Fits

end GuestControl.Turnstile
