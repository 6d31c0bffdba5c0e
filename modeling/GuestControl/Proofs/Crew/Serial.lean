import GuestControl.Proofs.Crew.Site
import GuestControl.Proofs.Run

/-!
# Calls on machines are serializable

Calls on machines, interleaved in any way, come to what they would come to one
after the other, in the order in which they draw their tickets. Between two
pipelines of one call no other call runs a pipeline on the same machine. Calls
that a program makes one after the other are on threads of their own here: that
they do not overlap is one way for them to interleave.
-/

namespace GuestControl

open Turnstile (Phase)
open GuestControl.Task (Inside Outside Engaged Turns Over)

variable {α σ : Type}

/-- Each pipeline that the operation may come to run works on the machine that
the operation is on. -/
def Executor.Confines (x : Executor σ) (g : Service.Gate) (op : Operation) : Prop :=
  ∃ id, op.machine? = some id ∧ ∀ p mode, (op.call g).Asks (.execute p mode) → x.KeepsTo id p mode

namespace Site

abbrev History (α : Type) {σ : Type} (x : Executor σ) := Run (@Site.step α σ x)

section
variable {x : Executor σ} {place : Nat → Guid} {calls : List (Task α)} {f : Fleet σ}
  {order : List Nat} {s s' : Site α σ} {p p' : Phase} {e : Event} {t u i j k : Nat}

theorem Sound.stage_le (h : Sound x place calls f order s) (hs : s.step x e = some s')
    (ht : t ∈ order) (hp : s.crew.turnstile.threads[t]? = some p)
    (hp' : s'.crew.turnstile.threads[t]? = some p') : p.stage ≤ p'.stage := by
  cases e with
  | turn u a =>
    obtain ⟨c, hc, rfl⟩ := Option.map_eq_some_iff.mp hs
    obtain ⟨task, task', q, q', ts, htask, hq, hstep, -, hturns, rfl⟩ := Crew.turn_eq_some hc
    refine hstep.stage_le hp hp' ?_
    rintro rfl
    rcases (h.in_line.turn_engaged htask hq hturns).2 with ⟨-, ha⟩ | ⟨hmem, -⟩
    · exact ha
    · exact absurd ht hmem
  | reply u =>
    obtain ⟨q, next, -, -, -, -, rfl⟩ := reply_eq_some hs
    obtain rfl := Option.some.inj (hp.symm.trans hp')
    exact Nat.le_refl _

namespace History

variable {r : History α x}

/-- The threads that draw a ticket before moment `k`, first to last. -/
def draws (r : History α x) (k : Nat) : List Nat :=
  (List.range k).flatMap fun i => (r.event i).drawn

def Executes (r : History α x) (t i : Nat) : Prop :=
  i < r.length ∧ r.event i = .reply t ∧
    ∃ p mode next, (r.state i).crew.tasks[t]? = some (.ask (.execute p mode) next)

theorem draws_succ (r : History α x) (k : Nat) :
    r.draws (k + 1) = r.draws k ++ (r.event k).drawn := by
  simp [draws, List.range_succ]

theorem sound (h0 : r.state 0 = opening calls f) (hcalls : ∀ {t : Nat} {call : Task α},
    calls[t]? = some call → Outside (place t) (x.KeepsTo (place t)) call) (hk : k ≤ r.length) :
    Sound x place calls f (r.draws k) (r.state k) := by
  induction k with
  | zero => exact h0 ▸ .init hcalls
  | succ k ih =>
    rw [draws_succ]
    exact (ih (by omega)).step (r.step_event k hk)

theorem mem_draws_of_le (ht : t ∈ r.draws i) (hij : i ≤ j) : t ∈ r.draws j := by
  obtain ⟨d, rfl⟩ := Nat.exists_eq_add_of_le hij
  induction d with
  | zero => exact ht
  | succ d ih => exact draws_succ r (i + d) ▸ List.mem_append_left _ (ih (by omega))

theorem Executes.holding (he : r.Executes t i)
    (hr : Sound x place calls f (r.draws i) (r.state i)) : t ∈ r.draws i ∧ ∃ slot,
      (r.state i).crew.turnstile.threads[t]? = some (.holding slot) ∧ slot.id = place t := by
  obtain ⟨-, -, p, mode, next, hask⟩ := he
  rcases hr.in_line.asks hask nofun nofun with ⟨-, hq⟩ | ⟨hmem, _, _, slot, -, -, hp, hid⟩
  · cases hq
  · exact ⟨hmem, slot, hp, hid⟩

section
variable (hr : ∀ k ≤ r.length, Sound x place calls f (r.draws k) (r.state k))
include hr

theorem stage_le (hij : i ≤ j) (hj : j ≤ r.length) (ht : t ∈ r.draws i)
    (hp : (r.state i).crew.turnstile.threads[t]? = some p)
    (hp' : (r.state j).crew.turnstile.threads[t]? = some p') : p.stage ≤ p'.stage := by
  obtain ⟨d, rfl⟩ := Nat.exists_eq_add_of_le hij
  induction d generalizing p' with
  | zero =>
    obtain rfl := Option.some.inj (hp.symm.trans hp')
    exact Nat.le_refl _
  | succ d ih =>
    have hd := hr (i + d) (by omega)
    have htd := mem_draws_of_le ht (Nat.le_add_right i d)
    obtain ⟨q, -, hq, -, -⟩ := hd.in_line.engaged htd
    exact Nat.le_trans (ih (by omega) (by omega) hq)
      (hd.stage_le (r.step_event (i + d) (by omega)) htd hq hp')

/-- Between two pipelines of a call its thread holds the slot all the time. -/
theorem undisturbed (hi : r.Executes t i) (hk : r.Executes u k) (hj : r.Executes t j)
    (hik : i < k) (hkj : k < j) (hplace : place t = place u) : u = t := by
  obtain ⟨hdrawn, slot, hheld, hid⟩ := hi.holding (hr i (by have := hi.1; omega))
  obtain ⟨-, slot', hheld', -⟩ := hj.holding (hr j (Nat.le_of_lt hj.1))
  obtain ⟨-, sl, hheldu, hidu⟩ := hk.holding (hr k (Nat.le_of_lt hk.1))
  have hline := (hr k (Nat.le_of_lt hk.1)).in_line
  have hdrawnk := mem_draws_of_le hdrawn (Nat.le_of_lt hik)
  obtain ⟨p, task, hp, -, he⟩ := hline.engaged hdrawnk
  have hlow := stage_le hr (Nat.le_of_lt hik) (Nat.le_of_lt hk.1) hdrawn hheld hp
  have hhigh := stage_le hr (Nat.le_of_lt hkj) (Nat.le_of_lt hj.1) hdrawnk hp hheld'
  cases he with
  | holding hidt _ =>
    have hu := Turnstile.State.heldBy?_eq_some.mpr ⟨sl, hheldu, hidu⟩
    have ht := Turnstile.State.heldBy?_eq_some.mpr ⟨_, hp, hidt.trans hplace⟩
    exact hline.orderly.holder_unique hu ht
  | _ => simp [Phase.stage] at hlow hhigh

end

theorem serial_of_done {results : List α} (h : Sound x place calls f order s)
    (hdone : s.crew.tasks = results.map .done) : order.Perm (List.range calls.length) ∧
      inTurn (x.plays calls order) f = (order.filterMap (results[·]?), s.fleet) := by
  have hmem : ∀ t, t ∈ order ↔ t ∈ List.range calls.length := by
    intro t
    rw [List.mem_range, ← h.length]
    constructor
    · intro ht
      obtain ⟨_, _, -, htask, -⟩ := h.in_line.engaged ht
      exact (List.getElem?_eq_some_iff.mp htask).1
    · intro ht
      by_contra hwaits
      have hout := (h.in_line.waiting (List.getElem?_eq_getElem ht) hwaits).2
      simp only [hdone, List.getElem_map] at hout
      cases hout
  refine ⟨(List.perm_ext_iff_of_nodup h.in_line.nodup List.nodup_range).mpr hmem, ?_⟩
  rw [← h.serial, hdone, ← inTurn_pure (order.filterMap (results[·]?)) s.fleet]
  congr 1
  simp only [Executor.plays, List.getElem?_map, Option.map_map, List.map_filterMap]
  rfl

end History

end

/-- Take any calls of operations on machines, each on a thread of its own, and an
executor whose pipelines keep to their machines. In every run, two pipelines of
one call have no pipeline of another call on the same machine between them. When
all calls are done, their results and the fleet are those of running them one
after the other in the order in which they drew their tickets. -/
theorem History.serializable (x : Executor σ) (g : Service.Gate) (ops : List Operation)
    (f : Fleet σ) (hops : ∀ op ∈ ops, x.Confines g op) (r : History (Ending Answer) x)
    (h0 : r.state 0 = opening (ops.map (·.call g)) f) :
    (∀ t u i k j, r.Executes t i → r.Executes u k → r.Executes t j → i < k → k < j →
      ops[t]?.bind Operation.machine? = ops[u]?.bind Operation.machine? → u = t) ∧
    ∀ results : List (Ending Answer), (r.state r.length).crew.tasks = results.map .done →
      (r.draws r.length).Perm (List.range ops.length) ∧
      inTurn (x.plays (ops.map (·.call g)) (r.draws r.length)) f =
        ((r.draws r.length).filterMap (results[·]?), (r.state r.length).fleet) := by
  have hcalls : ∀ {t : Nat} {call : Call Answer}, (ops.map (·.call g))[t]? = some call →
      Outside ((ops[t]?.bind Operation.machine?).getD .nil)
        (x.KeepsTo ((ops[t]?.bind Operation.machine?).getD .nil)) call := by
    intro t call hcall
    obtain ⟨op, hop, rfl⟩ := Option.map_eq_some_iff.mp (List.getElem?_map ▸ hcall)
    obtain ⟨id, hid, hx⟩ := hops op (List.mem_of_getElem? hop)
    simp only [hop, Option.bind_some, hid, Option.getD_some]
    exact Operation.outside hid hx
  have hr : ∀ k ≤ r.length, Sound x _ (ops.map (·.call g)) f (r.draws k) (r.state k) :=
    fun k hk => sound h0 hcalls hk
  refine ⟨fun t u i k j hi hk hj hik hkj hplace => ?_, fun results hdone => ?_⟩
  · exact undisturbed hr hi hk hj hik hkj (by rw [hplace])
  · obtain ⟨hperm, hserial⟩ := serial_of_done (hr r.length (Nat.le_refl _)) hdone
    have hlength : (ops.map (·.call g)).length = ops.length := List.length_map _
    exact ⟨hlength ▸ hperm, hserial⟩

/-- Pipelines on the nil machine, counted; from the third on they crash. -/
def tally : Executor Nat := fun _ _ f =>
  (if f .nil < 2 then .finished {} else .crashed "the host is gone",
    Function.update f .nil (f .nil + 1))

/-- Thread 1 draws first and removes the machine by two pipelines. Thread 0
waits, wakes up uncalled in between, and then fails to start the machine. -/
def removal : History (Ending Answer) tally :=
  .ofEvents (opening ([.start .nil, .remove .nil].map (Operation.call default)) fun _ => 0)
    (.reply 0) [.reply 1, .turn 1 (.draw .nil), .turn 0 (.draw .nil), .turn 0 .look, .turn 1 .look,
      .reply 1, .turn 0 .rouse, .turn 0 .look, .reply 1, .turn 1 .advance, .turn 1 .call,
      .turn 0 .look, .turn 1 .sign, .reply 0, .turn 0 .advance, .turn 0 .call, .turn 0 .sign]
    (by decide)

theorem History.serializable_removal :
    removal.Executes 1 6 ∧ removal.Executes 1 9 ∧
    (∀ u k, removal.Executes u k → 6 < k → k < 9 →
      [Operation.start .nil, .remove .nil][u]?.bind Operation.machine? = some .nil → u = 1) ∧
    removal.draws removal.length = [1, 0] ∧
    inTurn (tally.plays ([.start .nil, .remove .nil].map (Operation.call default)) [1, 0])
      (fun _ => 0) = ([.value (.verdict true), .crashed "the host is gone"],
        (removal.state removal.length).fleet) := by
  have hops : ∀ op ∈ [.start .nil, .remove .nil], tally.Confines default op := by
    have hx : ∀ p mode, tally.KeepsTo .nil p mode := fun p mode =>
      ⟨fun n => (if n < 2 then .finished {} else .crashed "the host is gone", n + 1), fun _ => rfl⟩
    intro op hop
    simp only [List.mem_cons, List.not_mem_nil, or_false] at hop
    obtain rfl | rfl := hop
    · exact ⟨.nil, rfl, fun p mode _ => hx p mode⟩
    · exact ⟨.nil, rfl, fun p mode _ => hx p mode⟩
  have hdraws : removal.draws removal.length = [1, 0] := by decide
  have hdone : (removal.state removal.length).crew.tasks =
      [.crashed "the host is gone", .value (.verdict true)].map .done := by rfl
  have hfirst : removal.Executes 1 6 := ⟨by decide, rfl, _, _, _, rfl⟩
  have hsecond : removal.Executes 1 9 := ⟨by decide, rfl, _, _, _, rfl⟩
  obtain ⟨halone, hserial⟩ := History.serializable tally default _ _ hops removal rfl
  refine ⟨hfirst, hsecond, fun u k hk hlow hhigh hu => ?_, hdraws, ?_⟩
  · exact halone 1 u 6 k 9 hfirst hk hsecond hlow hhigh hu.symm
  · exact hdraws ▸ (hserial _ hdone).2

end Site

end GuestControl
