import GuestControl.Guid
import GuestControl.SortedMap

/-!
# Turnstiles

At most one operation at a time works on a machine, in the order of arrival.
A machine that is in use has an entry in the registry and a slot. Who arrives
draws the next ticket of the entry and waits until the slot serves it. Who
leaves does so in three steps: it advances the counter of the slot, calls
everyone asleep at the slot, and signs off in the registry; the last one to
sign off removes the entry. The steps of several threads may interleave in
any way, and a sleeper may also wake up uncalled.
-/

namespace GuestControl.Turnstile

/-- A slot: the machine it is for, and its number among the slots made for that machine. -/
structure Slot where
  id : Guid
  number : Nat
  deriving DecidableEq

structure Entry where
  /-- How many threads have drawn a ticket and not yet signed off. -/
  pending : Nat
  /-- A 64-bit counter of its own for each entry, which is taken not to wrap: fewer than `2 ^ 64`
  tickets are drawn from one entry. -/
  nextTicket : Nat
  slot : Nat
  deriving DecidableEq

inductive Phase where
  | idle
  /-- Awake with a ticket, about to look at the counter. -/
  | arriving (slot : Slot) (ticket : Nat)
  | asleep (slot : Slot) (ticket : Nat)
  | holding (slot : Slot)
  /-- The counter is advanced, the sleepers are not yet called. -/
  | advanced (slot : Slot)
  /-- The sleepers are called, the registry does not know yet. -/
  | called (slot : Slot)
  deriving DecidableEq

/-- One indivisible step of a thread. -/
inductive Act where
  | draw (id : Guid)
  /-- Looks at the counter, and holds the slot or falls asleep. -/
  | look
  /-- Wakes up without having been called. -/
  | rouse
  /-- Begins to give the slot back, at the end of an operation or as a crash unwinds it. -/
  | advance
  | call
  | sign
  deriving DecidableEq

structure State where
  entries : SortedMap Guid Entry
  /-- How many slots have been made for each machine. -/
  made : Guid → Nat
  /-- The ticket that each slot serves; like `Entry.nextTicket`, it is taken not to wrap. -/
  serving : Slot → Nat
  /-- Where each thread stands. A thread of a program that has several slots at
  once is several threads here. -/
  threads : List Phase

namespace State

def init (threads : Nat) : State :=
  { entries := [], made := fun _ => 0, serving := fun _ => 0,
    threads := List.replicate threads .idle }

def join (s : State) : State := { s with threads := s.threads ++ [.idle] }

def putEntry (s : State) (id : Guid) (e : Entry) : State :=
  { s with entries := SortedMap.insert Guid.before s.entries id e }

def setPhase (s : State) (t : Nat) (p : Phase) : State :=
  { s with threads := s.threads.set t p }

/-- The entry of a machine; a new one with a new slot if it has none. -/
def entryFor (s : State) (id : Guid) : Entry × State :=
  match SortedMap.find? s.entries id with
  | some e => (e, s)
  | none =>
    ({ pending := 0, nextTicket := 0, slot := s.made id },
      { s with made := fun i => if i = id then s.made id + 1 else s.made i })

def wake (slot : Slot) : Phase → Phase
  | .asleep sl k => if sl = slot then .arriving sl k else .asleep sl k
  | p => p

/-- Takes one thread off the entry of a machine, and the entry away with the last. -/
def signOff (s : State) (id : Guid) : State :=
  match SortedMap.find? s.entries id with
  | none => s
  | some e =>
    if e.pending - 1 = 0 then { s with entries := SortedMap.erase s.entries id }
    else s.putEntry id { e with pending := e.pending - 1 }

def step (s : State) (t : Nat) (a : Act) : Option State :=
  match s.threads[t]?, a with
  | some .idle, .draw id =>
    let (e, s) := s.entryFor id
    some ((s.putEntry id { e with pending := e.pending + 1, nextTicket := e.nextTicket + 1 }).setPhase
      t (.arriving ⟨id, e.slot⟩ e.nextTicket))
  | some (.arriving slot ticket), .look =>
    some (s.setPhase t (if s.serving slot = ticket then .holding slot else .asleep slot ticket))
  | some (.asleep slot ticket), .rouse => some (s.setPhase t (.arriving slot ticket))
  | some (.holding slot), .advance =>
    some ({ s with
      serving := fun sl => if sl = slot then s.serving slot + 1 else s.serving sl }.setPhase
        t (.advanced slot))
  | some (.advanced slot), .call =>
    some ({ s with threads := s.threads.map (wake slot) }.setPhase t (.called slot))
  | some (.called slot), .sign => some ((s.signOff slot.id).setPhase t .idle)
  | _, _ => none

-- ---------------------------------------------------------------------------
-- What can be seen
-- ---------------------------------------------------------------------------

/-- How many threads hold or wait for a machine, as the registry knows. -/
def pending (s : State) (id : Guid) : Nat :=
  match SortedMap.find? s.entries id with
  | some e => e.pending
  | none => 0

def active (s : State) : Nat := s.entries.length

def heldBy? (s : State) (t : Nat) : Option Guid :=
  match s.threads[t]? with
  | some (.holding slot) => some slot.id
  | _ => none

def holds (s : State) (t : Nat) : Bool := (s.heldBy? t).isSome

def isIdle (s : State) (t : Nat) : Bool := s.threads[t]? == some .idle

end State

end GuestControl.Turnstile
