import HomeHub.Event

/-!
# The event bus

Events are broadcast to all receivers. The bus keeps the latest events up to its capacity; a
receiver that falls further behind is told once how many events it missed and then goes on at the
oldest one kept. An event that is published while nobody listens is gone.

The `Publisher` is the bus together with a record of what went through it. It can be made to refuse
any of the events, as a closed bus does.
-/

namespace HomeHub

structure EventBus where
  /-- How many events are kept. -/
  capacity : Nat
  /-- How many events were broadcast so far. -/
  sent : Nat := 0
  /-- The latest events, oldest first, at most `capacity` of them. -/
  kept : List Event := []
  /-- For each subscription the number of the next event, none once it is dropped. -/
  receivers : List (Option Nat) := []
  deriving Inhabited

/-- What a receiver gets. -/
inductive Reception where
  | event (e : Event)
  /-- Nothing new. -/
  | empty
  /-- So many events were missed. -/
  | lagged (missed : Nat)

namespace EventBus

/-- The least power of two that is at least `n`. -/
def roundUp (n : Nat) : Nat := if n ≤ 1 then 1 else 1 <<< (Nat.log2 (n - 1) + 1)

/-- A bus that keeps at least `capacity` events, rounded up to a power of two; none for zero. -/
def open? (capacity : Nat) : Option EventBus :=
  if capacity = 0 then none else some { capacity := roundUp capacity }

def hasReceivers (b : EventBus) : Bool := b.receivers.any Option.isSome

/-- The number of the subscription and the bus with it; it gets all events from now on. -/
def subscribe (b : EventBus) : Nat × EventBus :=
  (b.receivers.length, { b with receivers := b.receivers ++ [some b.sent] })

def unsubscribe (b : EventBus) (i : Nat) : EventBus := { b with receivers := b.receivers.set i none }

def publish (b : EventBus) (e : Event) : EventBus :=
  if b.hasReceivers then
    let kept := b.kept ++ [e]
    { b with sent := b.sent + 1, kept := kept.drop (kept.length - b.capacity) }
  else b

/-- The events that wait for a receiver, those that it missed left out. -/
def waiting (b : EventBus) (i : Nat) : List Event :=
  match b.receivers[i]? with
  | some (some next) => b.kept.drop (next - (b.sent - b.kept.length))
  | _ => []

/-- Takes all events that wait for a receiver. -/
def drain (b : EventBus) (i : Nat) : List Event × EventBus :=
  (b.waiting i, { b with receivers := b.receivers.modify i (·.map fun _ => b.sent) })

/-- Takes the next event of a subscription. -/
def receive (b : EventBus) (i : Nat) : Reception × EventBus :=
  match b.receivers[i]? with
  | some (some next) =>
    let oldest := b.sent - b.kept.length
    if next < oldest then
      (.lagged (oldest - next), { b with receivers := b.receivers.set i (some oldest) })
    else
      match b.kept[next - oldest]? with
      | some e => (.event e, { b with receivers := b.receivers.set i (some (next + 1)) })
      | none => (.empty, b)
  | _ => (.empty, b)

end EventBus

/-- A bus, its record, and which events it refuses. -/
structure Publisher where
  bus : EventBus
  /-- What was published, oldest first. -/
  published : List Event := []
  /-- How many events were offered. -/
  offered : Nat := 0
  /-- The reason for which the n-th event is refused, if it is. -/
  refuses : Nat → Option String := fun _ => none
  deriving Inhabited

/-- Publishes an event; nobody gets to know of a refused one. -/
def Publisher.publish (p : Publisher) (e : Event) : Except HubError Unit × Publisher :=
  let offered := p.offered + 1
  match p.refuses p.offered with
  | some reason => (.error (.storage reason), { p with offered })
  | none => (.ok (), { p with bus := p.bus.publish e, published := p.published ++ [e], offered })

end HomeHub
