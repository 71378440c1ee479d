/-!
# Bounded queues

A queue joins one or more producers to one consumer. It holds at most its capacity; a producer that
finds it full waits. When the consumer goes away, what is queued is lost and every later offer is
refused. When the producers go away, the consumer still gets what is queued, and then the queue has
ended.

Results:

* `items_offer`, `items_take?`: items leave in the order in which they were accepted.
* `offer_of_not_listening`, `not_listening_of_offer`: an offer is refused exactly where there is no
  consumer.
* `isSome_new?_iff`: the capacities that a queue can have.
* `eq_of_new?`: a new queue is empty and has room.
* `eq_of_offer`, `eq_of_take?`: nothing but the items changes.
* `take?_eq_none_iff`: there is nothing to take exactly when no item is queued.
-/

namespace Wiretap

/-- A queue with its items, oldest first. -/
structure Queue (α : Type) where
  capacity : Nat
  items : List α := []
  /-- The consumer is still there. -/
  listening : Bool := true
  /-- A producer is still there. -/
  feeding : Bool := true
  deriving Repr

/-- What becomes of an item that is offered to a queue. -/
inductive Offer (α : Type) where
  | accepted (q : Queue α)
  /-- The consumer is gone. -/
  | refused
  /-- The producer has to wait. -/
  | full

namespace Queue

variable {α : Type}

/-- The largest capacity that a queue can have (`Semaphore::MAX_PERMITS`). -/
def maxCapacity : Nat := 2305843009213693951

/-- Model of `mpsc::channel`: an empty queue. There are none without room for an item, and none
above the largest capacity. -/
def new? (capacity : Nat) : Option (Queue α) :=
  if 0 < capacity ∧ capacity ≤ maxCapacity then some { capacity } else none

def hasRoom (q : Queue α) : Bool := q.items.length < q.capacity

/-- Offers an item. -/
def offer (q : Queue α) (a : α) : Offer α :=
  if q.listening then
    if q.hasRoom then .accepted { q with items := q.items ++ [a] } else .full
  else .refused

/-- Takes the oldest item. -/
def take? (q : Queue α) : Option (α × Queue α) :=
  match q.items with
  | [] => none
  | a :: rest => some (a, { q with items := rest })

/-- Nothing is queued and nothing more will be. -/
def ended (q : Queue α) : Bool := q.items.isEmpty && !q.feeding

/-- The consumer goes away. -/
def close (q : Queue α) : Queue α := { q with items := [], listening := false }

/-- The producers go away. -/
def finish (q : Queue α) : Queue α := { q with feeding := false }

theorem isSome_new?_iff {capacity : Nat} :
    (@new? α capacity).isSome ↔ 0 < capacity ∧ capacity ≤ maxCapacity := by
  unfold new?
  split <;> simp_all

theorem eq_of_new? {capacity : Nat} {q : Queue α} (h : new? capacity = some q) :
    0 < capacity ∧ q = { capacity } := by
  unfold new? at h
  split at h <;> cases h
  next hcapacity => exact ⟨hcapacity.1, rfl⟩

theorem items_offer {q q' : Queue α} {a : α} (h : q.offer a = .accepted q') :
    q'.items = q.items ++ [a] := by
  unfold offer at h
  split at h
  · split at h
    · cases h; rfl
    · cases h
  · cases h

theorem items_take? {q q' : Queue α} {a : α} (h : q.take? = some (a, q')) :
    q.items = a :: q'.items := by
  unfold take? at h
  split at h
  · cases h
  · next hq => cases h; exact hq

theorem take?_eq_none_iff {q : Queue α} : q.take? = none ↔ q.items = [] := by
  unfold take?
  split <;> simp_all

theorem offer_of_not_listening {q : Queue α} (h : q.listening = false) (a : α) :
    q.offer a = .refused := by
  simp [offer, h]

theorem not_listening_of_offer {q : Queue α} {a : α} (h : q.offer a = .refused) :
    q.listening = false := by
  unfold offer at h
  split at h
  · split at h <;> cases h
  · simp_all

theorem eq_of_offer {q q' : Queue α} {a : α} (h : q.offer a = .accepted q') :
    q.listening = true ∧ q' = { q with items := q.items ++ [a] } := by
  unfold offer at h
  split at h
  next hlistening =>
    split at h <;> cases h
    exact ⟨hlistening, rfl⟩
  next => cases h

theorem full_of_offer {q : Queue α} {a : α} (h : q.offer a = .full) :
    q.listening = true ∧ q.capacity ≤ q.items.length := by
  unfold offer hasRoom at h
  split at h
  next hlistening =>
    split at h <;> cases h
    next hroom => exact ⟨hlistening, by simpa using hroom⟩
  next => cases h

theorem eq_of_take? {q q' : Queue α} {a : α} (h : q.take? = some (a, q')) :
    q.items = a :: q'.items ∧ q' = { q with items := q'.items } := by
  have hitems := items_take? h
  unfold take? at h
  split at h <;> cases h
  exact ⟨hitems, rfl⟩

theorem ended_iff {q : Queue α} : q.ended = true ↔ q.items = [] ∧ q.feeding = false := by
  simp [ended]

end Queue
end Wiretap
