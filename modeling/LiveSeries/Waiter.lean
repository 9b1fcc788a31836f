/-!
# Waiters

A waiter is woken one wait at a time. Waits queue up; a wake goes to the oldest one, and is kept
as a permit if nobody waits, at most one at a time. The next wait takes the permit at once.

A wait that was woken has the wake until it is asked again. If it is given up before, the wake
passes on to the next wait, or becomes a permit.
-/

namespace LiveSeries

/-- The waits on one waiter. -/
structure Waiter where
  /-- A wake that nobody has taken yet. -/
  permit : Bool := false
  /-- The waits that were not woken yet, the oldest first. -/
  queue : List Nat := []
  /-- The waits that were woken and not asked since. -/
  woken : List Nat := []
  /-- How many waits were queued so far; the number of the next one. -/
  issued : Nat := 0
  deriving DecidableEq, Repr, Inhabited

namespace Waiter

/-- Wakes the oldest wait, or keeps a permit. -/
def wake (w : Waiter) : Waiter :=
  match w.queue with
  | [] => { w with permit := true }
  | oldest :: rest => { w with queue := rest, woken := oldest :: w.woken }

/-- Takes the permit. -/
def takePermit (w : Waiter) : Waiter := { w with permit := false }

/-- Queues a wait up, under a number. -/
def queueUp (w : Waiter) : Nat × Waiter :=
  (w.issued, { w with queue := w.queue ++ [w.issued], issued := w.issued + 1 })

/-- Begins a wait: it is over at once if there is a permit, else it queues up. -/
def enter (w : Waiter) : Option Nat × Waiter :=
  if w.permit then (none, w.takePermit)
  else (some w.queueUp.1, w.queueUp.2)

/-- A wait was woken and not asked since. -/
def isWoken (w : Waiter) (ticket : Nat) : Bool := w.woken.contains ticket

/-- Asks a wait whether it is over. -/
def poll (w : Waiter) (ticket : Nat) : Bool × Waiter :=
  if w.isWoken ticket then (true, { w with woken := w.woken.filter (· != ticket) })
  else (false, w)

/-- Gives a wait up. -/
def leave (w : Waiter) (ticket : Nat) : Waiter :=
  if w.isWoken ticket then { w with woken := w.woken.filter (· != ticket) }.wake
  else { w with queue := w.queue.filter (· != ticket) }

end Waiter

end LiveSeries
