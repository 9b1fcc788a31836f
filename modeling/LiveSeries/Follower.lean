import LiveSeries.Hub

/-!
# Waiting for the next entry

A follower is a cursor that can wait. It tries to move; if there is nothing to move to, it
subscribes to the series it reads, asks for one notification of each, and tries again before it
goes to sleep. A publication between the second try and the sleep has then left a permit on its
waiter, so none is missed.

A wait ends with the cursor on its next entry, or with the end of all sources, or because its
token was cancelled.
-/

namespace LiveSeries

/-- Why a wait failed. -/
inductive WaitError where
  | cancelled
  | subscribe (e : SubscribeRefusal)
  deriving DecidableEq, Repr

/-- The text shown for a wait that failed. -/
def WaitError.message : WaitError → String
  | .cancelled => "async move cancelled"
  | .subscribe e => e.message

/-- A cursor with the waiter that sleeps for it and its subscriptions. -/
structure Follower where
  cursor : Cursor
  waiter : TargetId
  subscriptions : Subscriptions := []

/-- A follower asleep: what may cancel it, and its place in the queue of its waiter. -/
structure Sleeper where
  follower : Follower
  token : Nat
  ticket : Nat

/-- What became of a wait. -/
inductive Progress where
  /-- It is over, with an answer of the move. -/
  | ended (answer : Except WaitError Bool)
  | asleep (s : Sleeper)

/-- The result of an attempt to end a wait. -/
structure Attempt (α : Type) where
  hub : Hub
  follower : Follower
  answer : Eval α

namespace Follower

/-- A follower with a waiter of its own. A cursor that is not ready is replaced by a fresh one. -/
def make (h : Hub) (c : Cursor) : Follower × Hub :=
  let (waiter, h') := h.newTarget (.waiter {})
  let ready := (c.state h.sources).isReady
  ({ cursor := if ready then c else c.fresh h.sources, waiter := waiter }, h')

/-- Ends all subscriptions. -/
def release (f : Follower) (h : Hub) : Follower × Hub :=
  ({ f with subscriptions := [] }, h.unsubscribeAll f.subscriptions)

/-- Moves on if there is an entry. Once the sources are complete the cursor tries a last time,
and that answer is final. -/
def advance (f : Follower) (h : Hub) : Follower × Eval (Option Bool) :=
  let (c, landed) := f.cursor.move h.sources .next
  match landed.outcome with
  | .error e => ({ f with cursor := c }, ⟨.error e, landed.calls⟩)
  | .ok true => ({ f with cursor := c }, ⟨.ok (some true), landed.calls⟩)
  | .ok false =>
    if c.isCompleted h.sources then
      let (c', last) := c.move h.sources .next
      ({ f with cursor := c' }, ⟨last.outcome.map some, landed.calls + last.calls⟩)
    else ({ f with cursor := c }, ⟨.ok none, landed.calls⟩)

/-- Subscribes to all series of the cursor, unless there are subscriptions already. -/
def watch (f : Follower) (h : Hub) : Except SubscribeRefusal Unit × Follower × Hub :=
  if f.subscriptions.isEmpty then
    let (answer, set, h') := f.cursor.tree.subscribe f.waiter f.subscriptions h
    (answer, { f with subscriptions := set }, h')
  else (.ok (), f, h)

/-- One round of a wait, up to the point where it has to sleep: then there is no answer. -/
def round (f : Follower) (token : Nat) (h : Hub) : Attempt (Option (Except WaitError Bool)) :=
  if h.isCancelled token then ⟨h, f, pure (some (.error .cancelled))⟩
  else
    let (f, first) := f.advance h
    match first.outcome with
    | .error e => ⟨h, f, ⟨.error e, first.calls⟩⟩
    | .ok (some moved) => ⟨h, f, ⟨.ok (some (.ok moved)), first.calls⟩⟩
    | .ok none =>
      match f.watch h with
      | (.error e, f, h) => ⟨h, f, ⟨.ok (some (.error (.subscribe e))), first.calls⟩⟩
      | (.ok _, f, h) =>
        let h := h.requestAll f.subscriptions 1
        let (f, second) := f.advance h
        ⟨h, f, ⟨second.outcome.map fun moved => moved.map .ok, first.calls + second.calls⟩⟩

/-- Queues up at its waiter. -/
def fallAsleep (token : Nat) (f : Follower) (h : Hub) : Attempt Progress :=
  let (ticket, w) := (h.waiter f.waiter).queueUp
  ⟨h.setWaiter f.waiter w, f, pure (.asleep ⟨f, token, ticket⟩)⟩

/-- A round without an answer is followed by a sleep. -/
def orSleep (a : Attempt (Option (Except WaitError Bool)))
    (sleep : Follower → Hub → Attempt Progress) : Attempt Progress :=
  match a.answer.outcome with
  | .error e => ⟨a.hub, a.follower, ⟨.error e, a.answer.calls⟩⟩
  | .ok (some answer) => ⟨a.hub, a.follower, ⟨.ok (.ended answer), a.answer.calls⟩⟩
  | .ok none =>
    let s := sleep a.follower a.hub
    ⟨s.hub, s.follower, ⟨s.answer.outcome, a.answer.calls + s.answer.calls⟩⟩

/-- Waits. A permit on the waiter ends the first sleep at once and gives one more round; it is
taken then, so the second sleep lasts. -/
def start (f : Follower) (token : Nat) (h : Hub) : Attempt Progress :=
  orSleep (f.round token h) fun f h =>
    let w := h.waiter f.waiter
    if w.permit then
      orSleep (f.round token (h.setWaiter f.waiter w.takePermit)) (fallAsleep token)
    else fallAsleep token f h

end Follower

namespace Sleeper

/-- The sleeper has a reason to look again. -/
def isStirred (s : Sleeper) (h : Hub) : Bool :=
  h.isCancelled s.token || (h.waiter s.follower.waiter).isWoken s.ticket

/-- Gives up its place in the queue. -/
def leave (s : Sleeper) (h : Hub) : Hub :=
  h.setWaiter s.follower.waiter ((h.waiter s.follower.waiter).leave s.ticket)

/-- Looks again: a cancelled token ends the wait, a wake starts it anew, and else it sleeps on. -/
def poll (s : Sleeper) (h : Hub) : Attempt Progress :=
  if h.isCancelled s.token then ⟨s.leave h, s.follower, pure (.ended (.error .cancelled))⟩
  else
    match (h.waiter s.follower.waiter).poll s.ticket with
    | (true, w) => s.follower.start s.token (h.setWaiter s.follower.waiter w)
    | (false, _) => ⟨h, s.follower, pure (.asleep s)⟩

end Sleeper

end LiveSeries
