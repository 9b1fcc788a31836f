import LiveSeries.Cursor
import LiveSeries.Waiter

/-!
# The shared state

Everything that several cursors, waiters and subscriptions can see: the series, the registries
that belong to no series, the targets of notifications, and the tokens by which waits are
cancelled. Each has a number, and a number once given out stays valid.
-/

namespace LiveSeries

/-- The identity of a registry: a series has one, and others stand alone. -/
inductive RegistryId where
  | ofSeries (id : SourceId)
  | alone (id : Nat)
  deriving DecidableEq, Repr

/-- What a notification invokes. -/
inductive Target where
  /-- One that waits to be woken. -/
  | waiter (w : Waiter)
  /-- One that is told of every notification. -/
  | observer
  deriving Inhabited

/-- A subscription: the registry it is on, and its number there. -/
structure Subscription where
  registry : RegistryId
  record : Nat
  deriving DecidableEq, Repr

/-- The subscriptions of one target, at most one on a registry. -/
abbrev Subscriptions := List Subscription

/-- The shared state. -/
structure Hub where
  series : List Series := []
  registries : List Registry := []
  targets : List Target := []
  /-- For every token, whether it was cancelled. -/
  tokens : List Bool := []
  /-- What was reported, the latest first. -/
  reports : List Event := []
  deriving Inhabited

namespace Hub

/-- The series as cursors see them. -/
def sources (h : Hub) : Sources := fun id => h.series.getD id default

def setSeries (h : Hub) (id : SourceId) (s : Series) : Hub := { h with series := h.series.set id s }

def report (h : Hub) (e : Event) : Hub := { h with reports := e :: h.reports }

def isCancelled (h : Hub) (token : Nat) : Bool := h.tokens.getD token false

def cancel (h : Hub) (token : Nat) : Hub := { h with tokens := h.tokens.set token true }

/-! ## Making things -/

def newSeries (h : Hub) (s : Series) : SourceId × Hub :=
  (h.series.length, { h with series := h.series ++ [s] })

def newRegistry (h : Hub) : RegistryId × Hub :=
  (.alone h.registries.length, { h with registries := h.registries ++ [{}] })

def newTarget (h : Hub) (t : Target) : TargetId × Hub :=
  (h.targets.length, { h with targets := h.targets ++ [t] })

def newToken (h : Hub) : Nat × Hub := (h.tokens.length, { h with tokens := h.tokens ++ [false] })

/-! ## Waiters -/

/-- The waiter behind a target; an observer is one that nobody waits on. -/
def waiter (h : Hub) (id : TargetId) : Waiter :=
  match h.targets[id]? with
  | some (.waiter w) => w
  | _ => {}

def setWaiter (h : Hub) (id : TargetId) (w : Waiter) : Hub :=
  { h with targets := h.targets.set id (.waiter w) }

/-- Wakes a waiter. -/
def wake (h : Hub) (id : TargetId) : Hub := h.setWaiter id (h.waiter id).wake

/-! ## Writes -/

/-- The first half of a write: the series as the notified targets see it, and the reports. -/
def commit {α : Type} (h : Hub) (id : SourceId) (w : Write α) : Hub :=
  w.events.foldl report (h.setSeries id w.series)

/-- The second half of a write that notified: its writer leaves the gate. -/
def leave (h : Hub) (id : SourceId) : Hub := h.setSeries id (h.sources id).settle

/-! ## Subscriptions -/

def registry (h : Hub) : RegistryId → Registry
  | .ofSeries id => (h.sources id).registry
  | .alone id => h.registries.getD id {}

def setRegistry (h : Hub) (id : RegistryId) (r : Registry) : Hub :=
  match id with
  | .ofSeries id => h.setSeries id { h.sources id with registry := r }
  | .alone id => { h with registries := h.registries.set id r }

/-- Subscribes a target to a registry. A target that is subscribed already is reported. -/
def subscribe (h : Hub) (id : RegistryId) (target : TargetId) :
    Except SubscribeRefusal Subscription × Hub :=
  match (h.registry id).subscribe target with
  | .ok (record, r) => (.ok ⟨id, record⟩, h.setRegistry id r)
  | .error e => (.error e, h.report .duplicateSubscription)

def unsubscribe (h : Hub) (s : Subscription) : Hub :=
  h.setRegistry s.registry ((h.registry s.registry).unsubscribe s.record)

/-- Asks for `n` more notifications. -/
def request (h : Hub) (s : Subscription) (n : Nat) : Hub :=
  h.setRegistry s.registry ((h.registry s.registry).request s.record n)

/-- The notifications a subscription still waits for. -/
def requests (h : Hub) (s : Subscription) : Nat := (h.registry s.registry).requests s.record

/-- Ends all subscriptions of a set. -/
def unsubscribeAll (h : Hub) (set : Subscriptions) : Hub := set.foldl unsubscribe h

/-- Asks for `n` more notifications on every registry of a set. -/
def requestAll (h : Hub) (set : Subscriptions) (n : Nat) : Hub :=
  set.foldl (fun h s => h.request s n) h

end Hub

/-- Adds a registry to a set, unless the set covers it; the answer says whether it was added. -/
def Subscriptions.subscribe (set : Subscriptions) (h : Hub) (id : RegistryId)
    (target : TargetId) : Except SubscribeRefusal Bool × Subscriptions × Hub :=
  if set.any fun s => s.registry == id then (.ok false, set, h)
  else match h.subscribe id target with
    | (.ok s, h') => (.ok true, set ++ [s], h')
    | (.error e, h') => (.error e, set, h')

/-- Adds the registries of all series of a tree to a set, from left to right, up to the first
that refuses. -/
def Tree.subscribe (target : TargetId) (set : Subscriptions) (h : Hub) :
    Tree → Except SubscribeRefusal Unit × Subscriptions × Hub
  | .series id =>
    let (answer, set', h') := set.subscribe h (.ofSeries id) target
    (answer.map fun _ => (), set', h')
  | .op t _ => t.subscribe target set h
  | .map t _ => t.subscribe target set h
  | .zip l r =>
    match l.subscribe target set h with
    | (.ok _, set', h') => r.subscribe target set' h'
    | failed => failed
  | .carry t => t.subscribe target set h
  | .fill t _ => t.subscribe target set h
  | .refuse t =>
    match t.subscribe target set h with
    | (.ok _, set', h') => (.error .alreadySubscribed, set', h')
    | failed => failed

end LiveSeries
