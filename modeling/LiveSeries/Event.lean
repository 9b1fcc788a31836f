/-!
# Events

What a series, a registry and a gate report about themselves, in the order in which it happens.
-/

namespace LiveSeries

/-- One report. -/
inductive Event where
  /-- A version was published. -/
  | published (version : Nat)
  /-- A series was completed at a version. -/
  | completed (version : Nat)
  /-- A notification is over; so many targets were woken. -/
  | notified (woken : Nat) (force : Bool)
  /-- A target was already subscribed. -/
  | duplicateSubscription
  /-- A command was skipped: its version is not above the current one. -/
  | commandSkipped (series version current : Nat)
  /-- A command is more than one version ahead. -/
  | commandGap (series version current : Nat)
  /-- A read gave up its optimistic tries. -/
  | triesExhausted (limit : Nat)
  deriving DecidableEq, Repr

/-- How much attention an event wants. -/
inductive EventLevel where
  | trace
  | debug
  | warn
  deriving DecidableEq, Repr

namespace Event

def level : Event → EventLevel
  | .published _ | .notified _ _ => .trace
  | .completed _ | .commandSkipped _ _ _ | .triesExhausted _ => .debug
  | .duplicateSubscription | .commandGap _ _ _ => .warn

/-- The name under which an event is reported. -/
def name : Event → String
  | .published _ => "series.publish"
  | .completed _ => "series.complete"
  | .notified _ _ => "registry.notify"
  | .duplicateSubscription => "registry.subscribe.duplicate"
  | .commandSkipped _ _ _ => "series.command.skip"
  | .commandGap _ _ _ => "series.command.gap"
  | .triesExhausted _ => "gate.read.retry_limit"

end Event

end LiveSeries
