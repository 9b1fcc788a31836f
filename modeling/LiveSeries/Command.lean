import LiveSeries.Series

/-!
# Replicated commands

A command is a mutation of a series that was made elsewhere, with the version it was published
under there. A command that is not ahead of the series was seen before and is skipped; one that
is more than one version ahead is applied all the same, and reported. Completion has no version
of its own and is never skipped for its version.
-/

namespace LiveSeries

/-- A mutation made elsewhere. -/
inductive Command where
  | set (key : Key) (value : Value)
  | append (entries : List Entry) (option : OverlapRule)
  | remove (key : Key) (lookup : Lookup)
  | complete
  deriving DecidableEq

/-- A command with its address and its version. -/
structure StampedCommand where
  /-- The number of the series in the stream of commands. -/
  series : Nat
  version : Nat
  command : Command
  deriving DecidableEq

/-- What became of a command. -/
inductive Outcome where
  /-- It was published under this version. -/
  | applied (version : Nat)
  /-- It was seen before. -/
  | skipped
  /-- It waits for a load to finish. -/
  | queued
  /-- It completed the series. -/
  | completed
  deriving DecidableEq, Repr

/-- The text shown for an outcome. -/
def Outcome.label : Outcome → String
  | .applied version => "Applied(" ++ toString version ++ ")"
  | .skipped => "Skipped"
  | .queued => "Buffered"
  | .completed => "Completed"

namespace Series

/-- A write with reports in front. -/
def after {α : Type} (events : List Event) (w : Write α) : Write α :=
  { w with events := events ++ w.events }

/-- A versioned mutation as the outcome of a command. -/
def asApplied {α : Type} (version : Nat) (w : Write α) : Write Outcome :=
  { result := w.result.map fun _ => .applied version
    series := w.series
    events := w.events
    notice := w.notice }

/-- The mutation of a command that is due. -/
def perform (s : Series) (version : Nat) : Command → Write Outcome
  | .set k v => asApplied version <|
    s.writeAs version fun store => .ok ((), some (store.insert k v).2)
  | .append entries option =>
    if increases entries then
      asApplied version <| s.writeAs version fun store => store.append entries option
    else { result := .error (.refused .outOfOrder), series := s }
  | .remove k lookup => asApplied version <|
    s.writeAs version fun store => .ok ((), some (store.removeMany k lookup).2)
  | .complete =>
    let w := s.complete
    { result := w.result.map fun first => if first then .completed else .skipped
      series := w.series
      events := w.events
      notice := w.notice }

/-- Applies a command. After the last version there is no next one to compare with, which is a
fault. -/
def apply (s : Series) (c : StampedCommand) : Write Outcome :=
  let current := s.version
  if c.version ≤ current ∧ c.command ≠ .complete then
    { result := .ok .skipped
      series := s
      events := [.commandSkipped c.series c.version current] }
  else if current = Gate.lastVersion then
    { result := .error (.fault .addOverflow), series := s }
  else
    let gap : List Event :=
      if current + 1 < c.version then [.commandGap c.series c.version current] else []
    after gap (s.perform c.version c.command)

end Series

end LiveSeries
