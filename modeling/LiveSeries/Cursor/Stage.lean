/-!
# The state of a cursor

A cursor is a configuration only, or ready to move, or it stands at an entry.
-/

namespace LiveSeries

/-- How far a cursor got, in this order. -/
inductive Stage where
  /-- It carries configuration only. -/
  | unready
  /-- It can move, and stands nowhere. -/
  | ready
  /-- It stands at an entry. -/
  | moving
  deriving DecidableEq, Repr, Inhabited

namespace Stage

/-- The text shown for a state. -/
def name : Stage → String
  | .unready => "Uninitialized"
  | .ready => "Initialized"
  | .moving => "Moving"

/-- Its place in the order. -/
def rank : Stage → Nat
  | .unready => 0
  | .ready => 1
  | .moving => 2

/-- The order of two states. -/
def compare (a b : Stage) : Ordering := Ord.compare a.rank b.rank

/-- It can move. -/
def isReady : Stage → Bool
  | .unready => false
  | .ready | .moving => true

/-- It stands at an entry. -/
def isMoving : Stage → Bool
  | .moving => true
  | .unready | .ready => false

/-- The state after the position was given up. -/
def reset : Stage → Stage
  | .unready => .unready
  | .ready | .moving => .ready

end Stage

end LiveSeries
