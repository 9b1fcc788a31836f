import LiveSeries.Fault

/-!
# Errors of a series

Why a mutation or a command was refused. A refused operation changes nothing.
-/

namespace LiveSeries

/-- The reasons for which a series refuses. -/
inductive Refusal where
  | completed
  | keyExists
  | outOfOrder
  | overlap
  /-- A command's version is not above the current one at the moment it is written. -/
  | staleVersion (version current : Nat)
  /-- A command for one series was delivered to another. -/
  | wrongSeries (expected actual : Nat)
  deriving DecidableEq, Repr

/-- The text shown for the number of a series. -/
def seriesLabel (id : Nat) : String := "#" ++ toString id

/-- The text shown for a refusal. -/
def Refusal.message : Refusal → String
  | .completed => "series is completed"
  | .keyExists => "key already exists"
  | .outOfOrder => "key is out of order"
  | .overlap => "appended entries overlap existing data"
  | .staleVersion version current =>
    "command version " ++ toString version ++ " is behind series version " ++ toString current
  | .wrongSeries expected actual =>
    "command for series " ++ seriesLabel actual ++ " delivered to series " ++ seriesLabel expected

/-- Why an operation on a series gave no result: it was refused, or it faulted. -/
inductive Failure where
  | refused (e : Refusal)
  | fault (f : Fault)
  deriving DecidableEq, Repr

end LiveSeries
