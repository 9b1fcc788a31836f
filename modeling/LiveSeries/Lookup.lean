import LiveSeries.Key

/-!
# Lookups

A lookup says which keys answer a question about one key: the key itself, or the keys on one
side of it, with or without it.
-/

namespace LiveSeries

/-- How a key is looked for. -/
inductive Lookup where
  | eq
  | lt
  | le
  | ge
  | gt
  deriving DecidableEq, Repr

namespace Lookup

/-- The lookups that answer with the greatest key rather than the least. -/
def isBackward : Lookup → Bool
  | .lt | .le => true
  | .eq | .ge | .gt => false

/-- `l.Admits k x` says that the key `x` answers the lookup `l` of `k`. -/
def Admits : Lookup → Key → Key → Prop
  | .eq, k, x => x = k
  | .lt, k, x => x < k
  | .le, k, x => x ≤ k
  | .ge, k, x => k ≤ x
  | .gt, k, x => k < x

instance (l : Lookup) (k x : Key) : Decidable (l.Admits k x) := by
  cases l <;> unfold Admits <;> infer_instance

end Lookup

end LiveSeries
