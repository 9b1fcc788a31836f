/-!
# Backoff

The escalation of a wait for a lock: short busy rounds first, then yielding, then sleeping.
Only the number of rounds is kept; it decides what the next round does.
-/

namespace LiveSeries

/-- The rounds waited so far. -/
structure Backoff where
  count : Nat := 0
  deriving DecidableEq, Repr

namespace Backoff

/-- The round from which on a wait sleeps. -/
def parkingRound : Nat := 20

/-- The greatest count that is kept. -/
def greatestCount : Nat := 0xffffffff

/-- The wait stopped being busy. -/
def isParking (b : Backoff) : Bool := parkingRound ≤ b.count

/-- One more round. -/
def spin (b : Backoff) : Backoff := ⟨min (b.count + 1) greatestCount⟩

/-- The first round again. -/
def reset (_ : Backoff) : Backoff := ⟨0⟩

end Backoff

end LiveSeries
