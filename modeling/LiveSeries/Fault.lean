/-!
# Faults

A fault is the abrupt end of one operation: arithmetic that leaves its range, a cursor used
before it is ready, a setting that can never work. It is no answer of the operation, and what
the operation left behind is stated where the operation is defined.
-/

namespace LiveSeries

/-- The reasons for which an operation ends abruptly. -/
inductive Fault where
  | addOverflow
  | subtractOverflow
  | multiplyOverflow
  | divideByZero
  | divideOverflow
  | remainderByZero
  | remainderOverflow
  | negateOverflow
  /-- A move was asked of a cursor that only carries configuration. -/
  | cursorNotReady
  /-- The entry of a cursor was asked for while it stands nowhere. -/
  | cursorNotPositioned
  /-- A version was published that is not above the last one. -/
  | versionNotIncreasing
  /-- A gate was made that would never try an optimistic read. -/
  | gateWithoutTries
  /-- The lock of a gate does not come free, because its holder waits for the caller. -/
  | lockHeld
  | lockTimeoutZero
  | readTriesZero
  | pageSizeZero
  /-- A function supplied by the user gave up, with its own text. -/
  | raised (text : String)
  deriving DecidableEq, Repr

/-- The text shown for a fault. -/
def Fault.message : Fault → String
  | .addOverflow => "attempt to add with overflow"
  | .subtractOverflow => "attempt to subtract with overflow"
  | .multiplyOverflow => "attempt to multiply with overflow"
  | .divideByZero => "attempt to divide by zero"
  | .divideOverflow => "attempt to divide with overflow"
  | .remainderByZero => "attempt to calculate the remainder with a divisor of zero"
  | .remainderOverflow => "attempt to calculate the remainder with overflow"
  | .negateOverflow => "attempt to negate with overflow"
  | .cursorNotReady => "cursor must be initialized before moving"
  | .cursorNotPositioned => "cursor is not positioned"
  | .versionNotIncreasing => "published versions must increase"
  | .gateWithoutTries => "read_retry_limit must be > 0"
  | .lockHeld =>
    "write lock held past its timeout; a writer is stuck or suspended while holding it"
  | .lockTimeoutZero => "lock timeout must be > 0"
  | .readTriesZero => "read retry limit must be > 0"
  | .pageSizeZero => "snapshot chunk must be > 0"
  | .raised text => text

/-! ## One computation after another -/

theorem ok_bind {ε α β : Type} (a : α) (f : α → Except ε β) : (Except.ok a >>= f) = f a := rfl

theorem bind_eq_ok_iff {ε α β : Type} {x : Except ε α} {f : α → Except ε β} {b : β} :
    (x >>= f) = .ok b ↔ ∃ a, x = .ok a ∧ f a = .ok b := by
  cases x with
  | error e => simp [bind, Except.bind]
  | ok a => simp [bind, Except.bind]

end LiveSeries
