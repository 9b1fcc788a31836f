import LiveSeries.Fault

/-!
# Integers of a fixed width

Arithmetic on integers that must fit a width. Every operation computes the exact integer and
keeps it when it fits; otherwise it faults, so a result is never reduced modulo a power of two.
Division truncates toward zero and the remainder takes the sign of the dividend.
-/

namespace LiveSeries

/-- A width, with or without a sign. -/
structure IntKind where
  signed : Bool
  bits : Nat
  deriving DecidableEq, Repr

namespace IntKind

/-- The signed integers of 64 bits: keys and integer values. -/
def int64 : IntKind := ⟨true, 64⟩

/-- The least integer of the kind. -/
def least (t : IntKind) : Int := if t.signed then -(Nat.pow 2 (t.bits - 1)) else 0

/-- The greatest integer of the kind. -/
def greatest (t : IntKind) : Int :=
  if t.signed then Nat.pow 2 (t.bits - 1) - 1 else Nat.pow 2 t.bits - 1

/-- The integers that the kind holds. -/
def Holds (t : IntKind) (n : Int) : Prop := t.least ≤ n ∧ n ≤ t.greatest

instance (t : IntKind) (n : Int) : Decidable (t.Holds n) :=
  inferInstanceAs (Decidable (_ ∧ _))

/-- The exact result if the kind holds it, else the fault. -/
def keep (t : IntKind) (fault : Fault) (n : Int) : Except Fault Int :=
  if t.Holds n then .ok n else .error fault

def add (t : IntKind) (a b : Int) : Except Fault Int := t.keep .addOverflow (a + b)

def subtract (t : IntKind) (a b : Int) : Except Fault Int := t.keep .subtractOverflow (a - b)

def multiply (t : IntKind) (a b : Int) : Except Fault Int := t.keep .multiplyOverflow (a * b)

def negate (t : IntKind) (a : Int) : Except Fault Int := t.keep .negateOverflow (-a)

/-- Division toward zero. -/
def divide (t : IntKind) (a b : Int) : Except Fault Int :=
  if b = 0 then .error .divideByZero else t.keep .divideOverflow (a.tdiv b)

/-- The remainder of `divide`. It faults together with the quotient, also where the remainder
itself would fit. -/
def remainder (t : IntKind) (a b : Int) : Except Fault Int :=
  if b = 0 then .error .remainderByZero
  else if t.Holds (a.tdiv b) then .ok (a.tmod b) else .error .remainderOverflow

theorem keep_eq_ok_iff {t : IntKind} {fault : Fault} {n m : Int} :
    t.keep fault n = .ok m ↔ t.Holds n ∧ n = m := by
  unfold keep
  split <;> simp_all

theorem keep_eq_error_iff {t : IntKind} {fault e : Fault} {n : Int} :
    t.keep fault n = .error e ↔ ¬ t.Holds n ∧ fault = e := by
  unfold keep
  split <;> simp_all

end IntKind

end LiveSeries
