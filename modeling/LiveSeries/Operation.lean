import LiveSeries.Eval
import LiveSeries.Number.Bounded
import LiveSeries.Number.Remainder
import LiveSeries.Value

/-!
# Operations on values

Arithmetic and comparison against a constant, negation, and functions supplied by the user.
Integers are kept in their width, floats follow their own rules, and values of other kinds take
no part in arithmetic.
-/

namespace LiveSeries

/-- Arithmetic of a value against an operand. The reversed forms put the operand on the left. -/
inductive Arith where
  | add
  | subtract
  | subtractReverse
  | multiply
  | divide
  | divideReverse
  | modulo
  | moduloReverse
  deriving DecidableEq, Repr

namespace Arith

def name : Arith → String
  | .add => "Add"
  | .subtract => "Subtract"
  | .subtractReverse => "SubtractReverse"
  | .multiply => "Multiply"
  | .divide => "Divide"
  | .divideReverse => "DivideReverse"
  | .modulo => "Modulo"
  | .moduloReverse => "ModuloReverse"

/-- On integers of a width. -/
def onInt (t : IntKind) (op : Arith) (value operand : Int) : Except Fault Int :=
  match op with
  | .add => t.add value operand
  | .subtract => t.subtract value operand
  | .subtractReverse => t.subtract operand value
  | .multiply => t.multiply value operand
  | .divide => t.divide value operand
  | .divideReverse => t.divide operand value
  | .modulo => t.remainder value operand
  | .moduloReverse => t.remainder operand value

/-- On floats. -/
def onFloat (op : Arith) (value operand : Float) : Float :=
  match op with
  | .add => value + operand
  | .subtract => value - operand
  | .subtractReverse => operand - value
  | .multiply => value * operand
  | .divide => value / operand
  | .divideReverse => operand / value
  | .modulo => floatRemainder value operand
  | .moduloReverse => floatRemainder operand value

/-- The fault of arithmetic on values that are not numbers of one kind. -/
def mismatch : Fault := .raised "unsupported operand"

/-- On values. -/
def apply (op : Arith) (value operand : Value) : Except Fault Value :=
  match value, operand with
  | .int a, .int b => (op.onInt .int64 a b).map .int
  | .float a, .float b => .ok (.float (op.onFloat a b))
  | _, _ => .error mismatch

end Arith

/-- The negative of a value. -/
def Value.negate : Value → Except Fault Value
  | .int n => (IntKind.int64.negate n).map .int
  | .float x => .ok (.float (-x))
  | _ => .error Arith.mismatch

/-- Relations of a value to an operand. -/
inductive Relation where
  | eq
  | ne
  | lt
  | le
  | gt
  | ge
  deriving DecidableEq, Repr

namespace Relation

def name : Relation → String
  | .eq => "Eq"
  | .ne => "Ne"
  | .lt => "Lt"
  | .le => "Le"
  | .gt => "Gt"
  | .ge => "Ge"

/-- The relation holds between two values. Of values that are not comparable only `ne` holds,
and `ne` holds exactly where `eq` does not. -/
def holds (r : Relation) (value operand : Value) : Bool :=
  match r with
  | .eq => value.equals operand
  | .ne => !value.equals operand
  | .lt => value.compare? operand == some .lt
  | .le => value.compare? operand == some .lt || value.compare? operand == some .eq
  | .gt => value.compare? operand == some .gt
  | .ge => value.compare? operand == some .gt || value.compare? operand == some .eq

end Relation

/-- An operation on one value. -/
inductive Operation where
  | arith (op : Arith) (operand : Value)
  | negate
  | compare (r : Relation) (operand : Value)
  /-- A function supplied by the user. -/
  | function (f : Value → Except Fault Value)

namespace Operation

/-- Applies the operation. -/
def apply (op : Operation) (v : Value) : Eval Value :=
  match op with
  | .arith op operand => .lift (op.apply v operand)
  | .negate => .lift v.negate
  | .compare r operand => pure (.bool (r.holds v operand))
  | .function f => .call (f v)

end Operation

/-- A function of a key and a value, supplied by the user. -/
abbrev Selector := Key → Value → Except Fault Value

end LiveSeries
