import LiveSeries.Operation

/-!
# Named functions

The functions that a session can ask for by name where a cursor takes one from its user. Each is
defined on the kinds of values it makes sense for, and faults on others.
-/

namespace LiveSeries

/-- The fault of a function on a kind of value that it is not defined for. -/
def unsupported : Fault := .raised "unsupported value"

/-- Functions of a value. -/
inductive ValueFunction where
  | id
  | double
  | square
  | isEven
  | toFloat
  /-- Faults on odd integers. -/
  | boomOdd
  | length
  | not
  | fst
  | snd
  | swap
  deriving DecidableEq, Repr

/-- Two of a number. -/
def Value.two : Value → Value
  | .float _ => .float 2
  | _ => .int 2

def ValueFunction.apply : ValueFunction → Value → Except Fault Value
  | .id, v => .ok v
  | .double, v => Arith.multiply.apply v v.two
  | .square, v => Arith.multiply.apply v v
  | .isEven, .int n => .ok (.bool (n % 2 == 0))
  | .toFloat, .int n => .ok (.float (Float.ofInt n))
  | .boomOdd, .int n =>
    if n % 2 = 0 then .ok (.int n) else .error (.raised ("boom " ++ toString n))
  | .length, .text s => .ok (.int s.length)
  | .not, .bool b => .ok (.bool !b)
  | .fst, .pair a _ => .ok a
  | .snd, .pair _ b => .ok b
  | .swap, .pair a b => .ok (.pair b a)
  | _, _ => .error unsupported

/-- Functions of a key and a value. -/
inductive EntryFunction where
  | key
  | value
  | pair
  | sum
  /-- The text of both. -/
  | render
  deriving DecidableEq, Repr

/-- A key as it stands in a text. -/
def Key.plain : Key → String
  | .int n => toString n
  | .text s => s

/-- A value as it stands in a text, if it has one. -/
def Value.plain? : Value → Option String
  | .int n => some (toString n)
  | .text s => some s
  | .bool b => some (if b then "true" else "false")
  | .float _ | .pair _ _ => none

def EntryFunction.apply : EntryFunction → Selector
  | .key, k, _ => .ok (.ofKey k)
  | .value, _, v => .ok v
  | .pair, k, v => .ok (.pair (.ofKey k) v)
  | .sum, k, v => Arith.add.apply (.ofKey k) v
  | .render, k, v =>
    match v.plain? with
    | some s => .ok (.text (k.plain ++ ":" ++ s))
    | none => .error unsupported

/-- Functions of two values. -/
inductive PairFunction where
  | arith (op : Arith)
  | left
  | right
  | pair
  | lt
  deriving DecidableEq, Repr

def PairFunction.apply : PairFunction → Value → Value → Except Fault Value
  | .arith op, a, b => op.apply a b
  | .left, a, _ => .ok a
  | .right, _, b => .ok b
  | .pair, a, b => .ok (.pair a b)
  | .lt, a, b => .ok (.bool (Relation.lt.holds a b))

/-- A function of two values on the pairs of a zip. -/
def PairFunction.selector (f : PairFunction) : Selector
  | _, .pair a b => f.apply a b
  | _, _ => .error unsupported

end LiveSeries
