import LiveSeries.Key

/-!
# Values

The data of an entry: an integer of 64 bits, a float, a text, a truth value or a pair. Two
notions of equality live side by side: `=` of Lean, and the equality `equals` under which
entries are compared, for which a float that is not a number differs from everything.
-/

namespace LiveSeries

/-- The data of an entry. -/
inductive Value where
  | int (n : Int)
  | float (x : Float)
  | text (s : String)
  | bool (b : Bool)
  | pair (left right : Value)
  deriving DecidableEq, Inhabited

/-- A key with its value. -/
abbrev Entry := Key × Value

namespace Value

/-- The value of a key. -/
def ofKey : Key → Value
  | .int n => .int n
  | .text s => .text s

/-- Equality of data. Values of different kinds differ, pairs are equal side by side, and
floats are equal as numbers. -/
def equals : Value → Value → Bool
  | .int a, .int b => a == b
  | .float a, .float b => a == b
  | .text a, .text b => a == b
  | .bool a, .bool b => a == b
  | .pair a b, .pair c d => equals a c && equals b d
  | _, _ => false

/-- The order of two floats, absent if one is not a number. -/
def compareFloat (a b : Float) : Option Ordering :=
  if a < b then some .lt else if a == b then some .eq else if b < a then some .gt else none

/-- The order of two values, absent where they are not comparable. Of a pair the first side that
is not equal decides, and if that side is not comparable neither is the pair. -/
def compare? : Value → Value → Option Ordering
  | .int a, .int b => some (compare a b)
  | .float a, .float b => compareFloat a b
  | .text a, .text b => some (compare a b)
  | .bool a, .bool b => some (compare a b)
  | .pair a b, .pair c d =>
    match compare? a c with
    | some .eq => compare? b d
    | decided => decided
  | _, _ => none

/-- What is not a number differs from itself. -/
theorem equals_nan : equals (.float (0 / 0)) (.float (0 / 0)) = false := by decide

end Value

end LiveSeries
