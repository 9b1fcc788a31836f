import LiveSeries.Hub
import LiveSeries.LoadQueue
import LiveSeries.Number.Shortest
import LiveSeries.Text.Quoted
import LiveSeries.View

/-!
# Descriptions

The texts under which objects show themselves: the name of their kind, and what of their state
is worth seeing, between braces. Texts inside are quoted, floats have the fewest digits that
read back.
-/

namespace LiveSeries

namespace Describe

/-! ## Numbers, keys and values -/

/-- Digits with a point among them, or zeros around them. -/
def positional (digits : List Char) (exponent : Int) : List Char :=
  let before : Int := digits.length + exponent
  if 0 ≤ exponent then digits ++ List.replicate exponent.toNat '0' ++ ['.', '0']
  else if 0 < before then digits.take before.toNat ++ '.' :: digits.drop before.toNat
  else ['0', '.'] ++ List.replicate (-before).toNat '0' ++ digits

/-- Digits with a point behind the first one, and a power of ten. -/
def scientific (digits : List Char) (exponent : Int) : List Char :=
  let power := exponent + digits.length - 1
  let shown := match digits with
    | first :: second :: rest => first :: '.' :: second :: rest
    | single => single
  shown ++ 'e' :: (toString power).toList

/-- A decimal without zeros at its end. -/
def stripZeros : Nat → Nat → Int → Nat × Int
  | 0, n, e => (n, e)
  | steps + 1, n, e => if n % 10 = 0 && n ≠ 0 then stripZeros steps (n / 10) (e + 1) else (n, e)

/-- A float: positional from one ten-thousandth on and below ten to the sixteenth, and with a
power of ten otherwise. -/
def float (x : Float) : String :=
  match Dyadic.ofFloat? x with
  | none => if x.isNaN then "NaN" else if x < 0 then "-inf" else "inf"
  | some d =>
    let sign := if d.negative then ['-'] else []
    if d.significand = 0 then String.ofList (sign ++ ['0', '.', '0'])
    else
      let shortest := Shortest.decimal d
      let (n, exponent) := stripZeros 20 shortest.digits shortest.exponent
      let digits := Nat.toDigits 10 n
      let point : Int := exponent + digits.length
      let body := if -4 < point && point ≤ 16 then positional digits exponent
        else scientific digits exponent
      String.ofList (sign ++ body)

def bool (b : Bool) : String := if b then "true" else "false"

def key : Key → String
  | .int n => toString n
  | .text s => Quoted.quote s

def value : Value → String
  | .int n => toString n
  | .float x => float x
  | .text s => Quoted.quote s
  | .bool b => bool b
  | .pair l r => "(" ++ value l ++ ", " ++ value r ++ ")"

/-! ## Objects -/

/-- The name of a kind with fields between braces; hidden fields leave two dots. -/
def object (kind : String) (fields : List (String × String)) (hidden : Bool) : String :=
  let shown := fields.map fun (name, text) => name ++ ": " ++ text
  let dots := if hidden then [".."] else []
  kind ++ " \x7b " ++ ", ".intercalate (shown ++ dots) ++ " \x7d"

/-- Something that may be absent. -/
def option : Option String → String
  | some s => "Some(" ++ s ++ ")"
  | none => "None"

def series (s : Series) : String :=
  object "Series"
    [("version", toString s.version), ("completed", bool s.isCompleted),
      ("subscribers", toString s.subscribers)] true

def registry (r : Registry) : String :=
  object "UpdateRegistry" [("subscribers", toString r.size)] false

def subscription (h : Hub) (s : Subscription) : String :=
  object "Subscription" [("requests", toString (h.requests s))] true

def subscriptions (h : Hub) (set : Subscriptions) : String :=
  object "SubscriptionSet"
    [("subscriptions", "[" ++ ", ".intercalate (set.map (subscription h)) ++ "]")] false

def loadQueue (q : LoadQueue) : String :=
  object "LoadBuffer"
    [("id", "SeriesId(" ++ toString q.id ++ ")"),
      ("pending", option (q.pending.map fun kept => toString kept.length))] true

/-- An operation. A function shows nothing of itself. -/
def operation : Operation → Option String
  | .arith op operand =>
    some (object "Scalar" [("op", op.name), ("operand", value operand)] false)
  | .negate => some "Negate"
  | .compare r operand =>
    some (object "Compare" [("op", r.name), ("operand", value operand)] false)
  | .function _ => none

/-- A cursor, from the outside in. A refusal of subscriptions does not show. -/
def cursor : (t : Tree) → t.Position → String
  | .series _, (p : SeriesPosition) =>
    object "SeriesCursor"
      [("state", p.state.name),
        ("current", option (p.current.map fun (k, v) => "(" ++ key k ++ ", " ++ value v ++ ")"))]
      true
  | .op t o, p =>
    match operation o with
    | some text => object "Op" [("inner", cursor t p), ("op", text)] false
    | none => object "Op" [("inner", cursor t p)] true
  | .map t _, p => object "Map" [("inner", cursor t p)] true
  | .zip l r, (p : ZipPosition l.Position r.Position) =>
    object "Zip"
      [("left", cursor l p.left), ("right", cursor r p.right), ("state", p.state.name)] true
  | .carry t, p => object "Repeat" [("inner", cursor t p)] false
  | .fill t v, p => object "Fill" [("inner", cursor t p), ("value", value v)] false
  | .refuse t, p => cursor t p

end Describe

end LiveSeries
