import LiveSeries.Cursor.Stage
import LiveSeries.Operation
import LiveSeries.Series

/-!
# The behaviour of cursors

A cursor walks over a sequence of entries in the order of their keys. Its behaviour is a record
of what it answers in each of its positions, for the sources as they are now. Every combinator
makes a behaviour from those of its parts, and touches nothing of them but their record:

* `Behaviour.ofSeries` walks over the entries of a series;
* `Behaviour.op` and `Behaviour.map` change the values on the way;
* `Behaviour.carry` and `Behaviour.fill` also have values between the keys;
* `Behaviour.zip` walks over the keys at which both of its sides have a value.

A move that fails or faults leaves the cursor where it was.
-/

namespace LiveSeries

/-- The moves of a cursor. -/
inductive Motion where
  | first
  | last
  | next
  | previous
  | find (key : Key) (lookup : Lookup)
  deriving DecidableEq

/-- What came of a move: the position afterwards, and whether the cursor landed at an entry. -/
structure Move (σ : Type) where
  position : σ
  landed : Eval Bool

/-- What a cursor with positions in `σ` does. -/
structure Behaviour (σ : Type) where
  /-- The position of a cursor that is ready and stands nowhere. -/
  fresh : σ
  state : σ → Stage
  /-- Gives the position up. -/
  reset : σ → σ
  /-- Gives the position up, and readiness with it. -/
  dispose : σ → σ
  move : Motion → σ → Move σ
  /-- The key at which the cursor stands. -/
  key : σ → Except Fault Key
  /-- The value at which the cursor stands. -/
  value : σ → Eval Value
  /-- The value at a key, wherever the cursor stands. -/
  get? : Key → Eval (Option Value)
  /-- The entry nearest to a key under a lookup, wherever the cursor stands. -/
  find? : Key → Lookup → Eval (Option Entry)
  /-- There are values between the keys. -/
  continuous : Bool
  /-- No source will change any more. -/
  completed : Bool
  /-- No walk has more entries than this. -/
  extent : Nat

namespace Behaviour

variable {σ τ : Type}

/-- The entry at which the cursor stands. -/
def current (b : Behaviour σ) (p : σ) : Eval Entry := do
  let k ← .lift (b.key p)
  let v ← b.value p
  return (k, v)

/-- The entry nearest to a key, found by sending out a fresh cursor. -/
def probe (b : Behaviour σ) (k : Key) (lookup : Lookup) : Eval (Option Entry) := do
  let m := b.move (.find k lookup) b.fresh
  if ← m.landed then some <$> b.current m.position else return none

end Behaviour

/-! ## Walking over a series -/

/-- Where a cursor over a series stands. -/
structure SeriesPosition where
  state : Stage := .unready
  current : Option Entry := none

namespace SeriesPosition

/-- The key from which the next move starts. -/
def key? (p : SeriesPosition) : Option Key :=
  if p.state.isMoving then p.current.map (·.1) else none

/-- Stands at an entry, if there is one. -/
def land (p : SeriesPosition) (entry : Option Entry) : Move SeriesPosition :=
  match entry with
  | some e => ⟨⟨.moving, some e⟩, pure true⟩
  | none => ⟨p, pure false⟩

end SeriesPosition

namespace Behaviour

/-- The entry to which a move over a series leads. -/
def destination (s : Series) (motion : Motion) (from? : Option Key) : Option Entry :=
  match motion, from? with
  | .first, _ | .next, none => s.first?
  | .last, _ | .previous, none => s.last?
  | .next, some k => s.nextAfter? k
  | .previous, some k => s.previousBefore? k
  | .find k lookup, _ => s.find? k lookup

/-- The cursor over a series. -/
def ofSeries (s : Series) : Behaviour SeriesPosition where
  fresh := ⟨.ready, none⟩
  state p := p.state
  reset p := ⟨p.state.reset, none⟩
  dispose _ := ⟨.unready, none⟩
  move motion p :=
    if p.state.isReady then p.land (destination s motion p.key?)
    else ⟨p, .fault .cursorNotReady⟩
  key p := match p.current with
    | some e => .ok e.1
    | none => .error .cursorNotPositioned
  value p := match p.current with
    | some e => pure e.2
    | none => .fault .cursorNotPositioned
  get? k := pure (s.get? k)
  find? k lookup := pure (s.find? k lookup)
  continuous := false
  completed := s.isCompleted
  extent := s.size

/-! ## Changing values -/

variable {σ τ : Type}

/-- The same walk with an operation applied to every value. -/
def op (b : Behaviour σ) (o : Operation) : Behaviour σ :=
  { b with
    value := fun p => b.value p >>= o.apply
    get? := fun k => do
      match ← b.get? k with
      | some v => some <$> o.apply v
      | none => return none
    find? := fun k lookup => do
      match ← b.find? k lookup with
      | some (found, v) => (fun w => some (found, w)) <$> o.apply v
      | none => return none }

/-- The same walk with a function of key and value in place of every value. -/
def map (b : Behaviour σ) (f : Selector) : Behaviour σ :=
  { b with
    value := fun p => do
      let k ← .lift (b.key p)
      let v ← b.value p
      .call (f k v)
    get? := fun k => do
      match ← b.get? k with
      | some v => some <$> .call (f k v)
      | none => return none
    find? := fun k lookup => do
      match ← b.find? k lookup with
      | some (found, v) => (fun w => some (found, w)) <$> .call (f found v)
      | none => return none }

/-! ## Values between the keys -/

/-- Carries the last value forward to every later key. -/
def carry (b : Behaviour σ) : Behaviour σ :=
  { b with
    get? := fun k => do
      match ← b.find? k .le with
      | some e => return some e.2
      | none => return none
    continuous := true }

/-- Has a fixed value at every key that the inner cursor does not hold. -/
def fill (b : Behaviour σ) (otherwise : Value) : Behaviour σ :=
  { b with
    get? := fun k => do return some ((← b.get? k).getD otherwise)
    continuous := true }

/-- The same walk, which counts as having no values between the keys. -/
def discrete (b : Behaviour σ) : Behaviour σ :=
  { b with
    find? := b.probe
    continuous := false }

end Behaviour

/-! ## Walking over two cursors at once -/

/-- Where a zip stands: where its sides stood when it last moved, and the pair it found there. -/
structure ZipPosition (σ τ : Type) where
  left : σ
  right : τ
  state : Stage := .unready
  current : Option (Key × Value × Value) := none

namespace ZipPosition

variable {σ τ : Type}

/-- The key from which the next move starts. -/
def key? (p : ZipPosition σ τ) : Option Key :=
  if p.state.isMoving then p.current.map (·.1) else none

end ZipPosition

/-- The way in which a zip looks for its next key. -/
structure Search where
  /-- The sides start with this move. -/
  start : Motion
  forward : Bool
  /-- Only the first candidate counts. -/
  exact : Bool := false

/-- The search of a move from a position. -/
def Motion.search (motion : Motion) (from? : Option Key) : Search :=
  match motion, from? with
  | .first, _ | .next, none => ⟨.first, true, false⟩
  | .last, _ | .previous, none => ⟨.last, false, false⟩
  | .next, some k => ⟨.find k .gt, true, false⟩
  | .previous, some k => ⟨.find k .lt, false, false⟩
  | .find k lookup, _ => ⟨.find k lookup, !lookup.isBackward, lookup == .eq⟩

/-- One side of a search: where it stands, and whether its last move landed. -/
structure Side (σ : Type) where
  position : σ
  landed : Bool

namespace Behaviour

variable {σ τ : Type}

/-- Makes a move on a side. -/
def advance (b : Behaviour σ) (motion : Motion) (p : σ) : Eval (Side σ) := do
  let m := b.move motion p
  return ⟨m.position, ← m.landed⟩

/-- The next key at which both sides may have a value: of two keys the one that comes first in
the direction of the search, and the key of a single side if the other one has values between
its keys. -/
def candidate (l : Behaviour σ) (r : Behaviour τ) (forward : Bool) (a : Side σ) (b : Side τ) :
    Except Fault (Option Key) :=
  match a.landed, b.landed with
  | true, true => do
    let k ← l.key a.position
    let m ← r.key b.position
    return some (if (if forward then decide (k ≤ m) else decide (m ≤ k)) then k else m)
  | true, false => if r.continuous then some <$> l.key a.position else return none
  | false, true => if l.continuous then some <$> r.key b.position else return none
  | false, false => return none

/-- The side stands at a key. -/
def standsAt (b : Behaviour σ) (side : Side σ) (k : Key) : Except Fault Bool :=
  if side.landed then do return (← b.key side.position) == k else return false

/-- The value of a side at a key: its own if it stands there, else one between its keys. -/
def resolve (b : Behaviour σ) (side : Side σ) (stands : Bool) (k : Key) : Eval (Option Value) :=
  if stands then some <$> b.value side.position
  else if b.continuous then b.get? k
  else return none

/-- Tries candidates until both sides have a value. Between two candidates each side that stands
at the first makes a step, so there are no more candidates than entries of both sides. -/
def seek (l : Behaviour σ) (r : Behaviour τ) (search : Search) :
    Nat → Side σ → Side τ → Eval (Option (ZipPosition σ τ))
  | 0, _, _ => return none
  | tries + 1, a, b => do
    match ← Eval.lift (candidate l r search.forward a b) with
    | none => return none
    | some k =>
      let leftStands ← .lift (l.standsAt a k)
      let rightStands ← .lift (r.standsAt b k)
      let leftValue ← l.resolve a leftStands k
      let rightValue ← r.resolve b rightStands k
      match leftValue, rightValue with
      | some v, some w => return some ⟨a.position, b.position, .moving, some (k, v, w)⟩
      | _, _ =>
        if search.exact then return none
        else
          let step : Motion := if search.forward then .next else .previous
          let a' ← if leftStands then l.advance step a.position else pure a
          let b' ← if rightStands then r.advance step b.position else pure b
          seek l r search tries a' b'

/-- The whole search of a zip: both sides start from where they stand. -/
def searchFrom (l : Behaviour σ) (r : Behaviour τ) (search : Search) (p : ZipPosition σ τ) :
    Eval (Option (ZipPosition σ τ)) := do
  let a ← l.advance search.start p.left
  let b ← r.advance search.start p.right
  seek l r search (l.extent + r.extent + 1) a b

/-- A move of a zip. The sides move only if the search succeeds. -/
def moveZip (l : Behaviour σ) (r : Behaviour τ) (motion : Motion) (p : ZipPosition σ τ) :
    Move (ZipPosition σ τ) :=
  if p.state.isReady then
    let found := searchFrom l r (motion.search p.key?) p
    match found.outcome with
    | .ok (some p') => ⟨p', ⟨.ok true, found.calls⟩⟩
    | .ok none => ⟨p, ⟨.ok false, found.calls⟩⟩
    | .error e => ⟨p, ⟨.error e, found.calls⟩⟩
  else ⟨p, .fault .cursorNotReady⟩

/-- The pair of two point lookups; the right one is asked only if the left one answers. -/
def getBoth (l : Behaviour σ) (r : Behaviour τ) (k : Key) : Eval (Option Value) := do
  match ← l.get? k with
  | none => return none
  | some v =>
    match ← r.get? k with
    | none => return none
    | some w => return some (.pair v w)

/-- The cursor over two cursors. Its values are pairs. -/
def zip (l : Behaviour σ) (r : Behaviour τ) : Behaviour (ZipPosition σ τ) :=
  let walk : Behaviour (ZipPosition σ τ) :=
    { fresh := ⟨l.fresh, r.fresh, .ready, none⟩
      state := fun p => p.state
      reset := fun p => ⟨l.reset p.left, r.reset p.right, p.state.reset, none⟩
      dispose := fun p => ⟨l.dispose p.left, r.dispose p.right, .unready, none⟩
      move := moveZip l r
      key := fun p => match p.current with
        | some (k, _) => .ok k
        | none => .error .cursorNotPositioned
      value := fun p => match p.current with
        | some (_, v, w) => pure (.pair v w)
        | none => .fault .cursorNotPositioned
      get? := getBoth l r
      find? := fun _ _ => return none
      continuous := l.continuous && r.continuous
      completed := l.completed && r.completed
      extent := l.extent + r.extent }
  { walk with find? := walk.probe }

end Behaviour

end LiveSeries
