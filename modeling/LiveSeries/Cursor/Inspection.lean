import LiveSeries.Cursor

/-!
# Looking into cursors

Where every part of a cursor stands. The sides of a zip stand where its last move left them. A
refusal of subscriptions does not show.
-/

namespace LiveSeries

/-- How far a part got, and the key at which it stands. -/
structure Place where
  state : Stage
  key : Option Key

/-- The parts of a cursor with their places. -/
inductive Inspection where
  | series (place : Place) (version : Nat)
  | op (inner : Inspection)
  | map (inner : Inspection)
  | zip (place : Place) (left right : Inspection)
  | carry (place : Place)
  | fill (place : Place) (otherwise : Value)

/-- The place of a behaviour in a position. -/
def Behaviour.place {σ : Type} (b : Behaviour σ) (p : σ) : Place :=
  { state := b.state p
    key := if (b.state p).isMoving then (b.key p).toOption else none }

/-- The parts of a tree in a position. -/
def Tree.inspect (sources : Sources) : (t : Tree) → t.Position → Inspection
  | .series id, p =>
    .series ((Behaviour.ofSeries (sources id)).place p) (sources id).version
  | .op t _, p => .op (t.inspect sources p)
  | .map t _, p => .map (t.inspect sources p)
  | .zip l r, (p : ZipPosition l.Position r.Position) =>
    .zip (((l.behaviour sources).zip (r.behaviour sources)).place p)
      (l.inspect sources p.left) (r.inspect sources p.right)
  | .carry t, p => .carry ((t.behaviour sources).place p)
  | .fill t otherwise, p => .fill ((t.behaviour sources).place p) otherwise
  | .refuse t, p => t.inspect sources p

end LiveSeries
