import LiveSeries.Cursor

/-!
# Views

A view shows what a cursor would walk over as a series that cannot be changed. Every question
is answered by a fresh cursor, so the position of the cursor it was made from does not matter.
-/

namespace LiveSeries

/-- A read-only series made of a cursor. -/
structure View where
  factory : Cursor

namespace View

variable (sources : Sources)

/-- A fresh cursor over the view. -/
def cursor (v : View) : Cursor := v.factory.fresh sources

def get? (v : View) (k : Key) : Eval (Option Value) := v.factory.get? sources k

def find? (v : View) (k : Key) (lookup : Lookup) : Eval (Option Entry) :=
  v.factory.find? sources k lookup

/-- The entry a cursor moves to, with the cursor afterwards. -/
def step (c : Cursor) (motion : Motion) : Cursor × Eval (Option Entry) :=
  let (c', landed) := c.move sources motion
  (c', do if ← landed then some <$> c'.current sources else return none)

def first? (v : View) : Eval (Option Entry) := (step sources (v.cursor sources) .first).2

def last? (v : View) : Eval (Option Entry) := (step sources (v.cursor sources) .last).2

def isEmpty (v : View) : Eval Bool := Option.isNone <$> v.first? sources

def isCompleted (v : View) : Bool := v.factory.isCompleted sources

/-- The entries that a cursor reaches by repeating a move, at most as many as given. -/
def walk (motion : Motion) : Nat → Cursor → Eval (List Entry)
  | 0, _ => return []
  | steps + 1, c => do
    let (c', found) := step sources c motion
    match ← found with
    | none => return []
    | some e => return e :: (← walk motion steps c')

/-- All entries. A walk has no more entries than the extent of its cursor; one move more finds
its end. -/
def entries (v : View) : Eval (List Entry) :=
  walk sources .next (((v.cursor sources).behaviour sources).extent + 1) (v.cursor sources)

/-- How many entries there are; all of them are computed. -/
def count (v : View) : Eval Nat := List.length <$> v.entries sources

end View

end LiveSeries
