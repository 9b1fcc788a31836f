import LiveSeries.Cursor.Behaviour

/-!
# Cursors

A cursor is a tree of combinators over series, with a position in it. The tree says what is
read and never changes; the position says where the cursor stands and changes with every move.
Cursors are values: a copy moves on its own.
-/

namespace LiveSeries

/-- The series a tree may read, as they are now. -/
abbrev Sources := SourceId → Series

/-- What a cursor reads. -/
inductive Tree where
  | series (id : SourceId)
  /-- An operation applied to every value. -/
  | op (inner : Tree) (o : Operation)
  /-- A function of key and value in place of every value. -/
  | map (inner : Tree) (f : Selector)
  /-- Pairs of the values of two trees at common keys. -/
  | zip (left right : Tree)
  /-- The last value carried forward between the keys. -/
  | carry (inner : Tree)
  /-- A fixed value between the keys. -/
  | fill (inner : Tree) (otherwise : Value)
  /-- The inner tree as one that has no values between its keys and refuses to be waited for. -/
  | refuse (inner : Tree)

namespace Tree

/-- The positions in a tree: one for every series and every zip in it. -/
def Position : Tree → Type
  | .series _ => SeriesPosition
  | .op t _ => t.Position
  | .map t _ => t.Position
  | .zip l r => ZipPosition l.Position r.Position
  | .carry t => t.Position
  | .fill t _ => t.Position
  | .refuse t => t.Position

/-- What a cursor over the tree does, for the sources as they are now. -/
def behaviour (sources : Sources) : (t : Tree) → Behaviour t.Position
  | .series id => .ofSeries (sources id)
  | .op t o => (t.behaviour sources).op o
  | .map t f => (t.behaviour sources).map f
  | .zip l r => (l.behaviour sources).zip (r.behaviour sources)
  | .carry t => (t.behaviour sources).carry
  | .fill t otherwise => (t.behaviour sources).fill otherwise
  | .refuse t => (t.behaviour sources).discrete

/-- The series of a tree from left to right, as often as they occur. -/
def leaves : Tree → List SourceId
  | .series id => [id]
  | .op t _ => t.leaves
  | .map t _ => t.leaves
  | .zip l r => l.leaves ++ r.leaves
  | .carry t => t.leaves
  | .fill t _ => t.leaves
  | .refuse t => t.leaves

end Tree

/-- A tree with a position in it. -/
structure Cursor where
  tree : Tree
  position : tree.Position

namespace Cursor

/-! ## Making cursors -/

/-- A cursor over a series that is ready to move. -/
def ofSeries (id : SourceId) : Cursor := ⟨.series id, (⟨.ready, none⟩ : SeriesPosition)⟩

/-- A cursor over a series that only carries configuration. -/
def raw (id : SourceId) : Cursor := ⟨.series id, (⟨.unready, none⟩ : SeriesPosition)⟩

def op (c : Cursor) (o : Operation) : Cursor := ⟨.op c.tree o, c.position⟩

def map (c : Cursor) (f : Selector) : Cursor := ⟨.map c.tree f, c.position⟩

def carry (c : Cursor) : Cursor := ⟨.carry c.tree, c.position⟩

def fill (c : Cursor) (otherwise : Value) : Cursor := ⟨.fill c.tree otherwise, c.position⟩

def refuse (c : Cursor) : Cursor := ⟨.refuse c.tree, c.position⟩

/-! ## Using cursors -/

variable (sources : Sources)

/-- What the cursor does. -/
def behaviour (c : Cursor) : Behaviour c.tree.Position := c.tree.behaviour sources

/-- The same tree with another position. -/
def standing (c : Cursor) (p : c.tree.Position) : Cursor := ⟨c.tree, p⟩

def state (c : Cursor) : Stage := (c.behaviour sources).state c.position

/-- A cursor over the same tree that is ready and stands nowhere. -/
def fresh (c : Cursor) : Cursor := c.standing (c.behaviour sources).fresh

/-- Gives the position up. -/
def reset (c : Cursor) : Cursor := c.standing ((c.behaviour sources).reset c.position)

/-- Gives the position up, and readiness with it. -/
def dispose (c : Cursor) : Cursor := c.standing ((c.behaviour sources).dispose c.position)

/-- Moves; the cursor afterwards, and whether it landed at an entry. -/
def move (c : Cursor) (motion : Motion) : Cursor × Eval Bool :=
  let m := (c.behaviour sources).move motion c.position
  (c.standing m.position, m.landed)

def key (c : Cursor) : Except Fault Key := (c.behaviour sources).key c.position

def value (c : Cursor) : Eval Value := (c.behaviour sources).value c.position

/-- The entry at which the cursor stands. -/
def current (c : Cursor) : Eval Entry := (c.behaviour sources).current c.position

def get? (c : Cursor) (k : Key) : Eval (Option Value) := (c.behaviour sources).get? k

def find? (c : Cursor) (k : Key) (lookup : Lookup) : Eval (Option Entry) :=
  (c.behaviour sources).find? k lookup

def isContinuous (c : Cursor) : Bool := (c.behaviour sources).continuous

def isCompleted (c : Cursor) : Bool := (c.behaviour sources).completed

/-- A zip of two cursors. It is ready if both sides are, and stands nowhere. -/
def zip (l r : Cursor) : Cursor :=
  let ready := (l.state sources).isReady && (r.state sources).isReady
  ⟨.zip l.tree r.tree,
    (⟨l.position, r.position, if ready then .ready else .unready, none⟩ :
      ZipPosition l.tree.Position r.tree.Position)⟩

end Cursor

end LiveSeries
