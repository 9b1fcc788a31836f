import LiveSeries.Session

/-!
# Acts of a session

What the small actions of a session do to its world, and how they compose. An action keeps a
relation if it relates every world to the one that it leaves (`Session.Keeps`); a sequence of
actions keeps what its parts keep.
-/

namespace LiveSeries

/-- What is said after a move. -/
def Cursor.shown (sources : Sources) (c : Cursor) (landed : Bool) : Reply :=
  let state := c.state sources
  .moved landed state (if state.isMoving then some (c.current sources).outcome else none)

namespace World

theorem object?_setObject (w : World) (name : String) (o : Object) :
    (w.setObject name o).object? name = some o := by
  simp [object?, setObject]

theorem object?_setObject_of_ne (w : World) {name other : String} (hne : other ≠ name)
    (o : Object) : (w.setObject name o).object? other = w.object? other := by
  have hlookup : ∀ objects : List (String × Object),
      (objects.filter fun p => p.1 != name).lookup other = objects.lookup other := by
    intro objects
    induction objects with
    | nil => rfl
    | cons p rest ih =>
        obtain ⟨n, x⟩ := p
        simp only [List.filter_cons, List.lookup_cons]
        by_cases hn : n = name
        · have hother : (other == n) = false := beq_eq_false_iff_ne.mpr (hn ▸ hne)
          rw [if_neg (fun h => bne_iff_ne.mp h hn), hother, ih]
        · rw [if_pos (bne_iff_ne.mpr hn), List.lookup_cons, ih]
  have hother : (other == name) = false := beq_eq_false_iff_ne.mpr hne
  show ((name, o) :: w.objects.filter fun p => p.1 != name).lookup other = _
  rw [List.lookup_cons, hother, hlookup]
  rfl

end World

namespace Session

variable {α β : Type}

/-! ## Running actions -/

theorem run_bind_of_ok {x : Act α} {f : α → Act β} {w w' : World} {a : α}
    (hx : x.run.run w = (.ok a, w')) : (x >>= f).run.run w = (f a).run.run w' := by
  simp only [ExceptT.run_bind, StateT.run_bind, hx]
  rfl

theorem run_bind_of_error {x : Act α} {f : α → Act β} {w w' : World} {e : StepError}
    (hx : x.run.run w = (.error e, w')) : (x >>= f).run.run w = (.error e, w') := by
  simp only [ExceptT.run_bind, StateT.run_bind, hx]
  rfl

theorem run_find {name : String} {kind : Object → Option α} {w : World} {a : α}
    (h : (w.object? name).bind kind = some a) : (find name kind).run.run w = (.ok a, w) := by
  unfold find
  refine (run_bind_of_ok (rfl : (get : Act World).run.run w = (.ok w, w))).trans ?_
  rw [h]
  rfl

theorem run_find_of_none {name : String} {kind : Object → Option α} {w : World}
    (h : (w.object? name).bind kind = none) :
    (find name kind).run.run w = (.error (.noObject name), w) := by
  unfold find
  refine (run_bind_of_ok (rfl : (get : Act World).run.run w = (.ok w, w))).trans ?_
  rw [h]
  rfl

theorem run_sources (w : World) : sources.run.run w = (.ok w.hub.sources, w) := rfl

/-- The calls of an evaluation count, also if it faulted. -/
theorem run_charge (e : Eval α) (w : World) :
    (charge e).run.run w = (e.outcome.mapError .fault, { w with calls := w.calls + e.calls }) := by
  obtain ⟨outcome, calls⟩ := e
  cases outcome <;> rfl

/-- What is said after a move changes neither the shared state nor the objects. -/
theorem run_sayMoved (c : Cursor) (landed : Bool) (w : World) :
    ∃ calls, (sayMoved c landed).run.run w =
      (.ok (c.shown w.hub.sources landed), { w with calls := calls }) := by
  cases hmoving : (c.state w.hub.sources).isMoving with
  | true =>
      refine ⟨w.calls + (c.current w.hub.sources).calls, ?_⟩
      show (if (c.state w.hub.sources).isMoving = true then _ else _ : Act Reply).run.run w = _
      rw [if_pos hmoving, Cursor.shown, if_pos hmoving]
      rfl
  | false =>
      refine ⟨w.calls, ?_⟩
      have hstands : ¬ (c.state w.hub.sources).isMoving = true := by
        rw [hmoving]
        exact Bool.false_ne_true
      show (if (c.state w.hub.sources).isMoving = true then _ else _ : Act Reply).run.run w = _
      rw [if_neg hstands, Cursor.shown, if_neg hstands]
      rfl

/-- A write of a session, whatever is said of it. -/
theorem run_change (notify : Notifier) (id : SourceId) (write : Series → Write α)
    (say : α → Reply) (w : World) :
    ((change notify id write say).run.run w).2 =
      World.settle notify id (write (w.hub.sources id)) w := by
  have hsettled : (modify (World.settle notify id (write (w.hub.sources id))) : Act Unit).run.run w =
      (.ok (), World.settle notify id (write (w.hub.sources id)) w) := rfl
  unfold change
  rw [run_bind_of_ok (run_sources w), run_bind_of_ok hsettled]
  -- what is said of the write changes nothing
  split <;> rfl

/-! ## Relations that actions keep -/

/-- The action relates every world to the one that it leaves. -/
def Keeps (R : World → World → Prop) (x : Act α) : Prop := ∀ w, R w (x.run.run w).2

section Keeps

variable {R : World → World → Prop}

theorem run_bind_rel (htrans : ∀ {a b c}, R a b → R b c → R a c) {x : Act α} {f : α → Act β}
    {w : World} (hx : R w (x.run.run w).2)
    (hf : ∀ a w', x.run.run w = (.ok a, w') → R w' ((f a).run.run w').2) :
    R w ((x >>= f).run.run w).2 := by
  cases hrun : x.run.run w with
  | mk result w' =>
      rw [hrun] at hx
      cases result with
      | error e =>
          rw [run_bind_of_error hrun]
          exact hx
      | ok a =>
          rw [run_bind_of_ok hrun]
          exact htrans hx (hf a w' hrun)

theorem Keeps.bind (htrans : ∀ {a b c}, R a b → R b c → R a c) {x : Act α} {f : α → Act β}
    (hx : Keeps R x) (hf : ∀ a, Keeps R (f a)) : Keeps R (x >>= f) := fun w =>
  run_bind_rel (R := R) htrans (hx w) fun a w' _ => hf a w'

theorem keeps_find (hrefl : ∀ w, R w w) (name : String) (kind : Object → Option α) :
    Keeps R (find name kind) := by
  intro w
  cases h : (w.object? name).bind kind with
  | none =>
      rw [run_find_of_none h]
      exact hrefl w
  | some a =>
      rw [run_find h]
      exact hrefl w

end Keeps

end Session

end LiveSeries
