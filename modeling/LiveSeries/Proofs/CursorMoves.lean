import LiveSeries.Proofs.ZipWalk

/-!
# Where the moves of a cursor lead

Every cursor walks over the entries of its tree, as they are at the moment of the move
(`Cursor.move_lands`). That holds for every cursor that comes about by making cursors, combining
them and moving them, whatever became of the sources between two steps. The sides of a zip may
stand at keys that have gone, and a cursor may stand at an entry that its tree no longer has.

What survives a change of the sources is that the position is sound, which speaks of the position
only (`Tree.Sound`).
-/

namespace LiveSeries

namespace Tree

/-! ## Sound positions -/

/-- How far a cursor got in a position. -/
def stage : (t : Tree) → t.Position → Stage
  | .series _, (p : SeriesPosition) => p.state
  | .op t _, p => t.stage p
  | .map t _, p => t.stage p
  | .zip _ _, p => ZipPosition.state p
  | .carry t, p => t.stage p
  | .fill t _, p => t.stage p
  | .refuse t, p => t.stage p

/-- The positions that a cursor over the tree can have, whatever its sources were. -/
def Sound : (t : Tree) → t.Position → Prop
  | .series _, (p : SeriesPosition) => p.Sound
  | .op t _, p => t.Sound p
  | .map t _, p => t.Sound p
  | .zip l r, (p : ZipPosition l.Position r.Position) => p.Sound l.stage r.stage l.Sound r.Sound
  | .carry t, p => t.Sound p
  | .fill t _, p => t.Sound p
  | .refuse t, p => t.Sound p

variable (sources : Sources)

theorem state_behaviour (t : Tree) : (t.behaviour sources).state = t.stage := by
  induction t with
  | series id => rfl
  | op t o ih => exact ih
  | map t f ih => exact ih
  | zip l r ihl ihr => rfl
  | carry t ih => exact ih
  | fill t otherwise ih => exact ih
  | refuse t ih => exact ih

/-- The key of a position does not depend on the sources. -/
theorem key_behaviour (sources sources' : Sources) (t : Tree) :
    (t.behaviour sources').key = (t.behaviour sources).key := by
  induction t with
  | series id => rfl
  | op t o ih => exact ih
  | map t f ih => exact ih
  | zip l r ihl ihr => rfl
  | carry t ih => exact ih
  | fill t otherwise ih => exact ih
  | refuse t ih => exact ih

/-- Nor does its value: it is computed from what the cursor holds. -/
theorem value_behaviour (sources sources' : Sources) (t : Tree) :
    (t.behaviour sources').value = (t.behaviour sources).value := by
  induction t with
  | series id => rfl
  | op t o ih =>
      show (fun p => (t.behaviour sources').value p >>= o.apply) = _
      rw [ih]
      rfl
  | map t f ih =>
      show (fun p => Eval.lift ((t.behaviour sources').key p) >>= fun k =>
        (t.behaviour sources').value p >>= fun v => Eval.call (f k v)) = _
      rw [ih, key_behaviour sources sources']
      rfl
  | zip l r ihl ihr => rfl
  | carry t ih => exact ih
  | fill t otherwise ih => exact ih
  | refuse t ih => exact ih

theorem steady (t : Tree) : (t.behaviour sources).Steady t.Sound := by
  induction t with
  | series id => exact Behaviour.steady_ofSeries (sources id)
  | op t o ih => exact Behaviour.SameWalk.steady rfl ih
  | map t f ih => exact Behaviour.SameWalk.steady rfl ih
  | zip l r ihl ihr =>
      have h := ihl.zip ihr
      rw [state_behaviour, state_behaviour] at h
      exact h
  | carry t ih => exact Behaviour.SameWalk.steady rfl ih
  | fill t otherwise ih => exact Behaviour.SameWalk.steady rfl ih
  | refuse t ih => exact Behaviour.SameWalk.steady rfl ih

/-- Every tree answers from its entries, one combinator after the other. -/
theorem answers {t : Tree} (h : t.Total sources) :
    (t.behaviour sources).Answers t.Sound (t.entries sources) (t.Yields sources) := by
  induction t with
  | series id => exact Behaviour.answers_ofSeries (sources id)
  | op t o ih => exact (ih h.1).op o h.2
  | map t f ih => exact (ih h.1).map f h.2
  | zip l r ihl ihr =>
      have hzip := (ihl h.1).zip (ihr h.2)
      rw [state_behaviour, state_behaviour] at hzip
      exact hzip
  | carry t ih => exact (ih h).carry
  | fill t otherwise ih => exact (ih h).fill otherwise
  | refuse t ih => exact (ih h).discrete

end Tree

namespace Cursor

/-! ## Cursors that come about -/

/-- The cursors that come about. Every step that looks at the sources may find others than the
step before. -/
inductive Reachable : Cursor → Prop where
  | ofSeries (id : SourceId) : Reachable (.ofSeries id)
  | raw (id : SourceId) : Reachable (.raw id)
  | op {c : Cursor} (o : Operation) : Reachable c → Reachable (c.op o)
  | map {c : Cursor} (f : Selector) : Reachable c → Reachable (c.map f)
  | zip {l r : Cursor} (sources : Sources) : Reachable l → Reachable r →
      Reachable (l.zip sources r)
  | carry {c : Cursor} : Reachable c → Reachable c.carry
  | fill {c : Cursor} (otherwise : Value) : Reachable c → Reachable (c.fill otherwise)
  | refuse {c : Cursor} : Reachable c → Reachable c.refuse
  | fresh {c : Cursor} (sources : Sources) : Reachable c → Reachable (c.fresh sources)
  | move {c : Cursor} (sources : Sources) (m : Motion) : Reachable c →
      Reachable (c.move sources m).1
  | reset {c : Cursor} (sources : Sources) : Reachable c → Reachable (c.reset sources)
  | dispose {c : Cursor} (sources : Sources) : Reachable c → Reachable (c.dispose sources)

theorem isReady_ite (b : Bool) : (if b then Stage.ready else .unready).isReady = b := by
  cases b <;> rfl

/-- The position of a zip made of two cursors is sound. -/
theorem sound_zip {l r : Cursor} (sources : Sources) (hl : l.tree.Sound l.position)
    (hr : r.tree.Sound r.position) :
    (l.zip sources r).tree.Sound (l.zip sources r).position := by
  have hstate : ∀ c : Cursor, c.tree.stage c.position = c.state sources := fun c =>
    (congrFun (c.tree.state_behaviour sources) c.position).symm
  constructor
  · exact hl
  · exact hr
  · intro h
    have hboth := Bool.and_eq_true_iff.mp ((isReady_ite _).symm.trans h)
    exact (congrArg Stage.isReady (hstate l)).trans hboth.1
  · intro h
    have hboth := Bool.and_eq_true_iff.mp ((isReady_ite _).symm.trans h)
    exact (congrArg Stage.isReady (hstate r)).trans hboth.2
  · simp only [zip]
    split <;> simp

theorem sound_of_reachable {c : Cursor} (h : c.Reachable) : c.tree.Sound c.position := by
  induction h with
  | ofSeries id => simp [ofSeries, Tree.Sound, SeriesPosition.Sound]
  | raw id => simp [raw, Tree.Sound, SeriesPosition.Sound]
  | op o _ ih => exact ih
  | map f _ ih => exact ih
  | zip sources _ _ ihl ihr => exact sound_zip sources ihl ihr
  | carry _ ih => exact ih
  | fill otherwise _ ih => exact ih
  | refuse _ ih => exact ih
  | @fresh c sources _ ih => exact (c.tree.steady sources).fresh_sound
  | @move c sources m _ ih => exact (c.tree.steady sources).move_sound m c.position ih
  | @reset c sources _ ih => exact (c.tree.steady sources).reset_sound c.position ih
  | @dispose c sources _ ih => exact (c.tree.steady sources).dispose_sound c.position ih

/-! ## Moves -/

variable (sources : Sources)

/-- The key at which the cursor stands, if it stands at an entry. -/
def standpoint (c : Cursor) : Option Key := ((c.behaviour sources).place c.position).key

/-- The cursor stands at an entry, and shows it. -/
structure Shows (c : Cursor) (e : Entry) : Prop where
  state : c.state sources = .moving
  standpoint : c.standpoint sources = some e.1
  key : c.key sources = .ok e.1
  value : (c.value sources).outcome = .ok e.2
  current : (c.current sources).outcome = .ok e

theorem shows_of_standsOn {c : Cursor} {e : Entry}
    (h : (c.behaviour sources).StandsOn c.position e) : c.Shows sources e where
  state := h.state
  standpoint := h.place_key
  key := h.key
  value := h.value
  current := h.outcome_current

/-- The entries of a tree increase, and every move of a ready cursor leads to the first of them
that it admits: to the first or the last, to the one nearest to a key, or to the one next to the
key at which the cursor stands. If there is none, the cursor stays. -/
theorem move_lands {c : Cursor} (hc : c.Reachable) (htotal : c.tree.Total sources) :
    Increasing (c.tree.entries sources) ∧
      ((c.state sources).isReady = true → ∀ m : Motion,
        (∀ e, m.target (c.tree.entries sources) (c.standpoint sources) = some e →
          (c.move sources m).2.outcome = .ok true ∧ (c.move sources m).1.Shows sources e) ∧
        (m.target (c.tree.entries sources) (c.standpoint sources) = none →
          (c.move sources m).2.outcome = .ok false ∧ (c.move sources m).1 = c)) := by
  have hsound := sound_of_reachable hc
  have hwalks := (Tree.answers sources htotal).walks
  refine ⟨c.tree.increasing_entries sources, ?_⟩
  intro hready m
  constructor
  · intro e htarget
    obtain ⟨hlanded, hstands⟩ := hwalks.lands m c.position e hsound hready htarget
    exact ⟨hlanded, shows_of_standsOn sources hstands⟩
  · intro htarget
    obtain ⟨hlanded, hstays⟩ := hwalks.stays m c.position hsound hready htarget
    exact ⟨hlanded, congrArg c.standing hstays⟩

/-! A zip of a series with a second one that is carried forward stands at the key 3. Then that
key goes from the first series and the key 5 comes. -/

/-- The two series at first. -/
def twoSeries : Sources
  | 0 => .ofList [(.int 1, .int 10), (.int 3, .int 30)]
  | _ => .ofList [(.int 2, .int 20)]

/-- The two series after the changes. -/
def changedSeries : Sources
  | 0 => (((twoSeries 0).remove (.int 3)).settled.set (.int 5) (.int 50)).settled
  | id => twoSeries id

/-- The zip at the key 3. -/
def overTwoSeries : Cursor :=
  (((ofSeries 0).zip twoSeries (ofSeries 1).carry).move twoSeries .first).1

theorem move_lands_after_changes :
    overTwoSeries.standpoint changedSeries = some (.int 3) ∧
      (overTwoSeries.move changedSeries .next).2.outcome = .ok true ∧
      (overTwoSeries.move changedSeries .next).1.Shows changedSeries
        (.int 5, .pair (.int 50) (.int 20)) :=
  have hreachable : overTwoSeries.Reachable :=
    .move twoSeries .first (.zip twoSeries (.ofSeries 0) (.carry (.ofSeries 1)))
  ⟨rfl, ((move_lands changedSeries hreachable ⟨trivial, trivial⟩).2 rfl .next).1 _ rfl⟩

end Cursor

end LiveSeries
