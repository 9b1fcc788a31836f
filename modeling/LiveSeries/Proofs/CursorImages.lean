import LiveSeries.Proofs.CursorMoves

/-!
# Cursors that look alike

One tree is the image of another under a function on values if it has an entry at the same keys and
answers every lookup as the other does, with the function applied to the value (`Tree.Image`).
Cursors over two such trees that look alike cannot be told apart, up to that function: whatever is
done to both, and whatever becomes of their sources in between, they give the same answers and show
the same (`Cursor.Alike.twins`).

The relation that every use keeps is `Cursor.Alike`. It says nothing of where the parts of the
cursors stand, and no use has to look there: a move leads to an entry of the tree, which the keys
and the entries tell (`Behaviour.Walks`), and a cursor that gave its position up stands nowhere
(`Behaviour.Lifecycle`).
-/

namespace LiveSeries

/-! ## Cursors without a position -/

namespace Behaviour

variable {σ : Type}

/-- The cursor stands at no entry. -/
structure Nowhere (b : Behaviour σ) (p : σ) : Prop where
  key : b.key p = .error .cursorNotPositioned
  value : (b.value p).outcome = .error .cursorNotPositioned

/-- A cursor that gave its position up stands nowhere, and one that is not ready does not move. -/
structure Lifecycle (b : Behaviour σ) : Prop where
  fresh : b.Nowhere b.fresh
  reset : ∀ p, b.Nowhere (b.reset p)
  dispose : ∀ p, b.Nowhere (b.dispose p)
  state_reset : ∀ p, b.state (b.reset p) = (b.state p).reset
  state_dispose : ∀ p, b.state (b.dispose p) = .unready
  move_of_unready : ∀ m p, (b.state p).isReady = false → b.move m p = ⟨p, .fault .cursorNotReady⟩

theorem lifecycle_ofSeries (s : Series) : (ofSeries s).Lifecycle where
  fresh := ⟨rfl, rfl⟩
  reset _ := ⟨rfl, rfl⟩
  dispose _ := ⟨rfl, rfl⟩
  state_reset _ := rfl
  state_dispose _ := rfl
  move_of_unready _ _ h := if_neg (Bool.eq_false_iff.mp h)

theorem lifecycle_zip {τ : Type} (l : Behaviour σ) (r : Behaviour τ) : (l.zip r).Lifecycle where
  fresh := ⟨rfl, rfl⟩
  reset _ := ⟨rfl, rfl⟩
  dispose _ := ⟨rfl, rfl⟩
  state_reset _ := rfl
  state_dispose _ := rfl
  move_of_unready _ _ h := if_neg (Bool.eq_false_iff.mp h)

/-- A walk with other values has the same lifecycle, if it has no values where there is no entry. -/
theorem Lifecycle.change {b b' : Behaviour σ} (hb : b.Lifecycle) (h : b.SameWalk b')
    (hvalue : ∀ p, b.Nowhere p → (b'.value p).outcome = .error .cursorNotPositioned) :
    b'.Lifecycle := by
  rw [SameWalk] at h
  rw [h]
  have hnowhere : ∀ p, b.Nowhere p → ({ b with
      value := b'.value
      get? := b'.get?
      find? := b'.find?
      continuous := b'.continuous } : Behaviour σ).Nowhere p := fun p hp => ⟨hp.key, hvalue p hp⟩
  exact ⟨hnowhere _ hb.fresh, fun p => hnowhere _ (hb.reset p), fun p => hnowhere _ (hb.dispose p),
    hb.state_reset, hb.state_dispose, hb.move_of_unready⟩

end Behaviour

namespace Tree

variable (sources : Sources)

theorem lifecycle (t : Tree) : (t.behaviour sources).Lifecycle := by
  induction t with
  | series id => exact Behaviour.lifecycle_ofSeries (sources id)
  | op t o ih =>
      refine ih.change rfl fun p hp => ?_
      show ((t.behaviour sources).value p >>= o.apply).outcome = _
      rw [Eval.outcome_bind, hp.value]
      rfl
  | map t f ih =>
      refine ih.change rfl fun p hp => ?_
      show (Eval.lift ((t.behaviour sources).key p) >>= fun k =>
        (t.behaviour sources).value p >>= fun v => Eval.call (f k v)).outcome = _
      rw [Eval.outcome_bind, Eval.outcome_lift, hp.key]
      rfl
  | zip l r _ _ => exact Behaviour.lifecycle_zip _ _
  | carry t ih => exact ih.change rfl fun p hp => hp.value
  | fill t otherwise ih => exact ih.change rfl fun p hp => hp.value
  | refuse t ih => exact ih.change rfl fun p hp => hp.value

/-! ## Images of trees -/

/-- For the sources as they are now no function of either tree faults, and the tree `u` has the
entries of `t` and answers its lookups, with `f` applied to the values. -/
structure Image (f : Value → Value) (t u : Tree) : Prop where
  total : t.Total sources
  total_image : u.Total sources
  entries : u.entries sources = (t.entries sources).map fun e => (e.1, f e.2)
  gets : ∀ k, ((u.behaviour sources).get? k).outcome =
    ((t.behaviour sources).get? k).outcome.map (·.map f)
  continuous : (u.behaviour sources).continuous = (t.behaviour sources).continuous
  completed : (u.behaviour sources).completed = (t.behaviour sources).completed

variable {sources}

/-- An image finds what the tree finds. -/
theorem Image.finds {f : Value → Value} {t u : Tree} (h : t.Image sources f u) (k : Key)
    (lookup : Lookup) :
    ((u.behaviour sources).find? k lookup).outcome =
      ((t.behaviour sources).find? k lookup).outcome.map (·.map fun e => (e.1, f e.2)) := by
  rw [(answers sources h.total).finds, (answers sources h.total_image).finds, h.entries,
    nearest_map (f := fun e => (e.1, f e.2)) fun _ => rfl]
  rfl

end Tree

namespace Cursor

/-! ## Using cursors -/

/-- What can be done to a cursor. -/
inductive Use where
  | move (m : Motion)
  | reset
  | dispose
  /-- To go on with a fresh cursor over the same tree. -/
  | refresh

/-- Uses a cursor: what it answers, and the cursor afterwards. Only moves can fail. -/
def Use.run (sources : Sources) (c : Cursor) : Use → Except Fault Bool × Cursor
  | .move m => ((c.move sources m).2.outcome, (c.move sources m).1)
  | .reset => (.ok true, c.reset sources)
  | .dispose => (.ok true, c.dispose sources)
  | .refresh => (.ok true, c.fresh sources)

/-- Uses a cursor again and again, each time with the sources as they are then. -/
def uses (c : Cursor) : List (Sources × Use) → List (Except Fault Bool) × Cursor
  | [] => ([], c)
  | (sources, use) :: rest =>
    let (answer, c) := use.run sources c
    let (answers, c) := c.uses rest
    (answer :: answers, c)

theorem tree_run (sources : Sources) (c : Cursor) (use : Use) :
    (use.run sources c).2.tree = c.tree := by
  cases use <;> rfl

theorem tree_uses (c : Cursor) (uses : List (Sources × Use)) : (c.uses uses).2.tree = c.tree := by
  induction uses generalizing c with
  | nil => rfl
  | cons use rest ih => exact (ih (use.2.run use.1 c).2).trans (tree_run use.1 c use.2)

/-! ## Cursors that look alike -/

/-- The cursor `d` looks like `c`, with `f` applied to the value, whatever the sources are. -/
structure Alike (f : Value → Value) (c d : Cursor) : Prop where
  sound : c.tree.Sound c.position
  sound_image : d.tree.Sound d.position
  state : ∀ sources, d.state sources = c.state sources
  key : ∀ sources, d.key sources = c.key sources
  value : ∀ sources, (d.value sources).outcome = (c.value sources).outcome.map f

/-- What `d` shows is what `c` shows, with `f` applied to the values. -/
structure Mirrors (sources : Sources) (f : Value → Value) (c d : Cursor) : Prop where
  state : d.state sources = c.state sources
  key : d.key sources = c.key sources
  value : (d.value sources).outcome = (c.value sources).outcome.map f
  gets : ∀ k, (d.get? sources k).outcome = (c.get? sources k).outcome.map (·.map f)
  finds : ∀ k lookup, (d.find? sources k lookup).outcome =
    (c.find? sources k lookup).outcome.map (·.map fun e => (e.1, f e.2))
  continuous : d.isContinuous sources = c.isContinuous sources
  completed : d.isCompleted sources = c.isCompleted sources

/-- The cursors answer alike while they are used in the same way, and in the end `d` shows what `c`
shows. -/
structure Twins (f : Value → Value) (used : List (Sources × Use)) (now : Sources) (c d : Cursor) :
    Prop where
  answers : (d.uses used).1 = (c.uses used).1
  shows : (c.uses used).2.Mirrors now f (d.uses used).2

variable {f : Value → Value} {c d : Cursor} {sources : Sources}

/-- How a cursor looks depends on its position only. -/
theorem alike_of_sources (sources : Sources) (hsound : c.tree.Sound c.position)
    (hsound' : d.tree.Sound d.position)
    (hstate : d.state sources = c.state sources) (hkey : d.key sources = c.key sources)
    (hvalue : (d.value sources).outcome = (c.value sources).outcome.map f) : c.Alike f d where
  sound := hsound
  sound_image := hsound'
  state now := by
    have hsame : ∀ e : Cursor, e.state now = e.state sources := fun e => by
      rw [Cursor.state, Cursor.state, behaviour, behaviour, e.tree.state_behaviour,
        e.tree.state_behaviour]
    rw [hsame, hsame, hstate]
  key now := by
    have hsame : ∀ e : Cursor, e.key now = e.key sources := fun e =>
      congrFun (e.tree.key_behaviour sources now) e.position
    rw [hsame, hsame, hkey]
  value now := by
    have hsame : ∀ e : Cursor, e.value now = e.value sources := fun e =>
      congrFun (e.tree.value_behaviour sources now) e.position
    rw [hsame, hsame, hvalue]

/-- Cursors that stand nowhere look alike if they got equally far. -/
theorem alike_of_nowhere (hsound : c.tree.Sound c.position) (hsound' : d.tree.Sound d.position)
    (hstate : d.state sources = c.state sources)
    (hc : (c.behaviour sources).Nowhere c.position)
    (hd : (d.behaviour sources).Nowhere d.position) : c.Alike f d := by
  refine alike_of_sources sources hsound hsound' hstate (hd.key.trans hc.key.symm) ?_
  rw [Cursor.value, Cursor.value, hc.value, hd.value]
  rfl

theorem Alike.mirrors (h : c.Alike f d) (himage : c.tree.Image sources f d.tree) :
    c.Mirrors sources f d where
  state := h.state sources
  key := h.key sources
  value := h.value sources
  gets := himage.gets
  finds := himage.finds
  continuous := himage.continuous
  completed := himage.completed

/-- Cursors that look alike move from the same key. -/
theorem Alike.standpoint_eq (h : c.Alike f d) (sources : Sources) :
    d.standpoint sources = c.standpoint sources := by
  have hstate := h.state sources
  have hkey := h.key sources
  rw [Cursor.state] at hstate
  rw [Cursor.key] at hkey
  rw [standpoint, standpoint, Behaviour.place, Behaviour.place, hstate, hkey]
  rfl

/-- A move leads both cursors to the same entry, or fails for both. -/
theorem Alike.move (h : c.Alike f d) (himage : c.tree.Image sources f d.tree) (m : Motion) :
    (d.move sources m).2.outcome = (c.move sources m).2.outcome ∧
      (c.move sources m).1.Alike f (d.move sources m).1 := by
  have hstate : d.state sources = c.state sources := h.state sources
  cases hready : (c.state sources).isReady with
  | false =>
      have hunready : (d.state sources).isReady = false := by rw [hstate, hready]
      have hc := (c.tree.lifecycle sources).move_of_unready m c.position hready
      have hd := (d.tree.lifecycle sources).move_of_unready m d.position hunready
      have hstays : (c.move sources m).1 = c := congrArg c.standing (congrArg Move.position hc)
      have hstays' : (d.move sources m).1 = d := congrArg d.standing (congrArg Move.position hd)
      rw [hstays, hstays']
      refine ⟨?_, h⟩
      have hfaults : (c.move sources m).2.outcome = .error .cursorNotReady :=
        congrArg Eval.outcome (congrArg Move.landed hc)
      have hfaults' : (d.move sources m).2.outcome = .error .cursorNotReady :=
        congrArg Eval.outcome (congrArg Move.landed hd)
      exact hfaults'.trans hfaults.symm
  | true =>
      have hready' : (d.state sources).isReady = true := by rw [hstate, hready]
      have hwalks := (Tree.answers sources himage.total).walks
      have hwalks' := (Tree.answers sources himage.total_image).walks
      -- both moves start from one key, over entries with the same keys
      have htarget : m.target (d.tree.entries sources) (d.standpoint sources) =
          (m.target (c.tree.entries sources) (c.standpoint sources)).map
            fun e => (e.1, f e.2) := by
        rw [h.standpoint_eq, himage.entries,
            Motion.target_map (f := fun e => (e.1, f e.2)) fun _ => rfl]
      cases hlanding : m.target (c.tree.entries sources) (c.standpoint sources) with
      | none =>
          rw [hlanding] at htarget
          obtain ⟨hfails, hstays⟩ := hwalks.stays m c.position h.sound hready hlanding
          obtain ⟨hfails', hstays'⟩ := hwalks'.stays m d.position h.sound_image hready' htarget
          refine ⟨hfails'.trans hfails.symm, ?_⟩
          have hsame : (c.move sources m).1 = c := congrArg c.standing hstays
          have hsame' : (d.move sources m).1 = d := congrArg d.standing hstays'
          rw [hsame, hsame']
          exact h
      | some e =>
          rw [hlanding] at htarget
          obtain ⟨hlands, hstands⟩ := hwalks.lands m c.position e h.sound hready hlanding
          obtain ⟨hlands', hstands'⟩ := hwalks'.lands m d.position _ h.sound_image hready' htarget
          refine ⟨hlands'.trans hlands.symm, alike_of_sources sources ?_ ?_ ?_ ?_ ?_⟩
          · exact (c.tree.steady sources).move_sound m c.position h.sound
          · exact (d.tree.steady sources).move_sound m d.position h.sound_image
          · exact hstands'.state.trans hstands.state.symm
          · exact hstands'.key.trans hstands.key.symm
          · exact hstands'.value.trans (congrArg (Except.map f) hstands.value.symm)

/-- Whatever is done to both cursors, they answer alike and go on looking alike. -/
theorem Alike.run (h : c.Alike f d) (himage : c.tree.Image sources f d.tree) (use : Use) :
    (use.run sources d).1 = (use.run sources c).1 ∧
      (use.run sources c).2.Alike f (use.run sources d).2 := by
  have hsteady := c.tree.steady sources
  have hsteady' := d.tree.steady sources
  have hlife := c.tree.lifecycle sources
  have hlife' := d.tree.lifecycle sources
  cases use with
  | move m => exact h.move himage m
  | reset =>
      have hstate : (d.reset sources).state sources = (c.reset sources).state sources := by
        have hbefore : d.state sources = c.state sources := h.state sources
        exact (hlife'.state_reset d.position).trans
          ((congrArg Stage.reset hbefore).trans (hlife.state_reset c.position).symm)
      exact ⟨rfl, alike_of_nowhere (hsteady.reset_sound _ h.sound)
        (hsteady'.reset_sound _ h.sound_image) hstate (hlife.reset _) (hlife'.reset _)⟩
  | dispose =>
      have hstate : (d.dispose sources).state sources = (c.dispose sources).state sources :=
        (hlife'.state_dispose d.position).trans (hlife.state_dispose c.position).symm
      exact ⟨rfl, alike_of_nowhere (hsteady.dispose_sound _ h.sound)
        (hsteady'.dispose_sound _ h.sound_image) hstate (hlife.dispose _) (hlife'.dispose _)⟩
  | refresh =>
      have hstate : (d.fresh sources).state sources = (c.fresh sources).state sources :=
        hsteady'.fresh_state.trans hsteady.fresh_state.symm
      exact ⟨rfl, alike_of_nowhere hsteady.fresh_sound hsteady'.fresh_sound hstate hlife.fresh
        hlife'.fresh⟩

theorem Alike.uses (h : c.Alike f d) (used : List (Sources × Use))
    (himage : ∀ use ∈ used, c.tree.Image use.1 f d.tree) :
    (d.uses used).1 = (c.uses used).1 ∧ (c.uses used).2.Alike f (d.uses used).2 := by
  induction used generalizing c d with
  | nil => exact ⟨rfl, h⟩
  | cons use rest ih =>
      obtain ⟨hanswer, hnext⟩ := h.run (himage use List.mem_cons_self) use.2
      have himage' : ∀ later ∈ rest, (use.2.run use.1 c).2.tree.Image later.1 f
          (use.2.run use.1 d).2.tree := by
        intro later hlater
        rw [tree_run, tree_run]
        exact himage later (List.mem_cons_of_mem _ hlater)
      obtain ⟨hanswers, hlast⟩ := ih hnext himage'
      have huses : ∀ e : Cursor, (e.uses (use :: rest)).1 =
          (use.2.run use.1 e).1 :: ((use.2.run use.1 e).2.uses rest).1 := fun _ => rfl
      refine ⟨?_, hlast⟩
      rw [huses, huses, hanswer, hanswers]

/-- Cursors that look alike cannot be told apart, as long as the tree of one is the image of that of
the other. -/
theorem Alike.twins (h : c.Alike f d) {used : List (Sources × Use)} {now : Sources}
    (himage : ∀ s ∈ now :: used.map (·.1), c.tree.Image s f d.tree) : c.Twins f used now d := by
  obtain ⟨hanswers, hlast⟩ := h.uses used fun use huse =>
    himage use.1 (List.mem_cons_of_mem _ (List.mem_map_of_mem huse))
  refine ⟨hanswers, hlast.mirrors ?_⟩
  rw [tree_uses, tree_uses]
  exact himage now List.mem_cons_self

end Cursor

end LiveSeries
