import LiveSeries.Proofs.PointLookup
import LiveSeries.View

/-!
# What a view shows

A view walks with fresh cursors, and finds by lookups. Walks, searches and counts of the view all
go by the one list of the entries of its tree (`View.shows_its_entries`), and so the position of
the cursor from which it was made does not show: that cursor may stand anywhere, and it may have
been disposed of.

A walk repeats a move until it fails (`Cursor.Traverses`), which is what ends it and not a bound on
its length. What carries it is where the cursor stands: at the last entry that the walk has come to,
in either direction. What the walk has not come to yet is left of the list.
-/

namespace LiveSeries

namespace Cursor

/-- The cursor repeats a move until it fails, and shows these entries on the way. -/
inductive Traverses (sources : Sources) (m : Motion) : Cursor → List Entry → Prop where
  | ends {c : Cursor} (fails : (c.move sources m).2.outcome = .ok false) : Traverses sources m c []
  | shows {c : Cursor} {e : Entry} {rest : List Entry}
      (lands : (c.move sources m).2.outcome = .ok true)
      (current : ((c.move sources m).1.current sources).outcome = .ok e)
      (goesOn : Traverses sources m (c.move sources m).1 rest) : Traverses sources m c (e :: rest)

variable {sources : Sources} {m : Motion} {c : Cursor} {es : List Entry}

/-- No second traversal shows other entries. -/
theorem Traverses.unique (h : c.Traverses sources m es) {es' : List Entry}
    (h' : c.Traverses sources m es') : es' = es := by
  induction h generalizing es' with
  | ends fails =>
      cases h' with
      | ends => rfl
      | shows lands => cases fails.symm.trans lands
  | shows lands current _ ih =>
      cases h' with
      | ends fails => cases fails.symm.trans lands
      | shows _ current' goesOn' =>
          cases current.symm.trans current'
          rw [ih goesOn']

/-- A cursor at the last entry that a walk has come to traverses the others. -/
theorem traverses_rest (htotal : c.tree.Total sources) (hsound : c.tree.Sound c.position)
    (hready : (c.state sources).isReady = true) {forward : Bool} {shown rest : List Entry}
    (hsplit : along forward (c.tree.entries sources) = shown ++ rest)
    (hstands : c.standpoint sources = shown.getLast?.map (·.1)) :
    c.Traverses sources (.step forward) rest := by
  induction rest generalizing c shown with
  | nil =>
      have htarget := Motion.target_step (c.tree.increasing_entries sources) hsplit
      rw [← hstands] at htarget
      exact .ends ((Tree.answers sources htotal).walks.stays _ _ hsound hready htarget).1
  | cons e rest ih =>
      have htarget := Motion.target_step (c.tree.increasing_entries sources) hsplit
      rw [← hstands] at htarget
      obtain ⟨hlanded, hon⟩ :=
        (Tree.answers sources htotal).walks.lands _ c.position e hsound hready htarget
      have hshows : (c.move sources (.step forward)).1.Shows sources e :=
        shows_of_standsOn sources hon
      have hsound' := (c.tree.steady sources).move_sound (.step forward) c.position hsound
      have hready' : ((c.move sources (.step forward)).1.state sources).isReady = true := by
        rw [hshows.state]
        rfl
      -- the walk has come to `e` now
      have hsplit' : along forward (c.tree.entries sources) = (shown ++ [e]) ++ rest := by
        rw [hsplit, List.append_assoc, List.singleton_append]
      have hstands' : (c.move sources (.step forward)).1.standpoint sources =
          (shown ++ [e]).getLast?.map (·.1) := by
        rw [hshows.standpoint, List.getLast?_concat, Option.map_some]
      exact .shows hlanded hshows.current (ih htotal hsound' hready' hsplit' hstands')

theorem standpoint_fresh (sources : Sources) (c : Cursor) :
    (c.fresh sources).standpoint sources = none := by
  have hstate : ((c.fresh sources).behaviour sources).state (c.fresh sources).position = .ready :=
    (c.tree.steady sources).fresh_state
  rw [standpoint, Behaviour.place, hstate]
  rfl

/-- A fresh cursor traverses all entries, in the order of the direction. -/
theorem fresh_traverses_iff (htotal : c.tree.Total sources) (forward : Bool) :
    (c.fresh sources).Traverses sources (.step forward) es ↔
      es = along forward (c.tree.entries sources) := by
  have hsplit : along forward ((c.fresh sources).tree.entries sources) =
      [] ++ along forward (c.tree.entries sources) := rfl
  have hall : (c.fresh sources).Traverses sources (.step forward)
      (along forward (c.tree.entries sources)) :=
    @traverses_rest sources (c.fresh sources) htotal (c.tree.steady sources).fresh_sound
      (isReady_fresh sources c) forward [] _ hsplit (standpoint_fresh sources c)
  constructor
  · exact hall.unique
  · rintro rfl
    exact hall

end Cursor

namespace View

variable {sources : Sources} {c : Cursor}

/-- A step from a fresh cursor answers with the entry to which it leads. -/
theorem outcome_step (htotal : c.tree.Total sources) (m : Motion) :
    (step sources (c.fresh sources) m).2.outcome =
      .ok (m.target (c.tree.entries sources) none) := by
  have hsent := (Tree.answers sources htotal).walks.outcome_sent m
    (c.tree.steady sources).fresh_sound (Cursor.isReady_fresh sources c)
  exact hsent.trans (congrArg (fun from? => Except.ok (m.target (c.tree.entries sources) from?))
    (c.standpoint_fresh sources))

/-- A walk ends where the traversal does, if its bound lets it get there. -/
theorem outcome_walk {m : Motion} {es : List Entry} (h : c.Traverses sources m es) {bound : Nat}
    (hbound : es.length < bound) : (walk sources m bound c).outcome = .ok es := by
  induction h generalizing bound with
  | @ends c fails =>
      obtain ⟨bound, rfl⟩ := Nat.exists_eq_add_one.mpr hbound
      have hnone : (step sources c m).2.outcome = .ok none := by
        show ((c.move sources m).2 >>= _).outcome = _
        rw [Eval.outcome_bind, fails]
        rfl
      rw [walk, Eval.outcome_bind, hnone]
      rfl
  | @shows c e rest lands current _ ih =>
      obtain ⟨bound, rfl⟩ := Nat.exists_eq_add_one.mpr (Nat.zero_lt_of_lt hbound)
      have hsome : (step sources c m).2.outcome = .ok (some e) := by
        show ((c.move sources m).2 >>= _).outcome = _
        rw [Eval.outcome_bind, lands, ok_bind, if_pos rfl, Eval.outcome_map]
        exact congrArg (Except.map some) current
      have hrest : (walk sources m bound (step sources c m).1).outcome = .ok rest :=
        ih (Nat.lt_of_succ_lt_succ hbound)
      rw [walk, Eval.outcome_bind, hsome, ok_bind, Eval.outcome_bind, hrest]
      rfl

/-! ## All answers of a view -/

/-- The view shows just the listed entries, in whatever way it is asked. -/
structure Shows (sources : Sources) (v : View) (listed : List Entry) : Prop where
  increasing : Increasing listed
  forth (es : List Entry) : (v.cursor sources).Traverses sources .next es ↔ es = listed
  back (es : List Entry) :
    (v.cursor sources).Traverses sources .previous es ↔ es = listed.reverse
  entries : (v.entries sources).outcome = .ok listed
  count : (v.count sources).outcome = .ok listed.length
  isEmpty : (v.isEmpty sources).outcome = .ok listed.isEmpty
  first : (v.first? sources).outcome = .ok listed.head?
  last : (v.last? sources).outcome = .ok listed.getLast?
  find (k : Key) (lookup : Lookup) :
    (v.find? sources k lookup).outcome = .ok (nearest listed k lookup)

theorem outcome_entries (htotal : c.tree.Total sources) :
    ((View.mk c).entries sources).outcome = .ok (c.tree.entries sources) := by
  have hbound : (c.tree.entries sources).length < (c.behaviour sources).extent + 1 :=
    Nat.lt_succ_of_le (Tree.answers sources htotal).length_le
  exact outcome_walk ((Cursor.fresh_traverses_iff htotal true).mpr rfl) hbound

/-- Whatever the position of the cursor from which it was made, a view shows the entries of the
tree. -/
theorem shows_its_entries {t : Tree} (htotal : t.Total sources) (p : t.Position) :
    (View.mk ⟨t, p⟩).Shows sources (t.entries sources) := by
  have hentries := @outcome_entries sources ⟨t, p⟩ htotal
  have hfirst : ((View.mk ⟨t, p⟩).first? sources).outcome = .ok (t.entries sources).head? :=
    @outcome_step sources ⟨t, p⟩ htotal .first
  exact {
    increasing := t.increasing_entries sources
    forth := fun es => @Cursor.fresh_traverses_iff sources ⟨t, p⟩ es htotal true
    back := fun es => @Cursor.fresh_traverses_iff sources ⟨t, p⟩ es htotal false
    entries := hentries
    count := by
      rw [count, Eval.outcome_map, hentries]
      rfl
    isEmpty := by
      rw [isEmpty, Eval.outcome_map, hfirst]
      cases t.entries sources <;> rfl
    first := hfirst
    last := @outcome_step sources ⟨t, p⟩ htotal .last
    find := (Tree.answers sources htotal).finds }

/-- A zip of a filled series with one that is carried forward, after it was disposed of. -/
def disposedZip : Cursor :=
  (((Cursor.ofSeries 0).fill (.int 0)).zip Cursor.twoSeries
    (Cursor.ofSeries 1).carry).dispose Cursor.twoSeries

theorem shows_its_entries_disposedZip :
    disposedZip.state Cursor.twoSeries = .unready ∧
      (View.mk disposedZip).Shows Cursor.twoSeries
        [(.int 2, .pair (.int 0) (.int 20)), (.int 3, .pair (.int 30) (.int 20))] := by
  have htotal : disposedZip.tree.Total Cursor.twoSeries := ⟨trivial, trivial⟩
  exact ⟨rfl, shows_its_entries htotal disposedZip.position⟩

end View

end LiveSeries
