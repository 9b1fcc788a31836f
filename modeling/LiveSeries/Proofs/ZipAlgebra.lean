import LiveSeries.Proofs.CursorImages
import LiveSeries.Proofs.PointLookup

/-!
# Zips commute and associate

The search of a zip favours its left side, and a nested zip has values between its keys only if all
of its sides have. So cursors over the two ways of zipping two or three others take different walks.
Yet nobody can tell which way it was, but by the order of the pairs and their nesting
(`Cursor.zip_rearranges`).

The reason is that a zip is settled key by key. It has a value where both of its sides have one,
and that value is the pair of theirs (`Tree.valueAt_zip`). Its entries are those of its values that
lie at the key of an entry of a side (`Tree.mem_entries_zip`). Both conditions are symmetric in the
sides, and both nest.
-/

namespace LiveSeries

/-! ## Pairs in another order -/

namespace Value

/-- Swaps the sides of a pair. -/
def swap : Value → Value
  | .pair v w => .pair w v
  | v => v

/-- Moves the middle one of three values from the left pair to the right one. -/
def regroup : Value → Value
  | .pair (.pair u v) w => .pair u (.pair v w)
  | v => v

end Value

/-- The pair of two values, if both are there. -/
def pairOf (a b : Option Value) : Option Value := a.bind fun v => b.map fun w => .pair v w

theorem map_swap_pairOf (a b : Option Value) : (pairOf a b).map Value.swap = pairOf b a := by
  cases a <;> cases b <;> rfl

theorem map_regroup_pairOf (a b c : Option Value) :
    (pairOf (pairOf a b) c).map Value.regroup = pairOf a (pairOf b c) := by
  cases a <;> cases b <;> cases c <;> rfl

/-! ## The values of a zip -/

namespace Behaviour

variable {σ τ : Type} {b : Behaviour σ} {entries : List Entry}

theorem valueAt_of_mem (hinc : Increasing entries) {k : Key} {v : Value} (h : (k, v) ∈ entries) :
    b.valueAt entries k = some v := by
  rw [valueAt, (lookup_eq_some_iff_mem hinc).mpr h]

theorem valueAt_of_not_mem {k : Key} (h : k ∉ keysOf entries) :
    b.valueAt entries k = if b.continuous then resultOf (b.get? k).outcome else none := by
  rw [valueAt, lookup_eq_none_iff_not_mem.mpr h]

theorem not_mem_of_valueAt_eq_none (hinc : Increasing entries) {k : Key}
    (h : b.valueAt entries k = none) : k ∉ keysOf entries := by
  intro hmem
  obtain ⟨v, hv⟩ := mem_keysOf.mp hmem
  rw [valueAt_of_mem hinc hv] at h
  cases h

variable {l : Behaviour σ} {r : Behaviour τ} {SoundL : σ → Prop} {SoundR : τ → Prop}
  {left right : List Entry} {KindL KindR : Value → Prop}

/-- Between the keys of its sides a zip has the pairs of the values between their keys. -/
theorem valueAt_zip_between (hl : l.Answers SoundL left KindL) (hr : r.Answers SoundR right KindR)
    {k : Key} (hleft : k ∉ keysOf left) (hright : k ∉ keysOf right)
    (hzip : k ∉ keysOf (l.zipEntries r left right)) :
    (l.zip r).valueAt (l.zipEntries r left right) k =
      pairOf (l.valueAt left k) (r.valueAt right k) := by
  obtain ⟨answer, hanswer, -⟩ := hl.gets k
  obtain ⟨answer', hanswer', -⟩ := hr.gets k
  have hboth : ((l.zip r).get? k).outcome = .ok (pairOf answer answer') :=
    outcome_getBoth hanswer hanswer'
  have hcontinuous : (l.zip r).continuous = (l.continuous && r.continuous) := rfl
  rw [valueAt_of_not_mem hleft, valueAt_of_not_mem hright, valueAt_of_not_mem hzip, hboth, hanswer,
    hanswer', hcontinuous]
  cases l.continuous with
  | false => rfl
  | true =>
      cases r.continuous with
      | false => cases answer <;> rfl
      | true => rfl

/-- A zip has no value where a side has none. -/
theorem valueAt_zip_of_missing (hl : l.Answers SoundL left KindL)
    (hr : r.Answers SoundR right KindR) {k : Key}
    (hmiss : l.valueAt left k = none ∨ r.valueAt right k = none) :
    (l.zip r).valueAt (l.zipEntries r left right) k = none := by
  obtain ⟨answer, hanswer, -⟩ := hl.gets k
  obtain ⟨answer', hanswer', -⟩ := hr.gets k
  have hboth : ((l.zip r).get? k).outcome = .ok (pairOf answer answer') :=
    outcome_getBoth hanswer hanswer'
  rw [valueAt_of_not_mem (not_mem_zipEntries_of_missing hmiss), hboth]
  cases hcontinuous : (l.zip r).continuous with
  | false => rfl
  | true =>
      obtain ⟨hcl, hcr⟩ := Bool.and_eq_true_iff.mp hcontinuous
      -- the side without a value has no entry there, and its lookup finds nothing
      rcases hmiss with hmiss | hmiss
      · have hnone := hmiss
        rw [valueAt_of_not_mem (not_mem_of_valueAt_eq_none hl.increasing hmiss), hcl, hanswer]
          at hnone
        obtain rfl : answer = none := hnone
        rfl
      · have hnone := hmiss
        rw [valueAt_of_not_mem (not_mem_of_valueAt_eq_none hr.increasing hmiss), hcr, hanswer']
          at hnone
        obtain rfl : answer' = none := hnone
        cases answer <;> rfl

/-- The value of a zip at a key is the pair of the values of its sides. -/
theorem valueAt_zip (hl : l.Answers SoundL left KindL) (hr : r.Answers SoundR right KindR)
    (k : Key) :
    (l.zip r).valueAt (l.zipEntries r left right) k =
      pairOf (l.valueAt left k) (r.valueAt right k) := by
  cases hv : l.valueAt left k with
  | none => exact valueAt_zip_of_missing hl hr (.inl hv)
  | some v =>
      cases hw : r.valueAt right k with
      | none => exact valueAt_zip_of_missing hl hr (.inr hw)
      | some w =>
          -- at a key of a side there is an entry of the zip, and elsewhere all values lie between
          by_cases hmem : k ∈ keysOf left ∨ k ∈ keysOf right
          · have hentry : (k, .pair v w) ∈ l.zipEntries r left right :=
              mem_zipEntries.mpr ⟨hmem, v, w, hv, hw, rfl⟩
            exact valueAt_of_mem (l.increasing_zipEntries r hl.increasing right) hentry
          · have hzip : k ∉ keysOf (l.zipEntries r left right) := by
              intro h
              obtain ⟨u, hu⟩ := mem_keysOf.mp h
              exact hmem (mem_zipEntries.mp hu).1
            obtain ⟨hleft, hright⟩ := not_or.mp hmem
            rw [valueAt_zip_between hl hr hleft hright hzip, hv, hw]

end Behaviour

namespace Tree

variable (sources : Sources)

/-- The keys of the entries of a tree. -/
def keys (t : Tree) : List Key := keysOf (t.entries sources)

/-- The value of a tree at a key, as the side of a zip. -/
def valueAt (t : Tree) (k : Key) : Option Value :=
  (t.behaviour sources).valueAt (t.entries sources) k

variable {sources} {a b c l r l' r' : Tree}

theorem valueAt_zip (hl : l.Total sources) (hr : r.Total sources) (k : Key) :
    (zip l r).valueAt sources k = pairOf (l.valueAt sources k) (r.valueAt sources k) :=
  Behaviour.valueAt_zip (answers sources hl) (answers sources hr) k

/-- The entries of a zip are its values at the keys of its sides. -/
theorem mem_entries_zip (hl : l.Total sources) (hr : r.Total sources) {e : Entry} :
    e ∈ (zip l r).entries sources ↔
      (e.1 ∈ l.keys sources ∨ e.1 ∈ r.keys sources) ∧
        (zip l r).valueAt sources e.1 = some e.2 := by
  rw [valueAt_zip hl hr, pairOf, Behaviour.pair_eq_some_iff]
  exact Behaviour.mem_zipEntries

/-- Where a zip has a value it has an entry exactly if a side has one. -/
theorem mem_keys_zip (hl : l.Total sources) (hr : r.Total sources) {k : Key} {v : Value}
    (hv : (zip l r).valueAt sources k = some v) :
    k ∈ (zip l r).keys sources ↔ k ∈ l.keys sources ∨ k ∈ r.keys sources := by
  constructor
  · intro hk
    obtain ⟨w, hw⟩ := mem_keysOf.mp hk
    exact ((mem_entries_zip hl hr).mp hw).1
  · intro hk
    exact mem_keysOf.mpr ⟨v, (mem_entries_zip hl hr).mpr ⟨hk, hv⟩⟩

/-- If the values of two zips correspond, and there are entries on their sides at the same keys, the
entries correspond. -/
theorem entries_zip_eq_map {f : Key → Value → Value} (hzip : (zip l r).Total sources)
    (hzip' : (zip l' r').Total sources)
    (hvalue : ∀ k, (zip l' r').valueAt sources k = ((zip l r).valueAt sources k).map (f k))
    (hkeys : ∀ k v, (zip l r).valueAt sources k = some v →
      (k ∈ l'.keys sources ∨ k ∈ r'.keys sources ↔ k ∈ l.keys sources ∨ k ∈ r.keys sources)) :
    (zip l' r').entries sources = ((zip l r).entries sources).map fun e => (e.1, f e.1 e.2) := by
  refine ((zip l' r').increasing_entries sources).eq_of_mem_iff
    (List.pairwise_map.mpr ((zip l r).increasing_entries sources)) ?_
  intro e
  rw [mem_entries_zip hzip'.1 hzip'.2, hvalue, List.mem_map]
  constructor
  · rintro ⟨hmem, hf⟩
    obtain ⟨v, hv, hfv⟩ := Option.map_eq_some_iff.mp hf
    have hentry : (e.1, v) ∈ (zip l r).entries sources :=
      (mem_entries_zip hzip.1 hzip.2).mpr ⟨(hkeys e.1 v hv).mp hmem, hv⟩
    exact ⟨(e.1, v), hentry, by rw [hfv]⟩
  · rintro ⟨d, hd, rfl⟩
    obtain ⟨hmem, hv⟩ := (mem_entries_zip hzip.1 hzip.2).mp hd
    exact ⟨(hkeys d.1 d.2 hv).mpr hmem, Option.map_eq_some_iff.mpr ⟨d.2, hv, rfl⟩⟩

/-- The point lookup of a zip finds the pair of what those of its sides find. -/
theorem outcome_get?_zip {k : Key} {answer answer' : Option Value}
    (hl : ((l.behaviour sources).get? k).outcome = .ok answer)
    (hr : ((r.behaviour sources).get? k).outcome = .ok answer') :
    (((zip l r).behaviour sources).get? k).outcome = .ok (pairOf answer answer') :=
  Behaviour.outcome_getBoth hl hr

/-- A zip is the image of the one with its sides swapped. -/
theorem image_swap (ha : a.Total sources) (hb : b.Total sources) :
    (zip a b).Image sources Value.swap (zip b a) where
  total := ⟨ha, hb⟩
  total_image := ⟨hb, ha⟩
  entries := by
    refine entries_zip_eq_map (f := fun _ => Value.swap) ⟨ha, hb⟩ ⟨hb, ha⟩ ?_
      fun k v _ => or_comm
    intro k
    rw [valueAt_zip ha hb, valueAt_zip hb ha, map_swap_pairOf]
  gets k := by
    obtain ⟨x, hx, -⟩ := (answers sources ha).gets k
    obtain ⟨y, hy, -⟩ := (answers sources hb).gets k
    rw [outcome_get?_zip hx hy, outcome_get?_zip hy hx, ← map_swap_pairOf x y]
    rfl
  continuous := Bool.and_comm _ _
  completed := Bool.and_comm _ _

/-- A zip of three trees is the image of the one that is nested the other way. -/
theorem image_regroup (ha : a.Total sources) (hb : b.Total sources) (hc : c.Total sources) :
    (zip (zip a b) c).Image sources Value.regroup (zip a (zip b c)) where
  total := ⟨⟨ha, hb⟩, hc⟩
  total_image := ⟨ha, hb, hc⟩
  entries := by
    have htotal : (zip a b).Total sources := ⟨ha, hb⟩
    have htotal' : (zip b c).Total sources := ⟨hb, hc⟩
    have hleft : ∀ k, (zip (zip a b) c).valueAt sources k =
        pairOf (pairOf (a.valueAt sources k) (b.valueAt sources k)) (c.valueAt sources k) := by
      intro k
      rw [valueAt_zip htotal hc, valueAt_zip ha hb]
    refine entries_zip_eq_map (f := fun _ => Value.regroup) ⟨htotal, hc⟩ ⟨ha, htotal'⟩ ?_ ?_
    · intro k
      rw [hleft, map_regroup_pairOf, valueAt_zip ha htotal', valueAt_zip hb hc]
    · intro k v hv
      rw [hleft] at hv
      -- all three have a value, so both inner zips have an entry where one of their sides has
      obtain ⟨u, w, huv, hw, -⟩ := Behaviour.pair_eq_some_iff.mp hv
      obtain ⟨x, y, hx, hy, -⟩ := Behaviour.pair_eq_some_iff.mp huv
      have hab : (zip a b).valueAt sources k = some (.pair x y) := by
        rw [valueAt_zip ha hb, hx, hy]
        rfl
      have hbc : (zip b c).valueAt sources k = some (.pair y w) := by
        rw [valueAt_zip hb hc, hy, hw]
        rfl
      rw [mem_keys_zip ha hb hab, mem_keys_zip hb hc hbc, or_assoc]
  gets k := by
    obtain ⟨x, hx, -⟩ := (answers sources ha).gets k
    obtain ⟨y, hy, -⟩ := (answers sources hb).gets k
    obtain ⟨z, hz, -⟩ := (answers sources hc).gets k
    rw [outcome_get?_zip hx (outcome_get?_zip hy hz), outcome_get?_zip (outcome_get?_zip hx hy) hz,
      ← map_regroup_pairOf x y z]
    rfl
  continuous := (Bool.and_assoc _ _ _).symm
  completed := (Bool.and_assoc _ _ _).symm

end Tree

namespace Cursor

/-! ## Zips of cursors -/

/-- Two zips look alike if both are ready or neither is: neither has moved. -/
theorem alike_zip (f : Value → Value) (made : Sources) {l r l' r' : Cursor}
    (hl : l.tree.Sound l.position) (hr : r.tree.Sound r.position)
    (hl' : l'.tree.Sound l'.position) (hr' : r'.tree.Sound r'.position)
    (hready : ((l'.state made).isReady && (r'.state made).isReady) =
      ((l.state made).isReady && (r.state made).isReady)) :
    (l.zip made r).Alike f (l'.zip made r') := by
  have hstate : (l'.zip made r').state made = (l.zip made r).state made := by
    show (if (l'.state made).isReady && (r'.state made).isReady then Stage.ready else .unready) = _
    rw [hready]
    rfl
  exact alike_of_nowhere (sound_zip made hl hr) (sound_zip made hl' hr') hstate ⟨rfl, rfl⟩
    ⟨rfl, rfl⟩

theorem isReady_state_zip (made : Sources) (l r : Cursor) :
    ((l.zip made r).state made).isReady =
      ((l.state made).isReady && (r.state made).isReady) :=
  isReady_ite _

/-- A zip cannot be told from the one with its sides swapped, but by the order of its pairs, nor a
zip of three from the one that is nested the other way, but by the nesting: however they are used,
whatever becomes of the sources in between, and whether or not any of the sides has values between
its keys. -/
theorem zip_rearranges {a b c : Cursor} (ha : a.Reachable) (hb : b.Reachable) (hc : c.Reachable)
    (made now : Sources) (used : List (Sources × Use))
    (htotal : ∀ s ∈ now :: used.map (·.1),
      a.tree.Total s ∧ b.tree.Total s ∧ c.tree.Total s) :
    (a.zip made b).Twins Value.swap used now (b.zip made a) ∧
      ((a.zip made b).zip made c).Twins Value.regroup used now (a.zip made (b.zip made c)) := by
  have hsa := sound_of_reachable ha
  have hsb := sound_of_reachable hb
  have hsc := sound_of_reachable hc
  constructor
  · have halike : (a.zip made b).Alike Value.swap (b.zip made a) :=
      alike_zip _ made hsa hsb hsb hsa (Bool.and_comm _ _)
    exact halike.twins fun s hs => Tree.image_swap (htotal s hs).1 (htotal s hs).2.1
  · have halike : ((a.zip made b).zip made c).Alike Value.regroup (a.zip made (b.zip made c)) := by
      refine alike_zip _ made (sound_zip made hsa hsb) hsc hsa (sound_zip made hsb hsc) ?_
      rw [isReady_state_zip, isReady_state_zip, Bool.and_assoc]
    exact halike.twins fun s hs =>
      Tree.image_regroup (htotal s hs).1 (htotal s hs).2.1 (htotal s hs).2.2

/-- Between the two moves the key at which the zips stand goes, and the key 5 comes. -/
theorem zip_rearranges_after_changes :
    (((ofSeries 1).carry.zip twoSeries (ofSeries 0)).uses
        [(twoSeries, .move .first), (changedSeries, .move .next)]).1 = [.ok true, .ok true] ∧
      ((((ofSeries 1).carry.zip twoSeries (ofSeries 0)).uses
        [(twoSeries, .move .first), (changedSeries, .move .next)]).2.value changedSeries).outcome =
        .ok (.pair (.int 20) (.int 50)) ∧
      ((((ofSeries 0).zip twoSeries ((ofSeries 1).carry.zip twoSeries
          ((ofSeries 0).fill (.int 0)))).uses
        [(twoSeries, .move .first), (changedSeries, .move .next)]).2.value changedSeries).outcome =
        .ok (.pair (.int 50) (.pair (.int 20) (.int 50))) := by
  obtain ⟨hswap, hregroup⟩ := zip_rearranges (a := ofSeries 0) (b := (ofSeries 1).carry)
    (c := (ofSeries 0).fill (.int 0)) (.ofSeries 0) (.carry (.ofSeries 1))
    (.fill (.int 0) (.ofSeries 0)) twoSeries changedSeries
    [(twoSeries, .move .first), (changedSeries, .move .next)]
    fun _ _ => ⟨trivial, trivial, trivial⟩
  exact ⟨hswap.answers.trans rfl, hswap.shows.value.trans rfl, hregroup.shows.value.trans rfl⟩

end Cursor

end LiveSeries
