import LiveSeries.Proofs.EntryList
import LiveSeries.Proofs.SeriesEdits
import LiveSeries.Proofs.StoreEntries

/-!
# Stores as sorted maps

What the calls on a series do is told by a finite map. The map is the list of its entries in the
order of their keys, and every call is told on that list by filters, counts and lookups
(`Edit.onMap`), with nothing of how a store cuts its entries or takes appended ones in runs. That a
store does the same is one equation (`Edit.change_eq_onMap`).

Entries that are moved are counted, and so the map says as well when nothing was changed: a removal
that finds nothing and an append that adds and drops nothing leave no other map.
-/

namespace LiveSeries

/-! ## Finite maps -/

/-- The entry lies above all entries of the map. -/
def Above (m : List Entry) (d : Entry) : Prop := ∀ e ∈ m, e.1 < d.1

instance (m : List Entry) (d : Entry) : Decidable (Above m d) :=
  inferInstanceAs (Decidable (∀ e ∈ m, e.1 < d.1))

/-- The map with a value at a key. -/
def put (m : List Entry) (k : Key) (v : Value) : List Entry :=
  (m.filter fun e => e.1 < k) ++ (k, v) :: m.filter fun e => k < e.1

/-- The entries afterwards, if any were put in or taken away. -/
def ifMoved (count : Nat) (m : List Entry) : Option (List Entry) :=
  if 0 < count then some m else none

namespace Edit

/-- An append to a map: the answer, and the entries afterwards if any were moved. -/
def appendOnMap (m entries : List Entry) : OverlapRule →
    Except Refusal (Nat × Option (List Entry))
  | .reject =>
    if ∀ d ∈ entries, Above m d then
      .ok (entries.length, ifMoved entries.length (m ++ entries))
    else .error .overlap
  | .acceptEqual =>
    if ∀ d ∈ entries, Above m d ∨ (m.lookup d.1).any (fun v => v.equals d.2) = true then
      let fresh := entries.filter fun d => Above m d
      .ok (fresh.length, ifMoved fresh.length (m ++ fresh))
    else .error .overlap
  | .dropOld =>
    let kept := m.filter fun e => ∀ d ∈ entries, e.1 < d.1
    .ok (entries.length, ifMoved (entries.length + (m.length - kept.length)) (kept ++ entries))

/-- A call on a map: the answer, and the entries afterwards if any were moved. -/
def onMap (m : List Entry) : (e : Edit) → Except Refusal (e.Answer × Option (List Entry))
  | .set k v => .ok (m.lookup k, some (put m k v))
  | .add k v => if k ∈ keysOf m then .error .keyExists else .ok ((), some (put m k v))
  | .tryAdd k v => if k ∈ keysOf m then .ok (false, none) else .ok (true, some (put m k v))
  | .addFirst k v =>
    if ∀ e ∈ m, k < e.1 then .ok ((), some (put m k v)) else .error .outOfOrder
  | .addLast k v => if Above m (k, v) then .ok ((), some (put m k v)) else .error .outOfOrder
  | .remove k =>
    .ok (m.lookup k, ifMoved (m.countP fun e => e.1 = k) (m.filter fun e => e.1 ≠ k))
  | .removeMany k lookup =>
    let count := m.countP fun e => lookup.Admits k e.1
    .ok (count, ifMoved count (m.filter fun e => ¬ lookup.Admits k e.1))
  | .append entries option =>
    if Increasing entries then appendOnMap m entries option else .error .outOfOrder

end Edit

/-- A key lies below increasing entries if it lies below the first. -/
theorem Increasing.forall_lt_iff {first : Entry} {rest : List Entry}
    (h : Increasing (first :: rest)) (k : Key) :
    (∀ d ∈ first :: rest, k < d.1) ↔ k < first.1 := by
  constructor
  · exact fun hall => hall first List.mem_cons_self
  · intro hlt d hd
    rcases List.mem_cons.mp hd with rfl | hd
    · exact hlt
    · exact Key.lt_trans hlt ((List.pairwise_cons.mp h).1 d hd)

/-! ## Stores as maps -/

/-- What was made of a store, with the entries in place of the new store. -/
def Change.entries {α : Type} (c : Change α) : α × Option (List Entry) :=
  (c.1, c.2.map Store.entries)

namespace Store

variable (s : Store)

theorem get?_eq_lookup (k : Key) : s.get? k = s.entries.lookup k :=
  Option.ext fun _ => (s.get?_eq_some_iff).trans (lookup_eq_some_iff_mem s.increasing).symm

theorem isSome_get?_iff (k : Key) : (s.get? k).isSome = true ↔ k ∈ keysOf s.entries := by
  rw [Option.isSome_iff_exists, mem_keysOf]
  simp only [s.get?_eq_some_iff]

theorem cut_below_eq_filter (k : Key) : (s.cut k).below = s.entries.filter fun e => e.1 < k := by
  refine Increasing.eq_of_mem_iff (increasing_below s.increasing) (s.increasing.filter _) ?_
  intro e
  rw [List.mem_filter, decide_eq_true_eq]
  exact s.mem_cut_below_iff

theorem cut_above_eq_filter (k : Key) : (s.cut k).above = s.entries.filter fun e => k < e.1 := by
  refine Increasing.eq_of_mem_iff (increasing_above s.increasing) (s.increasing.filter _) ?_
  intro e
  rw [List.mem_filter, decide_eq_true_eq]
  exact s.mem_cut_above_iff

theorem entries_insert_eq_put (k : Key) (v : Value) :
    (s.insert k v).2.entries = put s.entries k v := by
  show (s.cut k).below ++ [(k, v)] ++ (s.cut k).above = _
  rw [s.cut_below_eq_filter, s.cut_above_eq_filter, List.append_assoc]
  rfl

theorem entries_sweep (k : Key) (lookup : Lookup) :
    (s.sweep k lookup).entries = s.entries.filter fun e => ¬ lookup.Admits k e.1 :=
  (s.sweep k lookup).increasing.eq_of_mem_iff (s.increasing.filter _) fun e => by
    simp [mem_sweep_iff]

/-- A removal answers how many entries its lookup admits. -/
theorem removeMany_count (k : Key) (lookup : Lookup) :
    (s.removeMany k lookup).1 = s.entries.countP fun e => lookup.Admits k e.1 := by
  have hsplit := List.length_eq_countP_add_countP (fun e : Entry => decide (lookup.Admits k e.1))
    (l := s.entries)
  have hrest : (s.sweep k lookup).entries.length =
      s.entries.countP fun e => ¬ lookup.Admits k e.1 := by
    rw [entries_sweep, List.countP_eq_length_filter]
  -- the entries that are left and those that are counted make up all of them
  show s.entries.length - (s.sweep k lookup).entries.length = _
  rw [hrest]
  simp only [decide_not, Bool.decide_eq_true] at hsplit ⊢
  omega

/-- A key lies below all that is stored if it lies below the first key. -/
theorem forall_lt_iff_first (k : Key) :
    (∀ e ∈ s.entries, k < e.1) ↔ ∀ first, s.first? = some first → k < first.1 := by
  obtain ⟨entries, hinc⟩ := s
  cases entries with
  | nil => simp [first?]
  | cons first rest =>
      rw [hinc.forall_lt_iff k]
      constructor
      · rintro hlt _ ⟨⟩
        exact hlt
      · exact fun h => h first rfl

/-- What a store reaches does not lie above it. -/
theorem not_above_of_mem_reached {entries : List Entry} {d : Entry} (hd : d ∈ s.reached entries) :
    ¬ Above s.entries d := by
  have hreaches : s.reaches d.1 = true := List.all_eq_true.mp List.all_takeWhile d hd
  intro habove
  rw [s.reaches_eq_false_iff.mpr habove] at hreaches
  cases hreaches

/-- What a store does not reach of increasing entries lies above it. -/
theorem beyond_eq_filter {entries : List Entry} (hinc : Increasing entries) :
    s.beyond entries = entries.filter fun d => Above s.entries d := by
  have hbeyond : Increasing (s.beyond entries) := hinc.sublist (List.dropWhile_sublist _)
  refine hbeyond.eq_of_mem_iff (hinc.filter _) fun d => ?_
  rw [List.mem_filter, decide_eq_true_eq]
  constructor
  · intro hd
    exact ⟨(List.dropWhile_sublist _).subset hd, fun e he =>
      (List.pairwise_append.mp (s.increasing_append_beyond hinc)).2.2 e he d hd⟩
  · rintro ⟨hd, habove⟩
    rw [← s.reached_append_beyond entries] at hd
    rcases List.mem_append.mp hd with hreached | hbeyond
    · exact absurd habove (s.not_above_of_mem_reached hreached)
    · exact hbeyond

theorem repeats_eq (d : Entry) :
    s.repeats d = (s.entries.lookup d.1).any fun v => v.equals d.2 := by
  rw [repeats, s.get?_eq_lookup]
  cases s.entries.lookup d.1 <;> rfl

/-- What a store reaches of increasing entries does not lie above it, so only that has to be
repeated. -/
theorem all_repeats_iff {entries : List Entry} (hinc : Increasing entries) :
    (s.reached entries).all s.repeats = true ↔ ∀ d ∈ entries,
      Above s.entries d ∨ ((s.entries.lookup d.1).any fun v => v.equals d.2) = true := by
  rw [List.all_eq_true]
  constructor
  · intro h d hd
    rw [← s.reached_append_beyond entries] at hd
    rcases List.mem_append.mp hd with hreached | hbeyond
    · rw [← s.repeats_eq]
      exact .inr (h d hreached)
    · rw [s.beyond_eq_filter hinc] at hbeyond
      exact .inl (of_decide_eq_true (List.mem_filter.mp hbeyond).2)
  · intro h d hd
    have hmem : d ∈ entries := (List.takeWhile_sublist _).subset hd
    rcases h d hmem with habove | hrepeats
    · exact absurd habove (s.not_above_of_mem_reached hd)
    · rw [s.repeats_eq]
      exact hrepeats

/-! ### Appends -/

/-- An append of increasing entries above all that is stored puts them at the end. -/
theorem entries_insertAll_of_above {entries : List Entry} (hinc : Increasing entries)
    (habove : ∀ d ∈ entries, Above s.entries d) :
    (s.insertAll entries).entries = s.entries ++ entries :=
  entries_insertAll (List.pairwise_append.mpr
    ⟨s.increasing, hinc, fun e he d hd => habove d hd e he⟩)

theorem append_reject_eq_onMap {entries : List Entry} (hinc : Increasing entries) :
    (s.append entries .reject).map Change.entries =
      Edit.appendOnMap s.entries entries .reject := by
  cases entries with
  | nil => rfl
  | cons first rest =>
      have hcheck : (∀ d ∈ first :: rest, Above s.entries d) ↔ s.reaches first.1 = false := by
        rw [s.reaches_eq_false_iff]
        constructor
        · exact fun h => h first List.mem_cons_self
        · exact fun h d hd e he => (hinc.forall_lt_iff e.1).mpr (h e he) d hd
      rw [append, Edit.appendOnMap]
      cases hreaches : s.reaches first.1 with
      | true =>
          have hnot : ¬ ∀ d ∈ first :: rest, Above s.entries d := by
            rw [hcheck, hreaches]
            decide
          rw [if_neg hnot]
          rfl
      | false =>
          have habove := hcheck.mpr hreaches
          have hmoved : 0 < (first :: rest).length := Nat.succ_pos _
          rw [if_pos habove, ifMoved, if_pos hmoved, ← s.entries_insertAll_of_above hinc habove]
          rfl

theorem append_acceptEqual_eq_onMap {entries : List Entry} (hinc : Increasing entries) :
    (s.append entries .acceptEqual).map Change.entries =
      Edit.appendOnMap s.entries entries .acceptEqual := by
  have hentries := entries_insertAll (s.increasing_append_beyond hinc)
  have hcheck := s.all_repeats_iff hinc
  have hfilter := s.beyond_eq_filter hinc
  rw [Edit.appendOnMap, ← hfilter]
  cases entries with
  | nil => rfl
  | cons first rest =>
      -- the two runs that the append takes the entries apart into, by their names
      show (if (s.reached (first :: rest)).all s.repeats then
          .ok ((s.beyond (first :: rest)).length, if (s.beyond (first :: rest)).isEmpty then none
            else some (s.insertAll (s.beyond (first :: rest))))
        else .error .overlap : Except Refusal (Change Nat)).map _ = _
      by_cases hrepeats : (s.reached (first :: rest)).all s.repeats = true
      · rw [if_pos hrepeats, if_pos (hcheck.mp hrepeats)]
        cases hbeyond : s.beyond (first :: rest) with
        | nil => rfl
        | cons d others =>
            rw [hbeyond] at hentries
            have hmoved : 0 < (d :: others).length := Nat.succ_pos _
            show Except.ok ((d :: others).length, some (s.insertAll (d :: others)).entries) = _
            rw [hentries]
            exact congrArg (fun moved => Except.ok ((d :: others).length, moved))
              (if_pos hmoved).symm
      · rw [if_neg hrepeats, if_neg fun h => hrepeats (hcheck.mpr h)]
        rfl

theorem append_dropOld_eq_onMap {entries : List Entry} (hinc : Increasing entries) :
    (s.append entries .dropOld).map Change.entries =
      Edit.appendOnMap s.entries entries .dropOld := by
  cases entries with
  | nil =>
      have hkept : (s.entries.filter fun e => ∀ d ∈ ([] : List Entry), e.1 < d.1) = s.entries :=
        List.filter_eq_self.mpr fun e _ => decide_eq_true nofun
      rw [Edit.appendOnMap, hkept, ifMoved, List.length_nil, Nat.sub_self]
      rfl
  | cons first rest =>
      -- what stays lies below the first of the new entries, and so below all of them
      have hbelow : ∀ e : Entry, (∀ d ∈ first :: rest, e.1 < d.1) ↔ ¬ first.1 ≤ e.1 := by
        intro e
        rw [Key.not_le]
        exact hinc.forall_lt_iff e.1
      have hkept : (s.sweep first.1 .ge).entries =
          s.entries.filter fun e => ∀ d ∈ first :: rest, e.1 < d.1 := by
        rw [entries_sweep]
        exact List.filter_congr fun e _ => decide_eq_decide.mpr (hbelow e).symm
      have habove : ∀ d ∈ first :: rest, Above (s.sweep first.1 .ge).entries d := by
        intro d hd e he
        rw [hkept] at he
        exact of_decide_eq_true (List.mem_filter.mp he).2 d hd
      have hmoved : 0 < (first :: rest).length +
          (s.entries.length - (s.sweep first.1 .ge).entries.length) :=
        Nat.add_pos_left (Nat.succ_pos _) _
      rw [Edit.appendOnMap, ← hkept, ifMoved, if_pos hmoved,
        ← entries_insertAll_of_above _ hinc habove]
      rfl

/-- An append answers what it answers on the map, and leaves the entries that it leaves there. -/
theorem append_eq_onMap {entries : List Entry} (hinc : Increasing entries) (option : OverlapRule) :
    (s.append entries option).map Change.entries =
      Edit.appendOnMap s.entries entries option := by
  cases option with
  | reject => exact s.append_reject_eq_onMap hinc
  | dropOld => exact s.append_dropOld_eq_onMap hinc
  | acceptEqual => exact s.append_acceptEqual_eq_onMap hinc

end Store

namespace Edit

/-- Every call does to a store what it does to the map of its entries. -/
theorem change_eq_onMap (s : Store) (e : Edit) :
    (e.change s).map Change.entries = e.onMap s.entries := by
  cases e with
  | set k v =>
      show Except.ok (s.get? k, some (s.insert k v).2.entries) = _
      rw [s.get?_eq_lookup, s.entries_insert_eq_put]
      rfl
  | add k v =>
      simp only [change, onMap, s.isSome_get?_iff, ← s.entries_insert_eq_put]
      split <;> rfl
  | tryAdd k v =>
      simp only [change, onMap, s.isSome_get?_iff, ← s.entries_insert_eq_put]
      split <;> rfl
  | addFirst k v =>
      have hcheck := s.forall_lt_iff_first k
      rw [onMap, ← s.entries_insert_eq_put, change]
      cases hfirst : s.first? with
      | none =>
          rw [hfirst] at hcheck
          have hbelow := hcheck.mpr fun first h => (Option.some_ne_none first h.symm).elim
          rw [if_pos hbelow]
          rfl
      | some first =>
          rw [hfirst] at hcheck
          by_cases hlt : k < first.1
          · have hall : ∀ e ∈ s.entries, k < e.1 := hcheck.mpr fun _ h => Option.some.inj h ▸ hlt
            rw [if_pos hall]
            simp only [if_pos hlt]
            rfl
          · have hnot : ¬ ∀ e ∈ s.entries, k < e.1 := fun hall => hlt (hcheck.mp hall first rfl)
            rw [if_neg hnot]
            simp only [if_neg hlt]
            rfl
  | addLast k v =>
      have hcheck : s.reaches k = false ↔ Above s.entries (k, v) := s.reaches_eq_false_iff
      rw [onMap, ← s.entries_insert_eq_put, change]
      cases hreaches : s.reaches k with
      | true =>
          have hnot : ¬ Above s.entries (k, v) := by
            rw [← hcheck, hreaches]
            decide
          rw [if_neg hnot]
          rfl
      | false =>
          rw [if_pos (hcheck.mp hreaches)]
          rfl
  | remove k =>
      -- an erasure is the removal of the one key
      have hfilter : (s.erase k).2.entries = s.entries.filter fun e => e.1 ≠ k :=
        s.entries_sweep k .eq
      have hcount : (s.get? k).isSome = true ↔ 0 < s.entries.countP fun e => e.1 = k := by
        rw [s.isSome_get?_iff, List.countP_pos_iff, keysOf, List.mem_map]
        simp
      rw [onMap, change, ← hfilter, ifMoved, ← s.get?_eq_lookup]
      simp only [hcount]
      split <;> rfl
  | removeMany k lookup =>
      have hfilter : (s.removeMany k lookup).2.entries =
          s.entries.filter fun e => ¬ lookup.Admits k e.1 := s.entries_sweep k lookup
      rw [onMap, change, ← hfilter, ifMoved, ← s.removeMany_count]
      by_cases hmoved : 0 < (s.removeMany k lookup).1
      · rw [if_pos hmoved, if_pos hmoved]
        rfl
      · rw [if_neg hmoved, if_neg hmoved]
        rfl
  | append entries option =>
      by_cases hinc : Increasing entries
      · have hchange : change s (append entries option) = s.append entries option :=
          if_pos (increases_iff.mpr hinc)
        have honMap : onMap s.entries (append entries option) =
            appendOnMap s.entries entries option := if_pos hinc
        rw [hchange, honMap]
        exact s.append_eq_onMap hinc option
      · have hchange : change s (append entries option) = .error .outOfOrder :=
          if_neg fun h => hinc (increases_iff.mp h)
        have honMap : onMap s.entries (append entries option) = .error .outOfOrder := if_neg hinc
        rw [hchange, honMap]
        rfl

end Edit

end LiveSeries
