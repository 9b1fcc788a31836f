import LiveSeries.Proofs.EntryList
import LiveSeries.Proofs.HubDeeds
import LiveSeries.Proofs.StoreEntries

/-!
# Entries that grow at the end

Some mutations only put entries behind those that a series holds (`Mutation.Appends`). If nothing
else happens to the series of a tree, and no part of the tree has values between its keys, then the
tree grows at the end as well (`Tree.common_prefix`). For a zip this is not plain: its two sides
grow at different speeds, and a key may be long past on one side when it appears on the other. It
holds since a key that appears is above all keys of the side on which it appears, and so above all
keys that the sides had in common (`prefix_of_later`).
-/

namespace LiveSeries

/-! ## Increasing lists -/

/-- An increasing list begins with another if it has all of its entries, and only greater ones
besides. -/
theorem prefix_of_later {old new : List Entry} (hold : Increasing old) (hnew : Increasing new)
    (hsub : ∀ e ∈ old, e ∈ new) (hlater : ∀ e ∈ new, e ∉ old → ∀ d ∈ old, d.1 < e.1) :
    old <+: new := by
  -- the new list is the old one with the others behind it
  have hincreasing : Increasing (old ++ new.filter fun e => e ∉ old) := by
    refine List.pairwise_append.mpr ⟨hold, hnew.filter _, ?_⟩
    intro d hd e he
    obtain ⟨hmem, hnot⟩ := List.mem_filter.mp he
    exact hlater e hmem (of_decide_eq_true hnot) d hd
  have hmem : ∀ e, e ∈ old ++ (new.filter fun e => e ∉ old) ↔ e ∈ new := by
    intro e
    by_cases he : e ∈ old
    · simp [he, hsub e he]
    · simp [he]
  exact ⟨_, hincreasing.eq_of_mem_iff hnew hmem⟩

/-- What an increasing list has beyond its beginning is greater. -/
theorem later_of_prefix {old new : List Entry} (hnew : Increasing new) (hbegins : old <+: new)
    {e : Entry} (he : e ∈ new) (hnot : e ∉ old) : ∀ d ∈ old, d.1 < e.1 := by
  obtain ⟨rest, rfl⟩ := hbegins
  intro d hd
  have hrest : e ∈ rest := (List.mem_append.mp he).resolve_left hnot
  exact (List.pairwise_append.mp hnew).2.2 d hd e hrest

/-! ## Trees without values between their keys -/

namespace Tree

/-- Only operations, functions and zips over series. -/
def Discrete : Tree → Prop
  | .series _ => True
  | .op t _ => t.Discrete
  | .map t _ => t.Discrete
  | .zip l r => l.Discrete ∧ r.Discrete
  | .carry _ | .fill _ _ | .refuse _ => False

theorem Discrete.plain {t : Tree} (h : t.Discrete) : t.Plain := by
  induction t with
  | series id => trivial
  | op t o ih => exact ih h
  | map t f ih => exact ih h
  | zip l r ihl ihr => exact ⟨ihl h.1, ihr h.2⟩
  | carry t ih => exact h.elim
  | fill t otherwise ih => exact h.elim
  | refuse t ih => exact h.elim

/-- The entries of a tree, with the keys that both sides have in common for a zip. -/
def common (sources : Sources) : Tree → List Entry
  | .series id => (sources id).store.entries
  | .op t o => (t.common sources).map fun e => (e.1, resultOf (o.apply e.2).outcome)
  | .map t f => (t.common sources).map fun e => (e.1, resultOf (f e.1 e.2))
  | .zip l r => (l.common sources).filterMap fun e =>
      ((r.common sources).lookup e.1).map fun w => (e.1, .pair e.2 w)
  | .carry t => t.common sources
  | .fill t _ => t.common sources
  | .refuse t => t.common sources

variable {sources sources' : Sources}

theorem increasing_common (t : Tree) : Increasing (t.common sources) := by
  induction t with
  | series id => exact (sources id).store.increasing
  | op t o ih => exact List.pairwise_map.mpr ih
  | map t f ih => exact List.pairwise_map.mpr ih
  | zip l r ihl ihr =>
      refine List.Pairwise.filterMap _ ?_ ihl
      intro d e hlt a ha b hb
      obtain ⟨_, _, rfl⟩ := Option.map_eq_some_iff.mp ha
      obtain ⟨_, _, rfl⟩ := Option.map_eq_some_iff.mp hb
      exact hlt
  | carry t ih => exact ih
  | fill t otherwise ih => exact ih
  | refuse t ih => exact ih

/-- The entries of a zip are the pairs at the common keys of its sides. -/
theorem mem_common_zip {l r : Tree} {e : Entry} :
    e ∈ (l.zip r).common sources ↔ ∃ v w,
      (e.1, v) ∈ l.common sources ∧ (e.1, w) ∈ r.common sources ∧ e.2 = .pair v w := by
  rw [common, List.mem_filterMap]
  constructor
  · rintro ⟨d, hd, he⟩
    obtain ⟨w, hw, rfl⟩ := Option.map_eq_some_iff.mp he
    exact ⟨d.2, w, hd, (lookup_eq_some_iff_mem r.increasing_common).mp hw, rfl⟩
  · rintro ⟨v, w, hv, hw, hpair⟩
    refine ⟨(e.1, v), hv, ?_⟩
    rw [(lookup_eq_some_iff_mem r.increasing_common).mpr hw, Option.map_some, ← hpair]

/-- The value of a side that has none between its keys is that of its entry. -/
theorem valueAt_of_discrete {σ : Type} {b : Behaviour σ} (hb : b.continuous = false)
    {entries : List Entry} (hinc : Increasing entries) {k : Key} {v : Value} :
    b.valueAt entries k = some v ↔ (k, v) ∈ entries := by
  rw [← lookup_eq_some_iff_mem hinc, Behaviour.valueAt, hb]
  cases entries.lookup k <;> simp

theorem continuous_of_discrete {t : Tree} (h : t.Discrete) :
    (t.behaviour sources).continuous = false := by
  induction t with
  | series id => rfl
  | op t o ih => exact ih h
  | map t f ih => exact ih h
  | zip l r ihl ihr => exact Bool.and_eq_false_iff.mpr (.inl (ihl h.1))
  | carry t ih => exact h.elim
  | fill t otherwise ih => exact h.elim
  | refuse t ih => exact h.elim

/-- Without values between the keys these are all the entries that there are. -/
theorem entries_eq_common {t : Tree} (h : t.Discrete) : t.entries sources = t.common sources := by
  induction t with
  | series id => rfl
  | op t o ih => rw [entries, common, ih h]
  | map t f ih => rw [entries, common, ih h]
  | zip l r ihl ihr =>
      have hleft : (l.behaviour sources).continuous = false := continuous_of_discrete h.1
      have hright : (r.behaviour sources).continuous = false := continuous_of_discrete h.2
      refine (increasing_entries sources (l.zip r)).eq_of_mem_iff
        (l.zip r).increasing_common fun e => ?_
      rw [entries, Behaviour.mem_zipEntries, mem_common_zip, ← ihl h.1, ← ihr h.2]
      simp only [valueAt_of_discrete hleft (l.increasing_entries sources),
        valueAt_of_discrete hright (r.increasing_entries sources)]
      constructor
      · exact fun hboth => hboth.2
      · rintro ⟨v, w, hv, hw, hpair⟩
        exact ⟨.inl (mem_keysOf.mpr ⟨v, hv⟩), v, w, hv, hw, hpair⟩
  | carry t ih => exact h.elim
  | fill t otherwise ih => exact h.elim
  | refuse t ih => exact h.elim

/-- If the series grow at their ends, the tree does. -/
theorem common_prefix {t : Tree} (h : ∀ id ∈ t.leaves,
    (sources id).store.entries <+: (sources' id).store.entries) :
    t.common sources <+: t.common sources' := by
  induction t with
  | series id => exact h id (List.mem_singleton_self id)
  | op t o ih => exact (ih h).map _
  | map t f ih => exact (ih h).map _
  | zip l r ihl ihr =>
      have hl := ihl fun id hid => h id (List.mem_append_left _ hid)
      have hr := ihr fun id hid => h id (List.mem_append_right _ hid)
      refine prefix_of_later (l.zip r).increasing_common (l.zip r).increasing_common ?_ ?_
      · intro e he
        obtain ⟨v, w, hv, hw, hpair⟩ := mem_common_zip.mp he
        exact mem_common_zip.mpr ⟨v, w, hl.subset hv, hr.subset hw, hpair⟩
      · -- a key that appears in the zip has appeared on one of its sides
        intro e he hnot d hd
        obtain ⟨v, w, hv, hw, hpair⟩ := mem_common_zip.mp he
        obtain ⟨v', w', hv', hw', -⟩ := mem_common_zip.mp hd
        by_cases hold : (e.1, v) ∈ l.common sources
        · have hnew : (e.1, w) ∉ r.common sources := fun hold' =>
            hnot (mem_common_zip.mpr ⟨v, w, hold, hold', hpair⟩)
          exact later_of_prefix r.increasing_common hr hw hnew (d.1, w') hw'
        · exact later_of_prefix l.increasing_common hl hv hold (d.1, v') hv'
  | carry t ih => exact ih h
  | fill t otherwise ih => exact ih h
  | refuse t ih => exact ih h

end Tree

/-! ## Mutations that append -/

/-- The mutation puts entries behind those that are stored, and overwrites none; or it completes the
series. -/
def Mutation.Appends : Mutation → Prop
  | .addLast _ _ | .append _ .reject | .append _ .acceptEqual | .complete => True
  | _ => False

/-- A write leaves the store as it is, or makes of it what its function says. -/
theorem Series.store_write {α : Type} (s : Series) (f : Store → Except Refusal (Change α)) :
    (s.write f).series.store = s.store ∨
      ∃ a store, f s.store = .ok (a, some store) ∧ (s.write f).series.store = store := by
  unfold write
  split
  · exact .inl rfl
  · split
    · exact .inl rfl
    · exact .inl rfl
    · next a store hchange => exact .inr ⟨a, store, hchange, rfl⟩

/-- If what a function makes of a store begins with it, so does what its write leaves. -/
theorem Series.prefix_write {α : Type} {s : Series} {f : Store → Except Refusal (Change α)}
    (h : ∀ a store, f s.store = .ok (a, some store) → s.store.entries <+: store.entries) :
    s.store.entries <+: (s.write f).series.store.entries := by
  rcases s.store_write f with hsame | ⟨a, store, hchange, hstore⟩
  · simp only [hsame, List.prefix_rfl]
  · rw [hstore]
    exact h a store hchange

theorem Store.prefix_append_reject {s : Store} {entries : List Entry} (hinc : Increasing entries)
    {n : Nat} {store : Store} (h : s.append entries .reject = .ok (n, some store)) :
    s.entries <+: store.entries := by
  cases entries with
  | nil => cases h
  | cons e rest =>
      simp only [append] at h
      split at h
      · cases h
      · next hreaches =>
          have hbeyond : s.beyond (e :: rest) = e :: rest := List.dropWhile_cons_of_neg hreaches
          have hall := s.increasing_append_beyond hinc
          rw [hbeyond] at hall
          cases h
          rw [entries_insertAll hall]
          exact List.prefix_append _ _

theorem Store.prefix_append_acceptEqual {s : Store} {entries : List Entry}
    (hinc : Increasing entries) {n : Nat} {store : Store}
    (h : s.append entries .acceptEqual = .ok (n, some store)) : s.entries <+: store.entries := by
  obtain ⟨change, hchange, hentries⟩ :=
    append_acceptEqual_of_repeats hinc (repeats_of_append_acceptEqual h)
  obtain rfl : change = (n, some store) := Except.ok.inj (hchange.symm.trans h)
  exact ⟨_, hentries.symm⟩

theorem Series.prefix_addLast (s : Series) (k : Key) (v : Value) :
    s.store.entries <+: (s.addLast k v).series.store.entries := by
  refine prefix_write fun a store h => ?_
  split at h
  · cases h
  · next hreaches =>
      cases h
      have habove := s.store.reaches_eq_false_iff.mp (Bool.eq_false_iff.mpr hreaches)
      rw [Store.entries_insert habove]
      exact List.prefix_append _ _

theorem Series.prefix_append {s : Series} {option : OverlapRule}
    (hoption : option = .reject ∨ option = .acceptEqual) (entries : List Entry) :
    s.store.entries <+: (s.append entries option).series.store.entries := by
  unfold append
  split
  · next hincreases =>
      have hinc := increases_iff.mp hincreases
      refine prefix_write fun n store h => ?_
      rcases hoption with rfl | rfl
      · exact Store.prefix_append_reject hinc h
      · exact Store.prefix_append_acceptEqual hinc h
  · exact List.prefix_rfl

theorem Series.store_complete (s : Series) : s.complete.series.store = s.store := by
  unfold complete
  split <;> rfl

/-- After such a mutation a series still begins with what it held. -/
theorem Mutation.Appends.prefix_write {m : Mutation} (h : m.Appends) (s : Series) :
    s.store.entries <+: (m.write s).series.store.entries := by
  match m, h with
  | .addLast k v, _ => exact s.prefix_addLast k v
  | .append entries .reject, _ => exact s.prefix_append (.inl rfl) entries
  | .append entries .acceptEqual, _ => exact s.prefix_append (.inr rfl) entries
  | .complete, _ =>
      show _ <+: s.complete.series.store.entries
      simp only [s.store_complete, List.prefix_rfl]

namespace Hub

/-- The deed leaves the given series alone, or puts entries behind those that they hold. -/
def Deed.Appends (ids : List SourceId) : Deed → Prop
  | .change id m => id ∈ ids → m.Appends
  | _ => True

theorem SameData.prefix_store {h h' : Hub} (hsame : h.SameData h') (id : SourceId) :
    (h.sources id).store.entries <+: (h'.sources id).store.entries := by
  simp only [hsame.store id, List.prefix_rfl]

theorem Deed.Appends.prefix_store {ids : List SourceId} {d : Deed} (hd : d.Appends ids) {h : Hub}
    {id : SourceId} (hid : id ∈ ids) (hlt : id < h.series.length) :
    (h.sources id).store.entries <+: ((d.run h).sources id).store.entries := by
  cases d with
  | newSeries s =>
      show _ <+: ((h.newSeries s).2.sources id).store.entries
      simp only [sources_newSeries h s hlt, List.prefix_rfl]
  | newTarget t => exact List.prefix_rfl
  | newToken => exact List.prefix_rfl
  | change i m =>
      have hstore := congrArg Prod.fst (visible_change h i (m.write (h.sources i)) id)
      show _ <+: ((h.change i (m.write (h.sources i))).sources id).visible.1.entries
      rw [hstore]
      split
      · next hi =>
          obtain ⟨rfl, -⟩ := hi
          exact (hd hid).prefix_write _
      · exact List.prefix_rfl
  | subscribe rid t => exact (h.sameData_subscribe rid t).prefix_store id
  | unsubscribe s => exact (h.sameData_unsubscribe s).prefix_store id
  | request s n => exact (h.sameData_request s n).prefix_store id
  | setWaiter t x => exact List.prefix_rfl
  | wake t => exact List.prefix_rfl
  | cancel token => exact List.prefix_rfl

end Hub

end LiveSeries
