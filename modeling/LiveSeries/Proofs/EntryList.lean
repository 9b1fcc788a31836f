import LiveSeries.Cursor
import LiveSeries.Proofs.Nearest

/-!
# The entries of a tree

The entries of a tree over given sources, by recursion on the tree. A series has the entries it
stores; an operation or a function changes their values; a zip has the keys of its two sides at
which both sides have a value. A side has a value at the keys of its entries and, if it is
continuous, wherever it answers a point lookup.

The list says nothing about positions or searches. It increases strictly (`increasing_entries`).
-/

namespace LiveSeries

/-- What came out of a computation; something arbitrary where it faulted. -/
def resultOf {α : Type} [Inhabited α] : Except Fault α → α
  | .ok a => a
  | .error _ => default

@[simp] theorem resultOf_ok {α : Type} [Inhabited α] (a : α) : resultOf (.ok a) = a := rfl

/-! ## Unions of keys -/

/-- Increasing keys with one more key. -/
def insertKey (k : Key) : List Key → List Key
  | [] => [k]
  | x :: rest =>
    if k < x then k :: x :: rest
    else if k = x then x :: rest
    else x :: insertKey k rest

/-- The keys of two lists in their order. -/
def unionKeys (ks : List Key) : List Key → List Key
  | [] => ks
  | m :: ms => insertKey m (unionKeys ks ms)

theorem mem_insertKey {k x : Key} {ks : List Key} : x ∈ insertKey k ks ↔ x = k ∨ x ∈ ks := by
  induction ks with
  | nil => simp [insertKey]
  | cons y rest ih =>
      rw [insertKey]
      split
      · simp
      · split
        · next heq => subst heq; simp
        · rw [List.mem_cons, ih, List.mem_cons, or_left_comm]

theorem mem_unionKeys {x : Key} {ks ms : List Key} : x ∈ unionKeys ks ms ↔ x ∈ ks ∨ x ∈ ms := by
  induction ms with
  | nil => simp [unionKeys]
  | cons m ms ih => rw [unionKeys, mem_insertKey, ih, List.mem_cons, or_left_comm]

theorem pairwise_insertKey {k : Key} {ks : List Key} (h : ks.Pairwise (· < ·)) :
    (insertKey k ks).Pairwise (· < ·) := by
  induction ks with
  | nil => simp [insertKey]
  | cons y rest ih =>
      obtain ⟨hy, hrest⟩ := List.pairwise_cons.mp h
      rw [insertKey]
      split
      · next hlt =>
          refine List.pairwise_cons.mpr ⟨?_, h⟩
          intro x hx
          rcases List.mem_cons.mp hx with rfl | hx
          · exact hlt
          · exact Key.lt_trans hlt (hy x hx)
      · next hlt =>
          split
          · exact h
          · next hne =>
              refine List.pairwise_cons.mpr ⟨?_, ih hrest⟩
              intro x hx
              rcases mem_insertKey.mp hx with rfl | hx
              · rcases Key.lt_or_eq_or_gt x y with h' | h' | h'
                · exact absurd h' hlt
                · exact absurd h' hne
                · exact h'
              · exact hy x hx

theorem pairwise_unionKeys {ks : List Key} (h : ks.Pairwise (· < ·)) (ms : List Key) :
    (unionKeys ks ms).Pairwise (· < ·) := by
  induction ms with
  | nil => exact h
  | cons m ms ih => exact pairwise_insertKey ih

theorem length_insertKey_le (k : Key) (ks : List Key) :
    (insertKey k ks).length ≤ ks.length + 1 := by
  induction ks with
  | nil => simp [insertKey]
  | cons y rest ih =>
      rw [insertKey]
      split
      · simp
      · split
        · simp
        · simp only [List.length_cons]
          omega

theorem length_unionKeys_le (ks ms : List Key) :
    (unionKeys ks ms).length ≤ ks.length + ms.length := by
  induction ms with
  | nil => simp [unionKeys]
  | cons m ms ih =>
      have h := length_insertKey_le m (unionKeys ks ms)
      rw [unionKeys, List.length_cons]
      omega

/-! ## Entries with the values of two sides -/

/-- The keys of a list of entries. -/
def keysOf (entries : List Entry) : List Key := entries.map (·.1)

theorem mem_keysOf {k : Key} {entries : List Entry} :
    k ∈ keysOf entries ↔ ∃ v, (k, v) ∈ entries := by
  simp [keysOf]

theorem pairwise_keysOf {entries : List Entry} :
    (keysOf entries).Pairwise (· < ·) ↔ Increasing entries :=
  List.pairwise_map

/-- The value of one side of a zip at a key: that of its entry there, or of its point lookup if
it has values between its keys. -/
def Behaviour.valueAt {σ : Type} (b : Behaviour σ) (entries : List Entry) (k : Key) :
    Option Value :=
  match entries.lookup k with
  | some v => some v
  | none => if b.continuous then resultOf (b.get? k).outcome else none

/-- The entry of a zip at a key, if both of its sides have a value there. -/
def pairAt (left right : Key → Option Value) (k : Key) : Option Entry :=
  match left k, right k with
  | some v, some w => some (k, .pair v w)
  | _, _ => none

theorem pairAt_eq_some_iff {left right : Key → Option Value} {k : Key} {e : Entry} :
    pairAt left right k = some e ↔
      ∃ v w, left k = some v ∧ right k = some w ∧ e = (k, .pair v w) := by
  unfold pairAt
  split
  · next v w hv hw => simp [hv, hw, eq_comm]
  · next hnone =>
      constructor
      · intro h; cases h
      · rintro ⟨v, w, hv, hw, -⟩
        exact (hnone v w hv hw).elim

/-- The entries at those of some keys at which two sides have a value. -/
def pairEntries (keys : List Key) (left right : Key → Option Value) : List Entry :=
  keys.filterMap (pairAt left right)

theorem mem_pairEntries {keys : List Key} {left right : Key → Option Value} {e : Entry} :
    e ∈ pairEntries keys left right ↔
      e.1 ∈ keys ∧ ∃ v w, left e.1 = some v ∧ right e.1 = some w ∧ e.2 = .pair v w := by
  rw [pairEntries, List.mem_filterMap]
  constructor
  · rintro ⟨k, hk, h⟩
    obtain ⟨v, w, hv, hw, rfl⟩ := pairAt_eq_some_iff.mp h
    exact ⟨hk, v, w, hv, hw, rfl⟩
  · rintro ⟨hk, v, w, hv, hw, he⟩
    exact ⟨e.1, hk, pairAt_eq_some_iff.mpr ⟨v, w, hv, hw, by rw [← he]⟩⟩

theorem increasing_pairEntries {keys : List Key} (h : keys.Pairwise (· < ·))
    (left right : Key → Option Value) : Increasing (pairEntries keys left right) := by
  refine List.Pairwise.filterMap _ ?_ h
  intro k m hkm a ha b hb
  obtain ⟨_, _, _, _, rfl⟩ := pairAt_eq_some_iff.mp ha
  obtain ⟨_, _, _, _, rfl⟩ := pairAt_eq_some_iff.mp hb
  exact hkm

/-- The entries of a zip of two sides with the given entries. -/
def Behaviour.zipEntries {σ τ : Type} (l : Behaviour σ) (r : Behaviour τ)
    (left right : List Entry) : List Entry :=
  pairEntries (unionKeys (keysOf left) (keysOf right)) (l.valueAt left) (r.valueAt right)

theorem Behaviour.mem_zipEntries {σ τ : Type} {l : Behaviour σ} {r : Behaviour τ}
    {left right : List Entry} {e : Entry} :
    e ∈ l.zipEntries r left right ↔
      (e.1 ∈ keysOf left ∨ e.1 ∈ keysOf right) ∧
        ∃ v w, l.valueAt left e.1 = some v ∧ r.valueAt right e.1 = some w ∧ e.2 = .pair v w := by
  rw [zipEntries, mem_pairEntries, mem_unionKeys]

theorem Behaviour.increasing_zipEntries {σ τ : Type} (l : Behaviour σ) (r : Behaviour τ)
    {left : List Entry} (h : Increasing left) (right : List Entry) :
    Increasing (l.zipEntries r left right) :=
  increasing_pairEntries (pairwise_unionKeys (pairwise_keysOf.mpr h) _) _ _

theorem Behaviour.length_zipEntries_le {σ τ : Type} (l : Behaviour σ) (r : Behaviour τ)
    (left right : List Entry) :
    (l.zipEntries r left right).length ≤ left.length + right.length := by
  have hpair := List.length_filterMap_le (pairAt (l.valueAt left) (r.valueAt right))
    (unionKeys (keysOf left) (keysOf right))
  have hunion := length_unionKeys_le (keysOf left) (keysOf right)
  rw [keysOf, keysOf, List.length_map, List.length_map] at hunion
  exact Nat.le_trans hpair hunion

/-- Of increasing entries the one at a key decides what is looked up there. -/
theorem lookup_eq_some_iff_mem {entries : List Entry} (hinc : Increasing entries) {k : Key}
    {v : Value} : entries.lookup k = some v ↔ (k, v) ∈ entries := by
  constructor
  · intro h
    obtain ⟨front, back, rfl, -⟩ := List.lookup_eq_some_iff.mp h
    simp
  · intro hmem
    cases h : entries.lookup k with
    | none =>
        have := List.lookup_eq_none_iff.mp h (k, v) hmem
        simp at this
    | some w =>
        obtain ⟨front, back, hsplit, -⟩ := List.lookup_eq_some_iff.mp h
        have hw : (k, w) ∈ entries := by rw [hsplit]; simp
        have := hinc.eq_of_key_eq hw hmem rfl
        simpa using this

theorem lookup_eq_none_iff_not_mem {entries : List Entry} {k : Key} :
    entries.lookup k = none ↔ k ∉ keysOf entries := by
  rw [List.lookup_eq_none_iff, mem_keysOf]
  constructor
  · rintro h ⟨v, hv⟩
    simpa using h (k, v) hv
  · intro h e he
    have : k ≠ e.1 := fun hk => h ⟨e.2, hk ▸ he⟩
    simpa using this

/-- A side without values between its keys has a value at the keys of its entries only. -/
theorem Behaviour.mem_keysOf_of_valueAt {σ : Type} {b : Behaviour σ} {entries : List Entry}
    (hb : b.continuous = false) {k : Key} {v : Value} (h : b.valueAt entries k = some v) :
    k ∈ keysOf entries := by
  cases hlookup : entries.lookup k with
  | some w =>
      obtain ⟨front, back, hsplit, -⟩ := List.lookup_eq_some_iff.mp hlookup
      rw [hsplit]
      simp [keysOf]
  | none =>
      rw [valueAt, hlookup, hb] at h
      cases h

/-! ## The entries of a tree -/

namespace Tree

/-- The entries of a tree, for the sources as they are now. -/
def entries (sources : Sources) : Tree → List Entry
  | .series id => (sources id).store.entries
  | .op t o => (t.entries sources).map fun e => (e.1, resultOf (o.apply e.2).outcome)
  | .map t f => (t.entries sources).map fun e => (e.1, resultOf (f e.1 e.2))
  | .zip l r =>
    (l.behaviour sources).zipEntries (r.behaviour sources) (l.entries sources) (r.entries sources)
  | .carry t => t.entries sources
  | .fill t _ => t.entries sources
  | .refuse t => t.entries sources

/-- The values that can come out of a tree, for the sources as they are now. -/
def Yields (sources : Sources) : Tree → Value → Prop
  | .series id, v => ∃ e ∈ (sources id).store.entries, e.2 = v
  | .op t o, w => ∃ v, t.Yields sources v ∧ (o.apply v).outcome = .ok w
  | .map t f, w => ∃ k v, t.Yields sources v ∧ f k v = .ok w
  | .zip l r, w => ∃ u v, l.Yields sources u ∧ r.Yields sources v ∧ w = .pair u v
  | .carry t, v => t.Yields sources v
  | .fill t otherwise, v => t.Yields sources v ∨ v = otherwise
  | .refuse t, v => t.Yields sources v

/-- No function of the tree faults on a value that reaches it, for the sources as they are
now. -/
def Total (sources : Sources) : Tree → Prop
  | .series _ => True
  | .op t o => t.Total sources ∧ ∀ v, t.Yields sources v → ∃ w, (o.apply v).outcome = .ok w
  | .map t f => t.Total sources ∧ ∀ k v, t.Yields sources v → ∃ w, f k v = .ok w
  | .zip l r => l.Total sources ∧ r.Total sources
  | .carry t => t.Total sources
  | .fill t _ => t.Total sources
  | .refuse t => t.Total sources

variable (sources : Sources)

theorem increasing_entries (t : Tree) : Increasing (t.entries sources) := by
  induction t with
  | series id => exact (sources id).store.increasing
  | op t o ih => exact List.pairwise_map.mpr ih
  | map t f ih => exact List.pairwise_map.mpr ih
  | zip l r ihl ihr =>
      exact (l.behaviour sources).increasing_zipEntries (r.behaviour sources) ihl _
  | carry t ih => exact ih
  | fill t otherwise ih => exact ih
  | refuse t ih => exact ih

end Tree

end LiveSeries
