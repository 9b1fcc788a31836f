import LiveSeries.Lookup
import LiveSeries.Value

/-!
# Stores

A store holds entries in strictly increasing order of their keys. Every operation on one key
first cuts the entries at that key, into those below it, the value stored at it and those above
it, and then puts some of the three parts together again. The cut loses nothing
(`cutAt_rejoin`), and its parts lie where their names say (`cutAt_below_lt`, `cutAt_lt_above`).
-/

namespace LiveSeries

/-! ## Cutting a list of entries at a key -/

/-- The keys of a list of entries increase strictly. -/
def Increasing (entries : List Entry) : Prop := entries.Pairwise fun a b => a.1 < b.1

instance (entries : List Entry) : Decidable (Increasing entries) :=
  inferInstanceAs (Decidable (entries.Pairwise _))

/-- The parts of a list of entries on either side of a key, and the value at it. -/
structure Cut where
  below : List Entry
  here : Option Value
  above : List Entry

/-- Cuts increasing entries at a key. -/
def cutAt (k : Key) : List Entry → Cut
  | [] => ⟨[], none, []⟩
  | (x, v) :: rest =>
    if x < k then
      let cut := cutAt k rest
      { cut with below := (x, v) :: cut.below }
    else if x = k then ⟨[], some v, rest⟩
    else ⟨[], none, (x, v) :: rest⟩

/-- The entry at the key of a cut, as a list. -/
def Cut.middle (cut : Cut) (k : Key) : List Entry := (cut.here.map fun v => (k, v)).toList

/-- A cut loses nothing. -/
theorem cutAt_rejoin (k : Key) (entries : List Entry) :
    (cutAt k entries).below ++ (cutAt k entries).middle k ++ (cutAt k entries).above = entries := by
  induction entries with
  | nil => rfl
  | cons e rest ih =>
    obtain ⟨x, v⟩ := e
    by_cases hlt : x < k
    · have ih' : (cutAt k rest).below ++ ((cutAt k rest).middle k ++ (cutAt k rest).above) = rest := by
        rw [← List.append_assoc]; exact ih
      simpa [cutAt, hlt, Cut.middle] using ih'
    · by_cases heq : x = k
      · subst heq
        simp [cutAt, hlt, Cut.middle]
      · simp [cutAt, hlt, heq, Cut.middle]

/-- All entries below the cut have lesser keys. -/
theorem cutAt_below_lt (k : Key) (entries : List Entry) :
    ∀ e ∈ (cutAt k entries).below, e.1 < k := by
  induction entries with
  | nil => simp [cutAt]
  | cons e rest ih =>
    obtain ⟨x, v⟩ := e
    by_cases hlt : x < k
    · intro e he
      simp only [cutAt, hlt, if_true, List.mem_cons] at he
      rcases he with rfl | he
      · exact hlt
      · exact ih e he
    · by_cases heq : x = k
      · subst heq
        simp [cutAt, hlt]
      · simp [cutAt, hlt, heq]

/-- All entries above the cut of increasing entries have greater keys. -/
theorem cutAt_lt_above {k : Key} {entries : List Entry} (h : Increasing entries) :
    ∀ e ∈ (cutAt k entries).above, k < e.1 := by
  induction entries with
  | nil => simp [cutAt]
  | cons e rest ih =>
    obtain ⟨x, v⟩ := e
    have hrest := List.pairwise_cons.1 h
    by_cases hlt : x < k
    · simpa [cutAt, hlt] using ih hrest.2
    · by_cases heq : x = k
      · subst heq
        intro e he
        simp only [cutAt, hlt, if_false, if_true] at he
        exact hrest.1 e he
      · have hgt : k < x := by
          rcases Key.lt_or_eq_or_gt x k with h' | h' | h'
          · exact absurd h' hlt
          · exact absurd h' heq
          · exact h'
        intro e he
        simp only [cutAt, hlt, heq, if_false, List.mem_cons] at he
        rcases he with rfl | he
        · exact hgt
        · exact Key.lt_trans hgt (hrest.1 e he)

theorem increasing_below {k : Key} {entries : List Entry} (h : Increasing entries) :
    Increasing (cutAt k entries).below := by
  have h' := h
  rw [← cutAt_rejoin k entries, List.append_assoc] at h'
  exact (List.pairwise_append.1 h').1

theorem increasing_above {k : Key} {entries : List Entry} (h : Increasing entries) :
    Increasing (cutAt k entries).above := by
  have h' := h
  rw [← cutAt_rejoin k entries] at h'
  exact (List.pairwise_append.1 h').2.1

theorem mem_cut_middle {cut : Cut} {k : Key} {e : Entry} (h : e ∈ cut.middle k) : e.1 = k := by
  unfold Cut.middle at h
  cases hh : cut.here with
  | none => simp [hh] at h
  | some v => simp [hh] at h; rw [h]

/-- Entries below a key, entries at it and entries above it follow one another. -/
theorem increasing_join {k : Key} {low mid high : List Entry} (hlow : Increasing low)
    (hmid : Increasing mid) (hhigh : Increasing high) (hlt : ∀ e ∈ low, e.1 < k)
    (heq : ∀ e ∈ mid, e.1 = k) (hgt : ∀ e ∈ high, k < e.1) :
    Increasing (low ++ mid ++ high) := by
  refine List.pairwise_append.2 ⟨List.pairwise_append.2 ⟨hlow, hmid, ?_⟩, hhigh, ?_⟩
  · intro a ha b hb
    rw [heq b hb]
    exact hlt a ha
  · intro a ha b hb
    rcases List.mem_append.1 ha with ha | ha
    · exact Key.lt_trans (hlt a ha) (hgt b hb)
    · rw [heq a ha]
      exact hgt b hb

/-! ## The store -/

/-- Entries in strictly increasing order of keys. -/
structure Store where
  entries : List Entry
  increasing : Increasing entries

namespace Store

/-- The store without entries. -/
def empty : Store := ⟨[], List.Pairwise.nil⟩

instance : Inhabited Store := ⟨empty⟩

@[ext] theorem ext {s t : Store} (h : s.entries = t.entries) : s = t := by
  cases s; cases t; simp_all

def size (s : Store) : Nat := s.entries.length

def isEmpty (s : Store) : Bool := s.entries.isEmpty

/-- The entry with the least key. -/
def first? (s : Store) : Option Entry := s.entries.head?

/-- The entry with the greatest key. -/
def last? (s : Store) : Option Entry := s.entries.getLast?

/-- The entries cut at a key. -/
def cut (s : Store) (k : Key) : Cut := cutAt k s.entries

/-- The value at exactly this key. -/
def get? (s : Store) (k : Key) : Option Value := (s.cut k).here

/-- The entry nearest to a key among those that the lookup admits. -/
def find? (s : Store) (k : Key) (lookup : Lookup) : Option Entry :=
  let cut := s.cut k
  match lookup with
  | .eq => cut.here.map fun v => (k, v)
  | .lt => cut.below.getLast?
  | .le => (cut.here.map fun v => (k, v)) <|> cut.below.getLast?
  | .ge => (cut.here.map fun v => (k, v)) <|> cut.above.head?
  | .gt => cut.above.head?

/-- The entry after a key. -/
def nextAfter? (s : Store) (k : Key) : Option Entry := s.find? k .gt

/-- The entry before a key. -/
def previousBefore? (s : Store) (k : Key) : Option Entry := s.find? k .lt

/-- The first `limit` entries after a key, or from the start. -/
def pageAfter (s : Store) (after : Option Key) (limit : Nat) : List Entry :=
  match after with
  | none => s.entries.take limit
  | some k => (s.cut k).above.take limit

/-- The store put together from the parts of a cut, with other entries at the key. -/
def rejoin (s : Store) (k : Key) (low : Bool) (here : Option Value) (high : Bool) : Store where
  entries :=
    (if low then (s.cut k).below else []) ++ (here.map fun v => (k, v)).toList
      ++ (if high then (s.cut k).above else [])
  increasing := by
    refine increasing_join (k := k) ?_ ?_ ?_ ?_ ?_ ?_
    · cases low
      · exact List.Pairwise.nil
      · exact increasing_below s.increasing
    · cases here <;> simp [Increasing]
    · cases high
      · exact List.Pairwise.nil
      · exact increasing_above s.increasing
    · cases low
      · simp
      · exact cutAt_below_lt k s.entries
    · cases here <;> simp
    · cases high
      · simp
      · exact cutAt_lt_above s.increasing

/-- Stores a value at a key; with it, the value that was there. -/
def insert (s : Store) (k : Key) (v : Value) : Option Value × Store :=
  (s.get? k, s.rejoin k true (some v) true)

/-- Takes the entry at a key away; with it, its value. -/
def erase (s : Store) (k : Key) : Option Value × Store :=
  (s.get? k, s.rejoin k true none true)

/-- The store without the keys that a lookup admits: the part of the cut on that side goes. -/
def sweep (s : Store) (k : Key) : Lookup → Store
  | .eq => s.rejoin k true none true
  | .lt => s.rejoin k false (s.get? k) true
  | .le => s.rejoin k false none true
  | .ge => s.rejoin k true none false
  | .gt => s.rejoin k true (s.get? k) false

/-- Takes away every key that a lookup admits; with it, how many went. -/
def removeMany (s : Store) (k : Key) (lookup : Lookup) : Nat × Store :=
  (s.size - (s.sweep k lookup).size, s.sweep k lookup)

/-- Stores entries one after the other. -/
def insertAll (s : Store) (entries : List Entry) : Store :=
  entries.foldl (fun s e => (s.insert e.1 e.2).2) s

/-- The store of the given entries; of entries with one key the last stays. -/
def ofList (entries : List Entry) : Store := empty.insertAll entries

/-- Two stores are equal if they hold equal values at the same keys. -/
def equals (s t : Store) : Bool :=
  s.size == t.size &&
    (s.entries.zip t.entries).all fun (a, b) => a.1 == b.1 && a.2.equals b.2

end Store

end LiveSeries
