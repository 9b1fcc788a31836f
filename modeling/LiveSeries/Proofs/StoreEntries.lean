import LiveSeries.Proofs.Nearest

/-!
# The entries of a store after an operation

A store is settled by its values at all keys (`Store.ext_get?`), and each operation says what
becomes of one key: an insertion of its own key only, a removal of the keys that its lookup admits.

What lies above all that a store holds goes to its end (`Store.entries_insertAll`). An append that
accepts what it repeats therefore keeps what is stored and adds what lies above it; it makes a
store of just its own entries if these begin with what was stored, and everything stored is equal
to itself (`Store.append_acceptEqual_makes_iff`). What is not a number is not.
-/

namespace LiveSeries

/-- Entries below a key are all on one side of a cut there. -/
theorem cutAt_of_forall_lt {k : Key} {entries : List Entry} (h : ∀ e ∈ entries, e.1 < k) :
    cutAt k entries = ⟨entries, none, []⟩ := by
  induction entries with
  | nil => rfl
  | cons e rest ih =>
      obtain ⟨x, v⟩ := e
      have hx : x < k := h (x, v) List.mem_cons_self
      have hrest : cutAt k rest = ⟨rest, none, []⟩ :=
        ih fun e he => h e (List.mem_cons_of_mem _ he)
      rw [cutAt, if_pos hx, hrest]

/-- The check of an append compares neighbours, which is enough. -/
theorem increases_iff {entries : List Entry} : increases entries = true ↔ Increasing entries := by
  induction entries with
  | nil => exact ⟨fun _ => List.Pairwise.nil, fun _ => rfl⟩
  | cons a rest ih =>
      cases rest with
      | nil => exact ⟨fun _ => List.pairwise_singleton _ _, fun _ => rfl⟩
      | cons b others =>
          rw [increases, Bool.and_eq_true, decide_eq_true_eq, ih]
          constructor
          · rintro ⟨hab, hrest⟩
            refine List.pairwise_cons.mpr ⟨?_, hrest⟩
            intro e he
            rcases List.mem_cons.mp he with rfl | he
            · exact hab
            · exact Key.lt_trans hab ((List.pairwise_cons.mp hrest).1 e he)
          · intro hinc
            obtain ⟨ha, hrest⟩ := List.pairwise_cons.mp hinc
            exact ⟨ha b List.mem_cons_self, hrest⟩

namespace Store

/-! ## The values of a store -/

theorem mem_cut_iff (s : Store) (k : Key) {e : Entry} :
    e ∈ s.entries ↔
      e ∈ (s.cut k).below ∨ e ∈ (s.cut k).middle k ∨ e ∈ (s.cut k).above := by
  have hrejoin : (s.cut k).below ++ (s.cut k).middle k ++ (s.cut k).above = s.entries :=
    cutAt_rejoin k s.entries
  rw [← hrejoin, List.mem_append, List.mem_append, or_assoc]

/-- The entries below a key are cut off below it. -/
theorem mem_cut_below_iff (s : Store) {k : Key} {e : Entry} :
    e ∈ (s.cut k).below ↔ e ∈ s.entries ∧ e.1 < k := by
  constructor
  · intro he
    exact ⟨(s.mem_cut_iff k).mpr (.inl he), cutAt_below_lt k s.entries e he⟩
  · rintro ⟨he, hlt⟩
    rcases (s.mem_cut_iff k).mp he with h | h | h
    · exact h
    · rw [mem_cut_middle h] at hlt
      exact absurd hlt (Key.lt_irrefl k)
    · exact absurd (cutAt_lt_above s.increasing e h) (Key.lt_asymm hlt)

/-- The entries above a key are cut off above it. -/
theorem mem_cut_above_iff (s : Store) {k : Key} {e : Entry} :
    e ∈ (s.cut k).above ↔ e ∈ s.entries ∧ k < e.1 := by
  constructor
  · intro he
    exact ⟨(s.mem_cut_iff k).mpr (.inr (.inr he)), cutAt_lt_above s.increasing e he⟩
  · rintro ⟨he, hlt⟩
    rcases (s.mem_cut_iff k).mp he with h | h | h
    · exact absurd (cutAt_below_lt k s.entries e h) (Key.lt_asymm hlt)
    · rw [mem_cut_middle h] at hlt
      exact absurd hlt (Key.lt_irrefl k)
    · exact h

/-- The value of a store at a key is that of its entry there. -/
theorem get?_eq_some_iff (s : Store) {k : Key} {v : Value} :
    s.get? k = some v ↔ (k, v) ∈ s.entries := by
  have hmiddle : (k, v) ∈ (s.cut k).middle k ↔ s.get? k = some v := by
    rw [Cut.middle, get?, Option.mem_toList, Option.map_eq_some_iff]
    constructor
    · rintro ⟨w, hw, heq⟩
      rw [hw, (Prod.mk.inj heq).2]
    · intro hv
      exact ⟨v, hv, rfl⟩
  rw [s.mem_cut_iff k, ← hmiddle]
  constructor
  · intro h
    exact .inr (.inl h)
  · rintro (h | h | h)
    · exact absurd (s.mem_cut_below_iff.mp h).2 (Key.lt_irrefl k)
    · exact h
    · exact absurd (s.mem_cut_above_iff.mp h).2 (Key.lt_irrefl k)

/-- Stores with one value at every key are one store. -/
theorem ext_get? {s t : Store} (h : ∀ k, s.get? k = t.get? k) : s = t := by
  have hmem : ∀ e, e ∈ s.entries ↔ e ∈ t.entries := by
    rintro ⟨k, v⟩
    rw [← s.get?_eq_some_iff, ← t.get?_eq_some_iff, h]
  exact Store.ext (s.increasing.eq_of_mem_iff t.increasing hmem)

/-- A store put together again holds the parts that it was given. -/
theorem mem_rejoin_iff (s : Store) {x : Key} {low high : Bool} {here : Option Value} {e : Entry} :
    e ∈ (s.rejoin x low here high).entries ↔
      (low = true ∧ e ∈ s.entries ∧ e.1 < x) ∨ (∃ v, here = some v ∧ e = (x, v)) ∨
        (high = true ∧ e ∈ s.entries ∧ x < e.1) := by
  have hhere : e ∈ (here.map fun v => (x, v)).toList ↔ ∃ v, here = some v ∧ e = (x, v) := by
    rw [Option.mem_toList, Option.map_eq_some_iff]
    constructor
    · rintro ⟨v, hv, rfl⟩
      exact ⟨v, hv, rfl⟩
    · rintro ⟨v, hv, rfl⟩
      exact ⟨v, hv, rfl⟩
  have hpart : ∀ (b : Bool) (part : List Entry),
      e ∈ (if b = true then part else []) ↔ b = true ∧ e ∈ part := by
    intro b part
    cases b <;> simp
  rw [rejoin, List.mem_append, List.mem_append, hpart, hpart, hhere, mem_cut_below_iff,
    mem_cut_above_iff, or_assoc]

theorem get?_insert (s : Store) (x k : Key) (v : Value) :
    (s.insert x v).2.get? k = if x = k then some v else s.get? k := by
  refine Option.ext fun w => ?_
  rw [get?_eq_some_iff, insert, mem_rejoin_iff]
  by_cases hx : x = k
  · subst hx
    rw [if_pos rfl]
    simp [Key.lt_irrefl, eq_comm]
  · rw [if_neg hx, get?_eq_some_iff]
    constructor
    · rintro (⟨-, h, -⟩ | ⟨w', -, heq⟩ | ⟨-, h, -⟩)
      · exact h
      · exact absurd (Prod.mk.inj heq).1.symm hx
      · exact h
    · intro h
      rcases Key.lt_or_eq_or_gt k x with hlt | heq | hgt
      · exact .inl ⟨rfl, h, hlt⟩
      · exact absurd heq.symm hx
      · exact .inr (.inr ⟨rfl, h, hgt⟩)

/-- A sweep leaves what its lookup does not admit. -/
theorem mem_sweep_iff (s : Store) {x : Key} {lookup : Lookup} {e : Entry} :
    e ∈ (s.sweep x lookup).entries ↔ e ∈ s.entries ∧ ¬ lookup.Admits x e.1 := by
  have hhere : (∃ v, s.get? x = some v ∧ e = (x, v)) ↔ e ∈ s.entries ∧ e.1 = x := by
    constructor
    · rintro ⟨v, hv, rfl⟩
      exact ⟨s.get?_eq_some_iff.mp hv, rfl⟩
    · rintro ⟨he, rfl⟩
      exact ⟨e.2, s.get?_eq_some_iff.mpr he, rfl⟩
  have hnone : ¬ ∃ v, (none : Option Value) = some v ∧ e = (x, v) := by simp
  rcases Key.lt_or_eq_or_gt e.1 x with hlt | heq | hgt
  · have hnot := Key.lt_asymm hlt
    have hle := Key.le_of_lt hlt
    have hne := Key.ne_of_lt hlt
    cases lookup <;>
      simp only [sweep, mem_rejoin_iff, hhere, hnone, Lookup.Admits] <;>
      simp [hlt, hnot, hle, hne, ← Key.not_lt]
  · have hirrefl := Key.lt_irrefl x
    cases lookup <;>
      simp only [sweep, mem_rejoin_iff, hhere, hnone, Lookup.Admits] <;>
      simp [heq, hirrefl, ← Key.not_lt]
  · have hnot := Key.lt_asymm hgt
    have hle := Key.le_of_lt hgt
    have hne := (Key.ne_of_lt hgt).symm
    cases lookup <;>
      simp only [sweep, mem_rejoin_iff, hhere, hnone, Lookup.Admits] <;>
      simp [hgt, hnot, hle, hne, ← Key.not_lt]

theorem get?_removeMany (s : Store) (x k : Key) (lookup : Lookup) :
    (s.removeMany x lookup).2.get? k = if lookup.Admits x k then none else s.get? k := by
  refine Option.ext fun w => ?_
  have hsweep : (s.removeMany x lookup).2 = s.sweep x lookup := rfl
  rw [hsweep, get?_eq_some_iff, mem_sweep_iff]
  by_cases hadmits : lookup.Admits x k
  · rw [if_pos hadmits]
    simp [hadmits]
  · rw [if_neg hadmits, get?_eq_some_iff]
    exact ⟨fun h => h.1, fun h => ⟨h, hadmits⟩⟩

/-- A key that a store does not reach lies above all of its entries. -/
theorem reaches_eq_false_iff (s : Store) {k : Key} :
    s.reaches k = false ↔ ∀ e ∈ s.entries, e.1 < k := by
  unfold reaches
  split
  · next last hlast =>
      have hmem : last ∈ s.entries := List.mem_of_getLast? hlast
      have hstart : startOf false s.entries = some last := hlast
      have hmax : ∀ e ∈ s.entries, e.1 ≤ last.1 := not_precedes_startOf s.increasing hstart
      rw [decide_eq_false_iff_not]
      constructor
      · intro hnot e he
        exact Key.lt_of_le_of_lt (hmax e he) (Key.not_le.mp hnot)
      · intro h
        exact Key.not_le.mpr (h last hmem)
  · next hlast =>
      have hnil : s.entries = [] := List.getLast?_eq_none_iff.mp hlast
      simp [hnil]

theorem reaches_of_mem {s : Store} {e : Entry} (he : e ∈ s.entries) : s.reaches e.1 = true := by
  cases h : s.reaches e.1 with
  | true => rfl
  | false => exact absurd (s.reaches_eq_false_iff.mp h e he) (Key.lt_irrefl e.1)

/-- A new greatest key goes to the end. -/
theorem entries_insert {s : Store} {k : Key} (h : ∀ e ∈ s.entries, e.1 < k) (v : Value) :
    (s.insert k v).2.entries = s.entries ++ [(k, v)] := by
  have hcut : s.cut k = ⟨s.entries, none, []⟩ := cutAt_of_forall_lt h
  simp only [insert, rejoin, hcut, if_true, List.append_nil]
  rfl

/-- Increasing entries above all that is stored go to the end. -/
theorem entries_insertAll {s : Store} {entries : List Entry}
    (h : Increasing (s.entries ++ entries)) :
    (s.insertAll entries).entries = s.entries ++ entries := by
  induction entries generalizing s with
  | nil => exact (List.append_nil _).symm
  | cons e rest ih =>
      have hlt : ∀ x ∈ s.entries, x.1 < e.1 :=
        fun x hx => (List.pairwise_append.mp h).2.2 x hx e List.mem_cons_self
      have hinsert := entries_insert hlt e.2
      have hall : s.entries ++ e :: rest = (s.insert e.1 e.2).2.entries ++ rest := by
        rw [hinsert, List.append_assoc]
        rfl
      rw [hall] at h ⊢
      exact ih h

/-! ## Appends that accept what they repeat -/

/-- The entries of an append that a store reaches. -/
def reached (s : Store) (entries : List Entry) : List Entry :=
  entries.takeWhile fun e => s.reaches e.1

/-- The entries of an append that a store does not reach. -/
def beyond (s : Store) (entries : List Entry) : List Entry :=
  entries.dropWhile fun e => s.reaches e.1

theorem reached_append_beyond (s : Store) (entries : List Entry) :
    s.reached entries ++ s.beyond entries = entries :=
  List.takeWhile_append_dropWhile

/-- What a store does not reach lies above it. -/
theorem increasing_append_beyond (s : Store) {entries : List Entry} (hinc : Increasing entries) :
    Increasing (s.entries ++ s.beyond entries) := by
  have hbeyond : Increasing (s.beyond entries) := hinc.sublist (List.dropWhile_sublist _)
  refine List.pairwise_append.mpr ⟨s.increasing, hbeyond, ?_⟩
  intro x hx e he
  cases hhead : s.beyond entries with
  | nil =>
      rw [hhead] at he
      cases he
  | cons d rest =>
      have hnot : s.reaches d.1 = false := by
        have h := List.head?_dropWhile_not (fun e : Entry => s.reaches e.1) entries
        have hd : (entries.dropWhile fun e => s.reaches e.1).head? = some d := by
          rw [← beyond, hhead]
          rfl
        rw [hd] at h
        exact h
      have hxd : x.1 < d.1 := s.reaches_eq_false_iff.mp hnot x hx
      rw [hhead] at he hbeyond
      rcases List.mem_cons.mp he with rfl | he
      · exact hxd
      · exact Key.lt_trans hxd ((List.pairwise_cons.mp hbeyond).1 e he)

/-- If an append only repeats what it overlaps, the rest of it is added. -/
theorem append_acceptEqual_of_repeats {s : Store} {entries : List Entry}
    (hinc : Increasing entries) (hrepeats : (s.reached entries).all s.repeats = true) :
    ∃ change, s.append entries .acceptEqual = .ok change ∧
      (change.2.getD s).entries = s.entries ++ s.beyond entries := by
  have hentries := entries_insertAll (s.increasing_append_beyond hinc)
  cases entries with
  | nil => exact ⟨(0, none), rfl, (List.append_nil _).symm⟩
  | cons e rest =>
      refine ⟨_, if_pos hrepeats, ?_⟩
      cases hbeyond : s.beyond (e :: rest) with
      | nil =>
          rw [← beyond, hbeyond]
          exact (List.append_nil _).symm
      | cons d others =>
          rw [hbeyond] at hentries
          rw [← beyond, hbeyond]
          exact hentries

theorem repeats_of_append_acceptEqual {s : Store} {entries : List Entry} {change : Change Nat}
    (h : s.append entries .acceptEqual = .ok change) :
    (s.reached entries).all s.repeats = true := by
  cases entries with
  | nil => rfl
  | cons e rest =>
      simp only [append] at h
      split at h
      · next hrepeats => exact hrepeats
      · cases h

/-- What is reached of an append ends where its entries lie above all that is stored. -/
theorem reached_append {s : Store} {old new : List Entry}
    (hold : ∀ e ∈ old, s.reaches e.1 = true) (hnew : ∀ e ∈ new, ∀ x ∈ s.entries, x.1 < e.1) :
    s.reached (old ++ new) = old := by
  have hnone : new.takeWhile (fun e => s.reaches e.1) = [] := by
    cases new with
    | nil => rfl
    | cons e tail =>
        have hfalse : s.reaches e.1 = false :=
          s.reaches_eq_false_iff.mpr (hnew e List.mem_cons_self)
        exact List.takeWhile_cons_of_neg (by rw [hfalse]; exact Bool.false_ne_true)
  rw [reached, List.takeWhile_append_of_pos hold, hnone, List.append_nil]

/-- Entries that begin with what is stored are reached so far. -/
theorem reached_of_prefix {s : Store} {rest : List Entry} (h : Increasing (s.entries ++ rest)) :
    s.reached (s.entries ++ rest) = s.entries :=
  reached_append (fun _ he => reaches_of_mem he)
    fun e he x hx => (List.pairwise_append.mp h).2.2 x hx e he

/-- A stored entry is repeated if its value is equal to itself. -/
theorem repeats_of_mem {s : Store} {e : Entry} (he : e ∈ s.entries) :
    s.repeats e = e.2.equals e.2 := by
  rw [repeats, s.get?_eq_some_iff.mpr he]

/-- An append that accepts what it repeats makes a store of just its own entries if these begin
with what is stored, and everything stored is equal to itself. -/
theorem append_acceptEqual_makes_iff (s : Store) {entries : List Entry}
    (hinc : Increasing entries) :
    (∃ change, s.append entries .acceptEqual = .ok change ∧
        (change.2.getD s).entries = entries) ↔
      s.entries <+: entries ∧ ∀ e ∈ s.entries, e.2.equals e.2 = true := by
  have hrepeats_iff : s.entries.all s.repeats = true ↔
      ∀ e ∈ s.entries, e.2.equals e.2 = true := by
    rw [List.all_eq_true]
    constructor
    · intro h e he
      rw [← repeats_of_mem he]
      exact h e he
    · intro h e he
      rw [repeats_of_mem he]
      exact h e he
  constructor
  · -- what was added and what was reached are the two halves of the appended entries
    rintro ⟨change, happend, hmade⟩
    have hrepeats := repeats_of_append_acceptEqual happend
    obtain ⟨change', happend', hentries⟩ := append_acceptEqual_of_repeats hinc hrepeats
    have hchange : change' = change := Except.ok.inj (happend'.symm.trans happend)
    rw [hchange, hmade] at hentries
    have hreached : s.reached entries = s.entries := by
      have hsplit := s.reached_append_beyond entries
      exact List.append_cancel_right (hsplit.trans hentries)
    rw [hreached, hrepeats_iff] at hrepeats
    exact ⟨⟨s.beyond entries, hentries.symm⟩, hrepeats⟩
  · rintro ⟨⟨rest, rfl⟩, hself⟩
    have hreached := reached_of_prefix hinc
    have hbeyond : s.beyond (s.entries ++ rest) = rest := by
      have hsplit := s.reached_append_beyond (s.entries ++ rest)
      rw [hreached] at hsplit
      exact List.append_cancel_left hsplit
    have hrepeats : (s.reached (s.entries ++ rest)).all s.repeats = true := by
      rw [hreached, hrepeats_iff]
      exact hself
    obtain ⟨change, happend, hentries⟩ := append_acceptEqual_of_repeats hinc hrepeats
    rw [hbeyond] at hentries
    exact ⟨change, happend, hentries⟩

end Store

end LiveSeries
