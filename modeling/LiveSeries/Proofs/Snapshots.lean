import LiveSeries.Proofs.Announcements
import LiveSeries.Proofs.PositiveSettings

/-!
# Snapshots

A snapshot is copied in pages. Each goes on after the last key that was copied, and the copy ends
with the first page that is short (`Series.Copies`); nothing else bounds the number of pages. What
has been copied is always a first part of the store. A page that is not short takes entries away
from what is left, so the copy ends, and it has one page more than there are full ones, also when
the last full page leaves nothing over (`Series.copies_iff`). With a page size of zero no page is
short, and it would never end.

Settings that come about never have that page size, so every series that is made with them is
copied as it is, whatever happened to it before (`Series.snapshot_is_exact`).
-/

namespace LiveSeries

/-- A page goes on where the copy of the entries ends. -/
theorem Store.pageAfter_eq {s : Store} {copied rest : List Entry} (h : s.entries = copied ++ rest)
    (limit : Nat) : s.pageAfter (copied.getLast?.map (·.1)) limit = rest.take limit := by
  cases hlast : copied.getLast? with
  | none =>
      rw [List.getLast?_eq_none_iff.mp hlast, List.nil_append] at h
      show s.entries.take limit = _
      rw [h]
  | some e =>
      have hinc : Increasing (copied ++ rest) := h ▸ s.increasing
      have habove : (s.cut e.1).above = rest := by
        rw [s.cut_above_eq_filter, h]
        exact @filter_beyond_last true _ _ hinc _ hlast
      show (s.cut e.1).above.take limit = _
      rw [habove]

namespace Series

/-! ## Pages -/

/-- The page that follows what was copied. -/
def pageOf (store : Store) (chunk : Nat) (copied : List Entry) : List Entry :=
  store.pageAfter (copied.getLast?.map (·.1)) chunk

/-- From what was copied, so many pages are taken until one is short, and this is copied then. -/
inductive Copies (store : Store) (chunk : Nat) : List Entry → Nat → List Entry → Prop where
  | last {copied : List Entry} (short : (pageOf store chunk copied).length < chunk) :
      Copies store chunk copied 1 (copied ++ pageOf store chunk copied)
  | more {copied all : List Entry} {pages : Nat}
      (full : ¬ (pageOf store chunk copied).length < chunk)
      (rest : Copies store chunk (copied ++ pageOf store chunk copied) pages all) :
      Copies store chunk copied (pages + 1) all

variable {store : Store} {chunk pages : Nat} {copied rest all : List Entry}

/-- A page is short if less is left than it may hold. -/
theorem length_pageOf_lt_iff (h : store.entries = copied ++ rest) :
    (pageOf store chunk copied).length < chunk ↔ rest.length < chunk := by
  rw [pageOf, Store.pageAfter_eq h, List.length_take]
  omega

/-- A page is moved from what is left to what was copied. -/
theorem entries_after_page (h : store.entries = copied ++ rest) :
    store.entries = copied ++ pageOf store chunk copied ++ rest.drop chunk := by
  rw [pageOf, Store.pageAfter_eq h, List.append_assoc, List.take_append_drop, h]

/-- A copy that ends took one page more than there are full ones left, and copied everything. -/
theorem Copies.all_copied (hcopies : Copies store chunk copied pages all)
    (h : store.entries = copied ++ rest) :
    0 < chunk ∧ pages = rest.length / chunk + 1 ∧ all = store.entries := by
  induction hcopies generalizing rest with
  | last short =>
      have hfew : rest.length < chunk := (length_pageOf_lt_iff h).mp short
      have hnothing : rest.drop chunk = [] := List.drop_of_length_le (Nat.le_of_lt hfew)
      refine ⟨Nat.zero_lt_of_lt hfew, ?_, ?_⟩
      · rw [Nat.div_eq_of_lt hfew]
      · rw [entries_after_page h, hnothing, List.append_nil]
  | more full _ ih =>
      obtain ⟨hpos, hpages, hall⟩ := ih (entries_after_page h)
      have hmany : chunk ≤ rest.length := Nat.not_lt.mp (mt (length_pageOf_lt_iff h).mpr full)
      refine ⟨hpos, ?_, hall⟩
      rw [hpages, List.length_drop, Nat.div_eq_sub_div hpos hmany]

/-- With a page size above zero the copy ends, because what is left gets less with every page that
is not short. -/
theorem copies_all {store : Store} {chunk : Nat} (hchunk : 0 < chunk) {copied rest : List Entry}
    (h : store.entries = copied ++ rest) : ∃ pages all, Copies store chunk copied pages all := by
  by_cases hfew : rest.length < chunk
  · exact ⟨1, _, .last ((length_pageOf_lt_iff h).mpr hfew)⟩
  · obtain ⟨pages, all, hrest⟩ := copies_all hchunk (entries_after_page h)
    exact ⟨pages + 1, all, .more (mt (length_pageOf_lt_iff h).mp hfew) hrest⟩
termination_by rest.length
decreasing_by
  rw [List.length_drop]
  omega

/-- A copy from the start ends for just the page sizes above zero, with everything. -/
theorem copies_iff :
    Copies store chunk [] pages all ↔
      0 < chunk ∧ pages = store.size / chunk + 1 ∧ all = store.entries := by
  refine ⟨fun h => h.all_copied rfl, ?_⟩
  rintro ⟨hchunk, rfl, rfl⟩
  obtain ⟨pages, all, hcopies⟩ := copies_all hchunk (List.nil_append store.entries).symm
  obtain ⟨-, rfl, rfl⟩ := hcopies.all_copied rfl
  exact hcopies

/-- A bound on the pages does not matter if it leaves room for all of them. -/
theorem Copies.copyPages_eq (h : Copies store chunk copied pages all) {bound : Nat}
    (hbound : pages ≤ bound) : copyPages store chunk bound copied = all := by
  induction h generalizing bound with
  | last short =>
      obtain ⟨bound, rfl⟩ := Nat.exists_eq_add_one.mpr hbound
      exact if_pos short
  | more full _ ih =>
      obtain ⟨bound, rfl⟩ := Nat.exists_eq_add_one.mpr (Nat.zero_lt_of_lt hbound)
      rw [← ih (Nat.le_of_succ_le_succ hbound)]
      exact if_neg full

/-- A snapshot of a series with settings that copy is its entries. -/
theorem snapshot_eq_entries {s : Series} (hpage : 0 < s.settings.pageSize) :
    s.snapshot = s.store.entries := by
  rw [snapshot, read_eq]
  exact (copies_iff.mpr ⟨hpage, rfl, rfl⟩).copyPages_eq (Nat.succ_le_succ (Nat.div_le_self _ _))

/-! ## Snapshots -/

/-- A snapshot shows what the series holds. -/
structure Exact (s : Series) : Prop where
  /-- Copied in pages of any size above zero, the store is copied as it is. -/
  copies_iff (chunk pages : Nat) (all : List Entry) :
    Copies s.store chunk [] pages all ↔ 0 < chunk ∧ pages = s.size / chunk + 1 ∧ all = s.snapshot
  mem_iff (e : Entry) : e ∈ s.snapshot ↔ s.get? e.1 = some e.2
  increasing : Increasing s.snapshot
  length : s.snapshot.length = s.size
  /-- The first run of the reader counts, and it leaves the gate as it was. -/
  reading : s.reading (fun store => copyPages store s.settings.pageSize (store.size + 1) []) =
    ⟨s.gate, s.snapshot, 1, false⟩
  any_page_size (chunk : Nat) (positive : 0 < chunk) :
    { s with settings := { s.settings with pageSize := chunk } }.snapshot = s.snapshot

theorem Reachable.snapshot_eq {s : Series} (h : s.Reachable) : s.snapshot = s.store.entries :=
  snapshot_eq_entries h.next_and_page.2

theorem Reachable.exact {s : Series} (h : s.Reachable) : s.Exact where
  copies_iff chunk pages all := by
    rw [h.snapshot_eq, size, read_eq, copies_iff]
  mem_iff e := by
    rw [h.snapshot_eq, get?, read_eq, Store.get?_eq_some_iff]
  increasing := by
    rw [h.snapshot_eq]
    exact s.store.increasing
  length := by
    rw [h.snapshot_eq, size, read_eq]
    rfl
  reading := by
    rw [reading_of_settled h.next_and_page.1 h.tries, snapshot, read_eq]
  any_page_size chunk positive := by
    rw [h.snapshot_eq]
    exact snapshot_eq_entries positive

/-- Settings that come about make a series over any store, and a reachable one. -/
theorem reachable_of_obtainable {c : Settings} (hc : c.Obtainable) (store : Store) :
    ∃ s, make c store = .ok s ∧ s.store = store ∧ s.Reachable := by
  have htries : c.readTries ≠ 0 := Nat.ne_of_gt hc.positive.readTries
  have hmade : make c store =
      .ok { store := store, gate := { readTries := c.readTries }, settings := c } := by
    rw [make, Gate.make, if_neg htries]
    rfl
  exact ⟨_, hmade, rfl, .make hc.positive.ofChanges hmade⟩

/-- Settings that come about have a page size and tries, and so they make a series over any store;
and whatever happens to the series then, a snapshot of it is exact. -/
theorem snapshot_is_exact {c : Settings} (hc : c.Obtainable) (store : Store) :
    0 < c.pageSize ∧ 0 < c.readTries ∧ ∃ s, make c store = .ok s ∧ s.store = store ∧
      ∀ turns : List Turn, (s.afterTurns turns).Exact := by
  obtain ⟨s, hmade, hstore, hreachable⟩ := reachable_of_obtainable hc store
  exact ⟨hc.positive.pageSize, hc.positive.readTries, s, hmade, hstore,
    fun turns => (hreachable.afterTurns turns).exact⟩

theorem snapshot_is_exact_in_pages_of_two :
    Settings.ofDocument "snapshot_chunk = 2" = .ok ⟨1000000000, 1024, 2⟩ ∧
      ∃ s, make ⟨1000000000, 1024, 2⟩ (.ofList [(.int 4, .int 40), (.int 2, .int 20),
          (.int 1, .int 10), (.int 3, .int 30)]) = .ok s ∧
        s.snapshot.length = 4 ∧ Copies s.store 2 [] 3 s.snapshot ∧
        (.int 3, .int 30) ∈ s.snapshot := by
  have hread : Settings.ofDocument "snapshot_chunk = 2" = .ok ⟨1000000000, 1024, 2⟩ := by decide
  obtain ⟨-, -, s, hmade, hstore, hexact⟩ :=
    snapshot_is_exact (Settings.obtainable_ofDocument hread) (.ofList [(.int 4, .int 40),
      (.int 2, .int 20), (.int 1, .int 10), (.int 3, .int 30)])
  have hsize : s.size = 4 := by
    rw [size, read_eq, hstore]
    decide
  have hget : s.get? (.int 3) = some (.int 30) := by
    rw [get?, read_eq, hstore]
    decide
  have hnow : s.Exact := hexact []
  refine ⟨hread, s, hmade, hnow.length.trans hsize, ?_, (hnow.mem_iff _).mpr hget⟩
  exact (hnow.copies_iff 2 3 _).mpr ⟨by decide, by rw [hsize], rfl⟩

end Series

end LiveSeries
