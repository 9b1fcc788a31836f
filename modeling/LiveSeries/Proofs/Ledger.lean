import LiveSeries.Proofs.Snapshots
import LiveSeries.Proofs.SortedMap

/-!
# Series and their ledgers

A ledger is a finite map with a counter (`Ledger`). It answers the calls of a series out of the
map, and counts those that put entries in or took entries away. A series that is not completed and
has versions left answers every call as its ledger does, publishes just when the ledger counts, and
shows what the ledger holds afterwards (`Series.refines_ledger`).

The invariant of a run is `Series.Keeps`. It speaks of the store and the version only; what readers
see of a series follows from it (`Series.Keeps.reflects`).
-/

namespace LiveSeries

/-! ## Ledgers -/

/-- The entries of a map by their keys, and how often they were changed. -/
structure Ledger where
  entries : List Entry
  changes : Nat

namespace Ledger

/-- A call on a ledger: the answer, and the ledger afterwards. It counts if entries were moved. -/
def run (m : Ledger) (e : Edit) : Except Refusal e.Answer × Ledger :=
  match e.onMap m.entries with
  | .error r => (.error r, m)
  | .ok (a, none) => (.ok a, m)
  | .ok (a, some entries) => (.ok a, ⟨entries, m.changes + 1⟩)

/-- The ledger after calls. -/
def afterEdits (m : Ledger) (edits : List Edit) : Ledger :=
  edits.foldl (fun m e => (m.run e).2) m

end Ledger

namespace Series

/-! ## What readers see -/

/-- What a series shows is what the ledger holds. -/
structure Reflects (s : Series) (m : Ledger) : Prop where
  increasing : Increasing m.entries
  snapshot : s.snapshot = m.entries
  size : s.size = m.entries.length
  first : s.first? = m.entries.head?
  last : s.last? = m.entries.getLast?
  get : ∀ k, s.get? k = m.entries.lookup k
  find : ∀ k lookup, s.find? k lookup = nearest m.entries k lookup
  version : s.version = m.changes
  next : s.nextVersion = m.changes

/-- The series takes calls, and has the entries of the ledger under the version that it counts. -/
structure Keeps (s : Series) (m : Ledger) : Prop extends AtRest s where
  incomplete : s.isCompleted = false
  entries : s.store.entries = m.entries
  version : s.version = m.changes

theorem Keeps.reflects {s : Series} {m : Ledger} (h : s.Keeps m) : s.Reflects m where
  increasing := h.entries ▸ s.store.increasing
  snapshot := (snapshot_eq_entries h.page).trans h.entries
  size := by
    rw [Series.size, read_eq, Store.size, h.entries]
  first := by
    rw [Series.first?, read_eq, Store.first?, h.entries]
  last := by
    rw [Series.last?, read_eq, Store.last?, h.entries]
  get k := by
    rw [Series.get?, read_eq, Store.get?_eq_lookup, h.entries]
  find k lookup := by
    rw [Series.find?, read_eq, Store.find?_eq_nearest, h.entries]
  version := h.version
  next := h.next.trans h.version

/-! ## Calls -/

/-- The entries and the version of a series. -/
def ledger (s : Series) : Ledger := ⟨s.store.entries, s.version⟩

/-- The series after calls. -/
def afterEdits (s : Series) (edits : List Edit) : Series :=
  edits.foldl (fun s e => (e.run s).settled) s

/-- A write does on the series what the call does on the ledger. -/
structure Answers {e : Edit} (w : Write e.Answer) (m : Ledger) : Prop where
  result : w.result = (m.run e).1.mapError .refused
  publishes : w.notice.isSome = true ↔ (m.run e).2.changes = m.changes + 1
  keeps : w.settled.Keeps (m.run e).2

/-- A write that leaves its series as it is answers for a call that leaves its ledger as it is. -/
theorem Keeps.answers_unchanged {s : Series} {m : Ledger} (h : s.Keeps m) {e : Edit}
    {r : Except Refusal e.Answer} (hrun : m.run e = (r, m)) :
    Answers (e := e) { result := r.mapError .refused, series := s } m := by
  have hcount : m.changes ≠ m.changes + 1 := Nat.ne_of_lt (Nat.lt_succ_self _)
  constructor <;> rw [hrun]
  · exact ⟨nofun, fun hcounts => absurd hcounts hcount⟩
  · exact h

/-- One call on a series that keeps a ledger and has a version left. -/
theorem Keeps.answers {s : Series} {m : Ledger} (h : s.Keeps m)
    (hbelow : s.version < Gate.lastVersion) (e : Edit) : Answers (e.run s) m := by
  have hwritable : s.Writable := ⟨h.toAtRest, h.incomplete, hbelow⟩
  have honMap := e.change_eq_onMap s.store
  rw [h.entries] at honMap
  cases hchange : e.change s.store with
  | error r =>
      rw [hchange] at honMap
      have hrun : m.run e = (.error r, m) := by
        rw [Ledger.run, ← honMap]
        rfl
      rw [hwritable.run_of_refused hchange]
      exact h.answers_unchanged hrun
  | ok change =>
      obtain ⟨a, changed⟩ := change
      rw [hchange] at honMap
      cases changed with
      | none =>
          have hrun : m.run e = (.ok a, m) := by
            rw [Ledger.run, ← honMap]
            rfl
          rw [hwritable.run_of_unchanged hchange]
          exact h.answers_unchanged hrun
      | some store =>
          have hrun : m.run e = (.ok a, ⟨store.entries, m.changes + 1⟩) := by
            rw [Ledger.run, ← honMap]
            rfl
          have hpublishes := hwritable.publishes_run hchange
          constructor <;> rw [hrun]
          · exact hpublishes.result
          · exact ⟨fun _ => rfl, fun _ => hpublishes.notice⟩
          · rw [hpublishes.settled, ← h.version]
            exact ⟨h.published _ _, h.incomplete, rfl, rfl⟩

/-- No call takes a version back. -/
theorem AtRest.version_le_afterEdits {s : Series} (h : s.AtRest) (edits : List Edit) :
    s.version ≤ (s.afterEdits edits).version := by
  induction edits generalizing s with
  | nil => exact Nat.le_refl _
  | cons e rest ih =>
      have hstep : s.version ≤ (e.run s).settled.version := by
        rcases h.run_cases e with ⟨-, hsame⟩ | ⟨-, a, store, -, hrun⟩
        · exact Nat.le_of_eq (congrArg Series.version hsame.symm)
        · rw [hrun.settled]
          exact Nat.le_succ s.version
      exact Nat.le_trans hstep (ih (h.settled_run e))

/-- A series that keeps a ledger keeps it through calls, as long as it has versions left. -/
theorem Keeps.afterEdits {s : Series} {m : Ledger} (h : s.Keeps m) (edits : List Edit)
    (hbelow : (s.afterEdits edits).version < Gate.lastVersion) :
    (s.afterEdits edits).Keeps (m.afterEdits edits) := by
  induction edits generalizing s m with
  | nil => exact h
  | cons e rest ih =>
      have hnow : s.version < Gate.lastVersion :=
        Nat.lt_of_le_of_lt (h.version_le_afterEdits (e :: rest)) hbelow
      exact ih (h.answers hnow e).keeps hbelow

/-- Whatever calls came before, a series with versions left shows what its ledger holds, answers the
next call as the ledger does, publishes it if the ledger counts it, and shows what the ledger holds
then. -/
theorem refines_ledger {s : Series} (h : s.AtRest) (hopen : s.isCompleted = false)
    (edits : List Edit) (hbelow : (s.afterEdits edits).version < Gate.lastVersion) :
    (s.afterEdits edits).Reflects (s.ledger.afterEdits edits) ∧ ∀ e : Edit,
      (e.run (s.afterEdits edits)).result =
          ((s.ledger.afterEdits edits).run e).1.mapError .refused ∧
        ((e.run (s.afterEdits edits)).notice.isSome = true ↔
          ((s.ledger.afterEdits edits).run e).2.changes =
            (s.ledger.afterEdits edits).changes + 1) ∧
        (e.run (s.afterEdits edits)).settled.Reflects ((s.ledger.afterEdits edits).run e).2 := by
  have hbegin : s.Keeps s.ledger := ⟨h, hopen, rfl, rfl⟩
  have hkeeps := hbegin.afterEdits edits hbelow
  refine ⟨hkeeps.reflects, fun e => ?_⟩
  have hanswers := hkeeps.answers hbelow e
  exact ⟨hanswers.result, hanswers.publishes, hanswers.keeps.reflects⟩

/-- Calls of which the third changes nothing. -/
def fourCalls : List Edit :=
  [.set (.int 2) (.int 20), .removeMany (.int 1) .le, .tryAdd (.int 2) (.int 21),
    .append [(.int 2, .int 20), (.int 4, .int 40)] .acceptEqual]

theorem refines_ledger_after_fourCalls :
    ((ofList [(.int 1, .int 10), (.int 3, .int 30)]).afterEdits fourCalls).version = 3 ∧
      ((Edit.append [(.int 3, .int 31)] .dropOld).run
        ((ofList [(.int 1, .int 10), (.int 3, .int 30)]).afterEdits fourCalls)).settled.snapshot =
          [(.int 2, .int 20), (.int 3, .int 31)] := by
  have hrefines := refines_ledger (s := ofList [(.int 1, .int 10), (.int 3, .int 30)])
    ⟨rfl, rfl, by decide⟩ rfl fourCalls (by decide)
  exact ⟨hrefines.1.version.trans (by decide),
    (hrefines.2 (.append [(.int 3, .int 31)] .dropOld)).2.2.snapshot.trans (by decide)⟩

end Series

end LiveSeries
