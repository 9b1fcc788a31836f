import Mathlib.Data.Nat.Find
import LiveSeries.Proofs.GateRuns

/-!
# Reads of a gate

A read looks at two counters only, the version before a run of its reader and the open version
after it, and its reader may do to the gate whatever a caller can do: open writes and take them
back, publish more than once, assign versions far ahead, complete the gate. Still a run counts
exactly if it was undisturbed (`Held.Undisturbed`): it published no version, and left no write open
that had yet to publish (`Held.counts_iff`). For the version goes up with each one that is published
and never comes back, and the open version is above it exactly while such a write is held.

So a read has the value of the first undisturbed run, and if there is none among those that the gate
grants, that of one run under the lock, during which nothing can be published
(`Caller.read_undisturbed`).
-/

namespace LiveSeries

namespace Held

/-! ## What runs publish -/

/-- The action publishes a version, one that was not published before. A write that has published
has no version left: asked again, it answers the version that stands. -/
inductive Publishes (h : Held) : GateAction → Prop where
  | opened (holds : h.write = some false) : Publishes h .publish
  | assigned {published : Bool} {v : Nat} (holds : h.write = some published)
      (later : h.gate.version < v) : Publishes h (.publishAs v)
  /-- Entered, published and left at once. -/
  | wrote {g : Gate} (entered : h.gate.enter = .ok g) : Publishes h .write

/-- One of the actions publishes a version. -/
def PublishesIn (h : Held) : List GateAction → Prop
  | [] => False
  | a :: rest => h.Publishes a ∨ (h.act a).2.PublishesIn rest

/-- The actions publish no version, and leave no write open that has not published. -/
def Undisturbed (h : Held) (actions : List GateAction) : Prop :=
  ¬ h.PublishesIn actions ∧ (h.acts actions).2.write ≠ some false

/-- The state in which a run begins that comes after `i` others. -/
def beforeRun (h : Held) (runs : List (List GateAction)) : Nat → Held
  | 0 => h
  | i + 1 => ((h.beforeRun runs i).acts (runs.getD i [])).2

/-- A run of the list is undisturbed. -/
def UndisturbedRun (h : Held) (runs : List (List GateAction)) (i : Nat) : Prop :=
  (h.beforeRun runs i).Undisturbed (runs.getD i [])

section Publishes

variable {h : Held} {reading : Bool} {a : GateAction} {actions : List GateAction}

/-- To publish again does nothing. -/
theorem act_publish_again (hc : Caller.Consistent ⟨h, reading⟩) (hholds : h.write = some true) :
    h.act .publish = (.version h.gate.version, h) := by
  have hnext : h.gate.nextVersion = h.gate.version := by
    have hsame := hc.next
    rw [hholds] at hsame
    exact hsame
  have hsame : h.gate.publish = h.gate :=
    congrArg (fun v => { h.gate with version := v }) hnext
  simp only [act, hholds, hsame]
  rw [← hholds]

/-- An action publishes exactly if the version changes. -/
theorem publishes_iff (hc : Caller.Consistent ⟨h, reading⟩) :
    h.Publishes a ↔ (h.act a).2.gate.version ≠ h.gate.version := by
  have hnext : h.gate.nextVersion =
    if h.write = some false then h.gate.version + 1 else h.gate.version := hc.next
  constructor
  · intro hpublishes
    cases hpublishes with
    | opened holds =>
        simp only [act, holds, Gate.publish]
        rw [hnext, if_pos holds]
        omega
    | @assigned published v holds later =>
        simp only [act, holds, Gate.publishAs, if_pos later]
        omega
    | @wrote g entered =>
        obtain ⟨-, -, rfl⟩ := Gate.of_enter entered
        simp only [act, entered, Gate.publish, Gate.leave]
        omega
  · intro hchanged
    have hdid := did_act h a
    generalize (h.act a).1 = answer at hdid
    generalize hafter : (h.act a).2 = after at hdid hchanged
    cases hdid with
    | idle | entered | left | completed => exact absurd rfl hchanged
    | @published published holds =>
        cases published with
        | false => exact .opened holds
        | true =>
            refine absurd ?_ hchanged
            show h.gate.nextVersion = h.gate.version
            rw [hnext, holds]
            rfl
    | publishedAs holds later => exact .assigned holds later
    | wrote free admits =>
        cases hentered : h.gate.enter with
        | ok g => exact .wrote hentered
        | error r =>
            simp only [act, hentered] at hafter
            exact absurd (congrArg (fun h => h.gate.version) hafter).symm hchanged

theorem consistent_acts (hc : Caller.Consistent ⟨h, reading⟩) (actions : List GateAction) :
    Caller.Consistent ⟨(h.acts actions).2, reading⟩ := by
  rw [← Caller.run_acts]
  exact hc.run _

theorem version_le_acts (hc : Caller.Consistent ⟨h, reading⟩) (actions : List GateAction) :
    h.gate.version ≤ (h.acts actions).2.gate.version := by
  have hsince := hc.since_run (actions.map .act)
  rw [Caller.run_acts] at hsince
  exact hsince.version

/-- Actions publish exactly if the version changes over all of them, for it never comes back. -/
theorem publishesIn_iff (hc : Caller.Consistent ⟨h, reading⟩) :
    h.PublishesIn actions ↔ (h.acts actions).2.gate.version ≠ h.gate.version := by
  induction actions generalizing h with
  | nil => simp [PublishesIn, acts]
  | cons a rest ih =>
      have hc' : Caller.Consistent ⟨(h.act a).2, reading⟩ := hc.did (did_act h a)
      have hfirst : h.gate.version ≤ (h.act a).2.gate.version :=
        (hc.since_did (did_act h a)).version
      have hrest := version_le_acts hc' rest
      show h.Publishes a ∨ (h.act a).2.PublishesIn rest ↔
        ((h.act a).2.acts rest).2.gate.version ≠ h.gate.version
      rw [publishes_iff hc, ih hc']
      omega

/-- What a read compares after a run tells whether the run was undisturbed. -/
theorem counts_iff (hc : Caller.Consistent ⟨h, reading⟩) :
    h.gate.version = (h.acts actions).2.gate.nextVersion ↔ h.Undisturbed actions := by
  have hle := version_le_acts hc actions
  have hnext : (h.acts actions).2.gate.nextVersion =
    if (h.acts actions).2.write = some false then (h.acts actions).2.gate.version + 1
    else (h.acts actions).2.gate.version := (consistent_acts hc actions).next
  rw [Undisturbed, publishesIn_iff hc, hnext]
  by_cases hopen : (h.acts actions).2.write = some false
  · -- the open version is above the one before the run
    rw [if_pos hopen]
    simp only [hopen, ne_eq, not_true, and_false, iff_false]
    omega
  · rw [if_neg hopen, and_iff_left hopen, ne_eq, Classical.not_not, eq_comm]

theorem consistent_beforeRun (hc : Caller.Consistent ⟨h, reading⟩) (runs : List (List GateAction))
    (i : Nat) : Caller.Consistent ⟨h.beforeRun runs i, reading⟩ := by
  induction i with
  | zero => exact hc
  | succ i ih => exact consistent_acts ih _

/-- Whoever holds the lock for a read publishes nothing: there is no write, and none is let in. -/
theorem not_publishesIn_of_reading (hc : Caller.Consistent ⟨h, true⟩) :
    ¬ h.PublishesIn actions := by
  induction actions generalizing h with
  | nil => exact id
  | cons a rest ih =>
      have hwrite : h.write = none := hc.alone rfl
      have hlocked : h.gate.locked = true := by
        rw [hc.locked]
        exact Bool.or_true _
      rintro (hfirst | hrest)
      · cases hfirst with
        | opened holds | assigned holds => rw [hwrite] at holds; cases holds
        | wrote entered =>
            obtain ⟨-, free, -⟩ := Gate.of_enter entered
            rw [hlocked] at free
            cases free
      · exact ih (hc.did (did_act h a)) hrest

end Publishes

/-! ## Reads -/

section Read

variable {h : Held} {reading : Bool} {runs : List (List GateAction)}

theorem undisturbedRun_iff (hc : Caller.Consistent ⟨h, reading⟩) (i : Nat) :
    (h.beforeRun runs i).gate.version = (h.beforeRun runs (i + 1)).gate.nextVersion ↔
      h.UndisturbedRun runs i :=
  counts_iff (consistent_beforeRun hc runs i)

theorem tryRead_of_disturbed (hc : Caller.Consistent ⟨h, reading⟩) {tries first : Nat}
    (hdisturbed : ¬ h.UndisturbedRun runs first) :
    Gate.tryRead Held.gate (fun i h => h.acts (runs.getD i [])) (tries + 1) first
        (h.beforeRun runs first) =
      Gate.tryRead Held.gate (fun i h => h.acts (runs.getD i [])) tries (first + 1)
        (h.beforeRun runs (first + 1)) := by
  rw [Gate.tryRead]
  exact if_neg fun hcounts => hdisturbed ((undisturbedRun_iff hc first).mp hcounts)

/-- The tries from some run on end with the first run that is undisturbed. -/
theorem tryRead_of_first (hc : Caller.Consistent ⟨h, reading⟩) {tries first i : Nat}
    (hle : first ≤ i) (hlt : i < first + tries) (hi : h.UndisturbedRun runs i)
    (hbefore : ∀ j, first ≤ j → j < i → ¬ h.UndisturbedRun runs j) :
    Gate.tryRead Held.gate (fun i h => h.acts (runs.getD i [])) tries first
        (h.beforeRun runs first) =
      (some (((h.beforeRun runs i).acts (runs.getD i [])).1, i + 1), h.beforeRun runs (i + 1)) := by
  induction tries generalizing first with
  | zero => omega
  | succ tries ih =>
      by_cases hfirst : first = i
      · subst hfirst
        rw [Gate.tryRead]
        exact if_pos ((undisturbedRun_iff hc first).mpr hi)
      · rw [tryRead_of_disturbed hc (hbefore first (Nat.le_refl first) (by omega))]
        exact ih (by omega) (by omega) fun j hj => hbefore j (by omega)

/-- Without an undisturbed run all tries are made, and for nothing. -/
theorem tryRead_of_none (hc : Caller.Consistent ⟨h, reading⟩) {tries first : Nat}
    (hnone : ∀ j, first ≤ j → j < first + tries → ¬ h.UndisturbedRun runs j) :
    Gate.tryRead Held.gate (fun i h => h.acts (runs.getD i [])) tries first
        (h.beforeRun runs first) = (none, h.beforeRun runs (first + tries)) := by
  induction tries generalizing first with
  | zero => rfl
  | succ tries ih =>
      rw [tryRead_of_disturbed hc (hnone first (Nat.le_refl first) (by omega)),
        show first + (tries + 1) = first + 1 + tries by omega]
      exact ih fun j hj hj' => hnone j (by omega) (by omega)

theorem read_of_first (hc : Caller.Consistent ⟨h, reading⟩) (hsync : h.gate.synchronized = true)
    {i : Nat} (hlt : i < h.gate.readTries) (hi : h.UndisturbedRun runs i)
    (hbefore : ∀ j < i, ¬ h.UndisturbedRun runs j) :
    h.read runs = ⟨h.beforeRun runs (i + 1),
      ((h.beforeRun runs i).acts (runs.getD i [])).1, i + 1, false⟩ := by
  have htried : Gate.tryRead Held.gate (fun i h => h.acts (runs.getD i [])) h.gate.readTries 0 h =
      (some (((h.beforeRun runs i).acts (runs.getD i [])).1, i + 1), h.beforeRun runs (i + 1)) :=
    tryRead_of_first hc (Nat.zero_le i) (by omega) hi fun j _ => hbefore j
  simp only [read, Gate.read, if_pos hsync, htried]

/-- The state after the last try, with the lock taken for one more run. -/
def lockedAfterTries (h : Held) (runs : List (List GateAction)) : Held :=
  (h.beforeRun runs h.gate.readTries).setLocked true

theorem tries_of_none (hc : Caller.Consistent ⟨h, reading⟩)
    (hnone : ∀ j < h.gate.readTries, ¬ h.UndisturbedRun runs j) :
    Gate.tryRead Held.gate (fun i h => h.acts (runs.getD i [])) h.gate.readTries 0 h =
      (none, h.beforeRun runs h.gate.readTries) := by
  have htried := tryRead_of_none hc
    (fun j _ hj => hnone j (by omega) : ∀ j, 0 ≤ j → j < 0 + h.gate.readTries → _)
  rw [Nat.zero_add] at htried
  exact htried

theorem read_of_none (hc : Caller.Consistent ⟨h, reading⟩) (hsync : h.gate.synchronized = true)
    (hnone : ∀ j < h.gate.readTries, ¬ h.UndisturbedRun runs j) :
    h.read runs =
      ⟨((h.lockedAfterTries runs).acts (runs.getD h.gate.readTries [])).2.setLocked false,
        ((h.lockedAfterTries runs).acts (runs.getD h.gate.readTries [])).1,
        h.gate.readTries + 1, true⟩ := by
  simp only [read, Gate.read, if_pos hsync, tries_of_none hc hnone, lockedAfterTries]

/-- The last run publishes nothing, if it has the lock. -/
theorem not_publishesIn_locked (hc : Caller.Consistent ⟨h, reading⟩)
    (hfree : (h.beforeRun runs h.gate.readTries).gate.locked = false)
    (actions : List GateAction) : ¬ (h.lockedAfterTries runs).PublishesIn actions := by
  have hafter := consistent_beforeRun hc runs h.gate.readTries
  obtain ⟨-, rfl⟩ := hafter.holds_nothing hfree
  have hlock : (⟨h.beforeRun runs h.gate.readTries, false⟩ : Caller).turn .lock =
      (.nothing, ⟨h.lockedAfterTries runs, true⟩) := if_neg (Bool.eq_false_iff.mp hfree)
  have hreading := hafter.turn .lock
  rw [hlock] at hreading
  exact not_publishesIn_of_reading hreading

/-- What a read does on a gate that grants it `tries` runs. -/
structure ReadsUndisturbed (h : Held) (tries : Nat) (runs : List (List GateAction)) : Prop where
  /-- The value is that of the first undisturbed run, and no run comes after it. -/
  first : h.gate.synchronized = true → ∀ i < tries, h.UndisturbedRun runs i →
    (∀ j < i, ¬ h.UndisturbedRun runs j) →
    h.read runs = ⟨h.beforeRun runs (i + 1),
      ((h.beforeRun runs i).acts (runs.getD i [])).1, i + 1, false⟩
  /-- Without one, the reader runs once more with the lock held, if the lock is free, and that run
  publishes nothing. -/
  last : h.gate.synchronized = true → (∀ j < tries, ¬ h.UndisturbedRun runs j) →
    (h.beforeRun runs tries).gate.locked = false →
    h.read runs =
        ⟨(((h.beforeRun runs tries).setLocked true).acts (runs.getD tries [])).2.setLocked false,
          (((h.beforeRun runs tries).setLocked true).acts (runs.getD tries [])).1,
          tries + 1, true⟩ ∧
      ¬ ((h.beforeRun runs tries).setLocked true).PublishesIn (runs.getD tries [])
  /-- On a completed gate the first run counts, whatever it does. -/
  closed : h.gate.readOnly = true →
    h.read runs = ⟨h.beforeRun runs 1, (h.acts (runs.getD 0 [])).1, 1, false⟩
  runs_le : (h.read runs).runs ≤ tries + 1

theorem readsUndisturbed (hc : Caller.Consistent ⟨h, reading⟩) (runs : List (List GateAction)) :
    h.ReadsUndisturbed h.gate.readTries runs := by
  have hunsync : h.gate.synchronized = false →
      h.read runs = ⟨h.beforeRun runs 1, (h.acts (runs.getD 0 [])).1, 1, false⟩ := by
    intro hsync
    simp only [read, Gate.read, hsync, Bool.false_eq_true, if_false]
    rfl
  constructor
  · exact fun hsync i hlt => read_of_first hc hsync hlt
  · exact fun hsync hnone hfree =>
      ⟨read_of_none hc hsync hnone, not_publishesIn_locked hc hfree _⟩
  · intro hclosed
    exact hunsync (hc.synchronized.trans (congrArg not hclosed))
  · cases hsync : h.gate.synchronized with
    | false =>
        rw [hunsync hsync]
        exact Nat.le_add_left 1 _
    | true =>
        classical
        by_cases hsome : ∃ i < h.gate.readTries, h.UndisturbedRun runs i
        · obtain ⟨hlt, hi⟩ := Nat.find_spec hsome
          have hbefore : ∀ j < Nat.find hsome, ¬ h.UndisturbedRun runs j :=
            fun j hj hundisturbed => Nat.find_min hsome hj ⟨Nat.lt_trans hj hlt, hundisturbed⟩
          rw [read_of_first hc hsync hlt hi hbefore]
          exact Nat.le_succ_of_le hlt
        · rw [read_of_none hc hsync fun j hj hundisturbed => hsome ⟨j, hj, hundisturbed⟩]

end Read

end Held

namespace Caller

theorem readTries_turn (c : Caller) (t : GateTurn) :
    (c.turn t).2.gate.readTries = c.gate.readTries := by
  cases t with
  | act a =>
      have hdid := Held.did_act c.toHeld a
      show (c.toHeld.act a).2.gate.readTries = c.toHeld.gate.readTries
      generalize (c.toHeld.act a).1 = answer, (c.toHeld.act a).2 = after at hdid ⊢
      cases hdid <;> rfl
  | lock | unlock => simp only [turn]; split <;> rfl

theorem readTries_run (c : Caller) (turns : List GateTurn) :
    (c.run turns).2.gate.readTries = c.gate.readTries := by
  induction turns generalizing c with
  | nil => rfl
  | cons t rest ih => exact (ih (c.turn t).2).trans (readTries_turn c t)

theorem readTries_make {tries : Nat} {g : Gate} (hg : Gate.make tries = .ok g) :
    g.readTries = tries := by
  unfold Gate.make at hg
  split at hg
  · cases hg
  · cases hg
    rfl

/-- Every read of every gate, whatever was done to the gate before and whatever its reader does to
it, has the value of an undisturbed run or of one that held the lock. -/
theorem read_undisturbed {tries : Nat} {g : Gate} (hg : Gate.make tries = .ok g)
    (turns : List GateTurn) (runs : List (List GateAction)) :
    ((idle g).run turns).2.toHeld.ReadsUndisturbed tries runs := by
  have hc := (consistent_make hg).1.run turns
  have htries : ((idle g).run turns).2.gate.readTries = tries :=
    (readTries_run (idle g) turns).trans (readTries_make hg)
  have hreads := Held.readsUndisturbed hc runs
  rw [htries] at hreads
  exact hreads

/-- A write that published three. -/
def writeAtThree : List GateTurn := [.act .enter, .act (.publishAs 3)]

/-- The reader assigns a version through that write, leaves it and opens another one, publishes
that, and opens a third one which it takes back. -/
def restlessRuns : List (List GateAction) :=
  [[.publishAs 5], [.leave, .enter], [.publish, .leave], [.enter, .leave]]

/-- The same, but the gate is completed in place of the third write, and then two writes are tried. -/
def closingRuns : List (List GateAction) :=
  [[.publishAs 5], [.leave, .enter], [.publish, .leave, .complete], [.enter, .write]]

theorem read_undisturbed_restlessRuns :
    (((idle { readTries := 4 }).run writeAtThree).2.toHeld.read restlessRuns).fellBack = false ∧
      (((idle { readTries := 4 }).run writeAtThree).2.toHeld.read restlessRuns).value =
        [.versions 6 7, .flag true] ∧
      (((idle { readTries := 3 }).run writeAtThree).2.toHeld.read closingRuns).fellBack = true ∧
      (((idle { readTries := 3 }).run writeAtThree).2.toHeld.read closingRuns).value =
        [.refused .readOnly, .refused .readOnly] := by
  have hmade : Gate.make 4 = .ok { readTries := 4 } := rfl
  have hmade' : Gate.make 3 = .ok { readTries := 3 } := rfl
  have hc : Consistent ⟨((idle { readTries := 4 }).run writeAtThree).2.toHeld, false⟩ :=
    (consistent_make hmade).1.run writeAtThree
  have hc' : Consistent ⟨((idle { readTries := 3 }).run writeAtThree).2.toHeld, false⟩ :=
    (consistent_make hmade').1.run writeAtThree
  have hdisturbed : ∀ j < 3,
      ¬ ((idle { readTries := 4 }).run writeAtThree).2.UndisturbedRun restlessRuns j := by
    simp only [← Held.undisturbedRun_iff hc]
    decide
  have hdisturbed' : ∀ j < 3,
      ¬ ((idle { readTries := 3 }).run writeAtThree).2.UndisturbedRun closingRuns j := by
    simp only [← Held.undisturbedRun_iff hc']
    decide
  have hfirst := (read_undisturbed hmade writeAtThree restlessRuns).first rfl 3 (by decide)
    ((Held.undisturbedRun_iff hc 3).mp rfl) hdisturbed
  have hlast := (read_undisturbed hmade' writeAtThree closingRuns).last rfl hdisturbed' rfl
  rw [hfirst, hlast.1]
  decide

end Caller

end LiveSeries
