import LiveSeries.Proofs.Redelivery

/-!
# Completion by command

A command to complete a series brings a version along, but it is never skipped for it: it is
compared with the version of the series wherever the two stand. Below the last version it gets
through. The series keeps its entries and its versions and is completed, and the answer says whether
this command did it (`Series.completion_gets_through_iff`).

At the last version the comparison faults, since there is no next version to compare with, and the
completion is not tried any more (`Series.completion_faults_at_last`). It is the comparison alone
that stands in the way: a direct completion compares nothing, and gets through at every version.
-/

namespace LiveSeries

namespace Series

/-- The series with the same entries and versions, and completed. -/
structure Closes (s s' : Series) : Prop where
  store : s'.store = s.store
  version : s'.version = s.version
  next : s'.nextVersion = s.nextVersion
  completed : s'.isCompleted = true

/-- The command completes the series, or finds it completed and is skipped. -/
structure GetsThrough (s : Series) (c : StampedCommand) : Prop where
  result : (s.apply c).result = .ok (if s.isCompleted then .skipped else .completed)
  /-- The series as targets see it. -/
  seen : s.Closes (s.apply c).series
  settled : s.Closes (s.apply c).settled

/-- A reachable series whose gate is free is at rest. -/
theorem Reachable.atRest {s : Series} (h : s.Reachable) (hfree : s.gate.locked = false) :
    s.AtRest :=
  ⟨hfree, h.next_and_page.1, h.next_and_page.2⟩

/-- A writer that leaves the gate takes nothing along. -/
theorem Closes.settled {α : Type} {s : Series} {w : Write α} (h : s.Closes w.series) :
    s.Closes w.settled := by
  unfold Write.settled
  split
  · exact ⟨h.store, h.version, h.next, h.completed⟩
  · exact h

/-- A direct completion gets through at every version. -/
theorem AtRest.closes_complete {s : Series} (h : s.AtRest) :
    s.complete.result = .ok (!s.isCompleted) ∧ s.Closes s.complete.series := by
  cases hcompleted : s.isCompleted with
  | true =>
      rw [h.complete_of_completed hcompleted]
      exact ⟨rfl, rfl, rfl, rfl, hcompleted⟩
  | false =>
      have hpublishes := h.publishes_complete hcompleted
      refine ⟨hpublishes.result, ?_⟩
      cases told_complete s with
      | void void =>
          -- whoever completes a series tells its targets
          have hnotice := hpublishes.notice
          rw [void.notice] at hnotice
          cases hnotice
      | closed _ store version next completed =>
          exact ⟨store, version, next.trans (version.trans h.next.symm), completed⟩

section Completion

variable {s : Series} {c : StampedCommand} (hc : c.command = .complete)

include hc

/-- Wherever there is a next version to compare with, a completion is performed; that versions were
passed over is only reported. -/
theorem AtRest.getsThrough (h : s.AtRest) (hbelow : s.version ≠ Gate.lastVersion) :
    s.GetsThrough c := by
  obtain ⟨gap, happly⟩ := exists_apply_eq_after (fun hseen => hseen.2 hc) hbelow
  obtain ⟨hresult, hcloses⟩ := h.closes_complete
  have hseries : (s.apply c).series = s.complete.series := by
    rw [happly, hc]
    rfl
  have hanswer : (s.apply c).result =
      s.complete.result.map fun first => if first then .completed else .skipped := by
    rw [happly, hc]
    rfl
  have hseen : s.Closes (s.apply c).series := hseries ▸ hcloses
  refine ⟨?_, hseen, hseen.settled⟩
  rw [hanswer, hresult]
  cases s.isCompleted <;> rfl

theorem apply_at_last (hlast : s.version = Gate.lastVersion) :
    s.apply c = { result := .error (.fault .addOverflow), series := s } :=
  (if_neg fun hseen => hseen.2 hc).trans (if_pos hlast)

end Completion

/-- In every reachable state in which nobody is writing, a completion by command gets through,
whatever version it brings, unless the series is at the last version. There it faults, also if the
series is completed, and leaves the series as it is, though nothing speaks against a direct
completion. -/
theorem completion_gets_through_iff {s : Series} (hs : s.Reachable)
    (hfree : s.gate.locked = false) {c : StampedCommand} (hc : c.command = .complete) :
    (s.GetsThrough c ↔ s.version ≠ Gate.lastVersion) ∧
      (s.version = Gate.lastVersion →
        (s.apply c).result = .error (.fault .addOverflow) ∧ (s.apply c).Void s ∧
          s.complete.result = .ok (!s.isCompleted) ∧ s.Closes s.complete.settled) := by
  have hrest := hs.atRest hfree
  refine ⟨⟨?_, hrest.getsThrough hc⟩, ?_⟩
  · intro hthrough hlast
    have hresult := hthrough.result
    rw [apply_at_last hc hlast] at hresult
    cases hresult
  · intro hlast
    obtain ⟨hresult, hcloses⟩ := hrest.closes_complete
    rw [apply_at_last hc hlast]
    exact ⟨rfl, ⟨rfl, rfl⟩, hresult, hcloses.settled⟩

/-- A completion that brings a version long passed. -/
def lateCompletion : StampedCommand := ⟨7, 0, .complete⟩

/-- A series of one entry that took a command which left versions out. -/
def pastGap : Series := ((ofList [(.int 1, .int 10)]).apply gapCommand).settled

theorem completion_gets_through_late :
    pastGap.version = 5 ∧ (pastGap.apply lateCompletion).result = .ok .completed := by
  have hreachable : pastGap.Reachable := .settle (.write (.command gapCommand) (.ofList _))
  have hthrough := (completion_gets_through_iff hreachable rfl (c := lateCompletion) rfl).1.mpr
    (by decide)
  exact ⟨rfl, hthrough.result⟩

/-- The series that took a command under the last version. -/
def atLast : Series := ((ofList []).apply ⟨7, Gate.lastVersion, .set (.int 1) (.int 10)⟩).settled

/-- One command brings an empty series to the last version, and from there no other completes it. -/
theorem completion_faults_at_last :
    atLast.Reachable ∧ atLast.gate.locked = false ∧ atLast.isCompleted = false ∧
      atLast.version = Gate.lastVersion ∧
      (atLast.apply ⟨7, Gate.lastVersion, .complete⟩).result = .error (.fault .addOverflow) ∧
      (atLast.apply ⟨7, Gate.lastVersion, .complete⟩).settled.isCompleted = false ∧
      ¬ atLast.GetsThrough ⟨7, Gate.lastVersion, .complete⟩ := by
  have hreachable : atLast.Reachable :=
    .settle (.write (.command ⟨7, Gate.lastVersion, .set (.int 1) (.int 10)⟩) (.ofList []))
  refine ⟨hreachable, rfl, rfl, rfl, rfl, rfl, ?_⟩
  intro hthrough
  have hresult := hthrough.result
  cases hresult

end Series

end LiveSeries
