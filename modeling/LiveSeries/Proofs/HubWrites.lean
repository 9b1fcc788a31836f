import Mathlib.Logic.Function.Iterate
import LiveSeries.Proofs.Mutation
import LiveSeries.Hub

/-!
# Writes to the shared state

A write changes its series, invokes the targets of its notification and leaves the gate
(`Hub.change`).

Of a series, those who wait see the entries, the completion and the registry
(`Series.visible`). A write shows these of its own series, and leaves those of all others
(`visible_change`); it wakes the waiters whose requests it found (`waiter_deliver`).
-/

namespace LiveSeries

/-- What those who wait see of a series. -/
def Series.visible (s : Series) : Store × Bool × Registry := (s.store, s.isCompleted, s.registry)

namespace Hub

/-! ## Invoking targets -/

/-- Invokes a target: a waiter is woken, and an observer only looks on. -/
def invoke (h : Hub) (t : TargetId) : Hub :=
  match h.targets[t]? with
  | some (.waiter _) => h.wake t
  | _ => h

/-- Invokes the targets of a notification, and reports it. -/
def deliver (h : Hub) (n : Notice) : Hub :=
  let h := n.targets.foldl invoke h
  if n.reported then h.report (.notified n.targets.length n.force) else h

/-- A whole write to a series. -/
def change {α : Type} (h : Hub) (id : SourceId) (w : Write α) : Hub :=
  match w.notice with
  | none => h.commit id w
  | some n => ((h.commit id w).deliver n).leave id

theorem series_invoke (h : Hub) (t : TargetId) : (h.invoke t).series = h.series := by
  unfold invoke
  split <;> rfl

theorem length_targets_invoke (h : Hub) (t : TargetId) :
    (h.invoke t).targets.length = h.targets.length := by
  unfold invoke
  split
  · exact List.length_set
  · rfl

/-! ## Waiters -/

/-- The target is a waiter. -/
def HasWaiter (h : Hub) (w : TargetId) : Prop := ∃ x, h.targets[w]? = some (.waiter x)

theorem HasWaiter.lt {h : Hub} {w : TargetId} (hw : h.HasWaiter w) : w < h.targets.length := by
  obtain ⟨x, hx⟩ := hw
  exact (List.getElem?_eq_some_iff.mp hx).1

theorem waiter_setWaiter_self {h : Hub} {w : TargetId} (hw : h.HasWaiter w) (x : Waiter) :
    (h.setWaiter w x).waiter w = x := by
  simp [waiter, setWaiter, List.getElem?_set_self hw.lt]

theorem waiter_setWaiter_of_ne {h : Hub} {w t : TargetId} (hne : t ≠ w) (x : Waiter) :
    (h.setWaiter t x).waiter w = h.waiter w := by
  simp [waiter, setWaiter, List.getElem?_set_ne hne]

theorem waiter_newTarget {h : Hub} {w : TargetId} (hw : h.HasWaiter w) (t : Target) :
    (h.newTarget t).2.waiter w = h.waiter w := by
  simp [waiter, newTarget, List.getElem?_append_left hw.lt]

theorem HasWaiter.setWaiter {h : Hub} {w : TargetId} (hw : h.HasWaiter w) (t : TargetId)
    (x : Waiter) : (h.setWaiter t x).HasWaiter w := by
  by_cases heq : t = w
  · subst heq
    exact ⟨x, List.getElem?_set_self hw.lt⟩
  · obtain ⟨y, hy⟩ := hw
    exact ⟨y, (List.getElem?_set_ne heq).trans hy⟩

theorem HasWaiter.invoke {h : Hub} {w : TargetId} (hw : h.HasWaiter w) (t : TargetId) :
    (h.invoke t).HasWaiter w := by
  unfold Hub.invoke
  split
  · exact hw.setWaiter t _
  · exact hw

/-- A waiter is woken exactly by its own invocation. -/
theorem waiter_invoke {h : Hub} {w : TargetId} (hw : h.HasWaiter w) (t : TargetId) :
    (h.invoke t).waiter w = if t = w then (h.waiter w).wake else h.waiter w := by
  by_cases heq : t = w
  · subst heq
    obtain ⟨x, hx⟩ := hw
    rw [if_pos rfl, Hub.invoke, hx]
    exact waiter_setWaiter_self ⟨x, hx⟩ _
  · rw [if_neg heq, Hub.invoke]
    split
    · exact waiter_setWaiter_of_ne heq _
    · rfl

section Fold

variable (targets : List TargetId)

theorem series_foldl_invoke (h : Hub) : (targets.foldl invoke h).series = h.series := by
  induction targets generalizing h with
  | nil => rfl
  | cons t rest ih => rw [List.foldl_cons, ih, series_invoke]

theorem length_targets_foldl_invoke (h : Hub) :
    (targets.foldl invoke h).targets.length = h.targets.length := by
  induction targets generalizing h with
  | nil => rfl
  | cons t rest ih => rw [List.foldl_cons, ih, length_targets_invoke]

theorem HasWaiter.foldl_invoke {h : Hub} {w : TargetId} (hw : h.HasWaiter w) :
    (targets.foldl Hub.invoke h).HasWaiter w := by
  induction targets generalizing h with
  | nil => exact hw
  | cons t rest ih => exact ih (hw.invoke t)

/-- Every invocation of a waiter wakes it once. -/
theorem waiter_foldl_invoke {h : Hub} {w : TargetId} (hw : h.HasWaiter w) :
    (targets.foldl invoke h).waiter w = Waiter.wake^[targets.count w] (h.waiter w) := by
  induction targets generalizing h with
  | nil => rfl
  | cons t rest ih =>
      rw [List.foldl_cons, ih (hw.invoke t), waiter_invoke hw t]
      by_cases heq : t = w
      · subst heq
        rw [if_pos rfl, List.count_cons_self]
        rfl
      · rw [if_neg heq, List.count_cons_of_ne heq]

end Fold

/-! ## The parts of a write -/

theorem sources_setSeries (h : Hub) (id : SourceId) (s : Series) (i : SourceId) :
    (h.setSeries id s).sources i = if i = id ∧ id < h.series.length then s else h.sources i := by
  simp only [sources, setSeries, List.getD_eq_getElem?_getD, List.getElem?_set]
  by_cases heq : id = i
  · subst heq
    by_cases hlt : id < h.series.length
    · simp [hlt]
    · simp [hlt]
  · simp [heq, Ne.symm heq]

theorem setSeries_sources (h : Hub) (id : SourceId) : h.setSeries id (h.sources id) = h := by
  have hset : h.series.set id (h.series.getD id default) = h.series := by
    refine List.ext_getElem? fun i => ?_
    rw [List.getElem?_set]
    split
    · next heq =>
        subst heq
        split
        · next hlt => simp [hlt]
        · next hlt => exact (List.getElem?_eq_none (Nat.not_lt.mp hlt)).symm
    · rfl
  rw [setSeries, sources, hset]

/-- Reports change nothing but what was reported. -/
theorem foldl_report (h : Hub) (events : List Event) :
    events.foldl report h = { h with reports := events.reverse ++ h.reports } := by
  induction events generalizing h with
  | nil => rfl
  | cons e rest ih =>
      rw [List.foldl_cons, ih, List.reverse_cons, List.append_assoc]
      rfl

section Write

variable {α : Type} (h : Hub) (id : SourceId) (w : Write α)

theorem series_commit : (h.commit id w).series = (h.setSeries id w.series).series := by
  rw [commit, foldl_report]

theorem targets_commit : (h.commit id w).targets = h.targets := by
  rw [commit, foldl_report]
  rfl

theorem series_deliver (n : Notice) : (h.deliver n).series = h.series := by
  unfold deliver
  dsimp only
  split
  · exact series_foldl_invoke n.targets h
  · exact series_foldl_invoke n.targets h

theorem targets_deliver (n : Notice) :
    (h.deliver n).targets = (n.targets.foldl invoke h).targets := by
  unfold deliver
  dsimp only
  split <;> rfl

/-- To leave the gate is nothing that could be seen. -/
theorem visible_leave (i : SourceId) :
    ((h.leave id).sources i).visible = (h.sources i).visible := by
  rw [leave, sources_setSeries]
  split
  · next hi => rw [hi.1]; rfl
  · rfl

theorem length_series_change : (h.change id w).series.length = h.series.length := by
  unfold change
  split
  · rw [series_commit]
    exact List.length_set
  · rw [leave, setSeries, List.length_set, series_deliver, series_commit]
    exact List.length_set

/-- A write shows in its own series, and in no other. -/
theorem visible_change (i : SourceId) :
    ((h.change id w).sources i).visible =
      if i = id ∧ id < h.series.length then w.series.visible else (h.sources i).visible := by
  have hcommit : (h.commit id w).sources i =
      if i = id ∧ id < h.series.length then w.series else h.sources i := by
    rw [← sources_setSeries, sources, series_commit]
    rfl
  have hvisible : ((h.commit id w).sources i).visible =
      if i = id ∧ id < h.series.length then w.series.visible else (h.sources i).visible := by
    rw [hcommit]
    split <;> rfl
  unfold change
  split
  · exact hvisible
  · rw [visible_leave, sources, series_deliver]
    exact hvisible

theorem targets_change_of_quiet (hw : w.notice = none) : (h.change id w).targets = h.targets := by
  rw [change, hw]
  exact targets_commit h id w

theorem targets_change_of_notice {n : Notice} (hw : w.notice = some n) :
    (h.change id w).targets = (n.targets.foldl invoke (h.commit id w)).targets := by
  rw [change, hw]
  exact targets_deliver _ n

end Write

end Hub

end LiveSeries
