import LiveSeries.Proofs.SessionActs
import LiveSeries.Proofs.Wakeup

/-!
# Readers in a session

A session that has no observers to react writes to the shared state as `Hub.change` does
(`hub_settle`). After a poll that did not fault it keeps a follower, or a cursor that waits by
itself, as `Reading.settle` says (`run_sayFollowerWaited`, `run_sayCursorWaited`).
-/

namespace LiveSeries

namespace Session

/-! ## Writes -/

/-- No observer reacts to what it is told. -/
def Unreactive (w : World) : Prop := ∀ o ∈ w.observers, o.reactions = []

theorem invoke_of_unreactive {w : World} (hw : Unreactive w) (n : Notifier) (force : Bool)
    (t : TargetId) :
    (invoke n force w t).hub = w.hub.invoke t ∧ (invoke n force w t).observers = w.observers := by
  unfold invoke Hub.invoke
  split
  · next htarget =>
      rw [htarget]
      exact ⟨rfl, rfl⟩
  · next htarget =>
      rw [htarget]
      cases hfind : w.observers.find? fun o => o.target == t with
      | none => exact ⟨rfl, rfl⟩
      | some o =>
          dsimp only
          rw [hw o (List.mem_of_find?_eq_some hfind)]
          exact ⟨rfl, rfl⟩
  · next htarget =>
      rw [htarget]
      exact ⟨rfl, rfl⟩

theorem hub_foldl_invoke {w : World} (hw : Unreactive w) (n : Notifier) (force : Bool)
    (targets : List TargetId) :
    (targets.foldl (invoke n force) w).hub = targets.foldl Hub.invoke w.hub := by
  induction targets generalizing w with
  | nil => rfl
  | cons t rest ih =>
      obtain ⟨hhub, hobservers⟩ := invoke_of_unreactive hw n force t
      have hnext : Unreactive (invoke n force w t) := by
        rw [Unreactive, hobservers]
        exact hw
      rw [List.foldl_cons, List.foldl_cons, ih hnext, hhub]

theorem hub_notify {w : World} (hw : Unreactive w) (depth : Nat) (n : Notice) :
    (notify (depth + 1) n w).hub = w.hub.deliver n := by
  rw [notify, Hub.deliver]
  rw [← hub_foldl_invoke hw (notify depth) n.force]
  split <;> rfl

/-- What a write of a session does to the shared state. -/
theorem hub_settle {α : Type} {w : World} (hw : Unreactive w) (depth : Nat) (id : SourceId)
    (write : Write α) :
    (World.settle (notify (depth + 1)) id write w).hub = w.hub.change id write := by
  unfold World.settle Hub.change
  dsimp only
  cases write.notice with
  | none => rfl
  | some n =>
      dsimp only
      rw [hub_notify (w := { w with hub := w.hub.commit id write }) hw depth n]

/-! ## Polls -/

/-- What a session keeps of a reader with its follower. -/
def keptFollower : Reader → Object
  | .resting f => .follower f
  | .asleep s => .sleeping s

/-- What a session keeps of a reader that has nothing but its cursor. -/
def keptCursor : Reader → Object
  | .resting f => .cursor f.cursor
  | .asleep s => .waiting s

section Waited

variable {a : Attempt Progress} {p : Progress} (hp : a.answer.outcome = .ok p) (name : String)
  (woken : Bool) (w : World)

include hp

theorem run_sayFollowerWaited :
    ((sayFollowerWaited name a woken).run.run w).2.hub = (Reading.lasting.settle a p).2 ∧
      ((sayFollowerWaited name a woken).run.run w).2.object? name =
        some (keptFollower (Reading.lasting.settle a p).1) := by
  unfold sayFollowerWaited sayWaited
  simp only [hp]
  match p with
  | .asleep s => exact ⟨rfl, World.object?_setObject _ _ _⟩
  | .ended (.error e) => exact ⟨rfl, World.object?_setObject _ _ _⟩
  | .ended (.ok true) =>
      let w₁ : World := { w with hub := a.hub, calls := w.calls + a.answer.calls }
      obtain ⟨calls, hsaid⟩ :=
        run_sayMoved a.follower.cursor true (w₁.setObject name (.follower a.follower))
      have hrun := run_bind_of_ok (f := fun said => (return {
        outcome := .ok said
        woken := some woken
        watched := some a.follower.subscriptions.length } : Act Answer)) hsaid
      constructor
      · exact (congrArg (fun x => x.2.hub) hrun :)
      · exact (congrArg (fun x => x.2.object? name) hrun).trans (World.object?_setObject _ _ _)
  | .ended (.ok false) =>
      -- a follower that came to the end gives its subscriptions back
      let f := (a.follower.release a.hub).1
      let w₁ : World :=
        { w with hub := (a.follower.release a.hub).2, calls := w.calls + a.answer.calls }
      obtain ⟨calls, hsaid⟩ :=
        run_sayMoved a.follower.cursor false (w₁.setObject name (.follower f))
      have hrun := run_bind_of_ok (f := fun said => (return {
        outcome := .ok said
        woken := some woken
        watched := some f.subscriptions.length } : Act Answer)) hsaid
      constructor
      · exact (congrArg (fun x => x.2.hub) hrun :)
      · exact (congrArg (fun x => x.2.object? name) hrun).trans (World.object?_setObject _ _ _)

theorem run_sayCursorWaited :
    ((sayCursorWaited name a woken).run.run w).2.hub = (Reading.once.settle a p).2 ∧
      ((sayCursorWaited name a woken).run.run w).2.object? name =
        some (keptCursor (Reading.once.settle a p).1) := by
  unfold sayCursorWaited sayWaited
  simp only [hp]
  match p with
  | .asleep s => exact ⟨rfl, World.object?_setObject _ _ _⟩
  | .ended (.error e) => exact ⟨rfl, World.object?_setObject _ _ _⟩
  | .ended (.ok landed) =>
      let w₁ : World :=
        { w with hub := (a.follower.release a.hub).2, calls := w.calls + a.answer.calls }
      obtain ⟨calls, hsaid⟩ :=
        run_sayMoved a.follower.cursor landed (w₁.setObject name (.cursor a.follower.cursor))
      have hrun := run_bind_of_ok (f := fun said => (return {
        outcome := .ok said
        woken := some woken } : Act Answer)) hsaid
      constructor
      · exact (congrArg (fun x => x.2.hub) hrun :)
      · exact (congrArg (fun x => x.2.object? name) hrun).trans (World.object?_setObject _ _ _)

end Waited

end Session

end LiveSeries
