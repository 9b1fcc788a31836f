import LiveSeries.Proofs.Wakeup

/-!
# What polls leave as it is

A poll subscribes, asks for notifications and queues up at its waiter. None of this changes a
series but for its registry (`Reader.sameSources_poll`), and a wait that ends or is given up
changes no more (`Reader.cursor_settle`, `Reader.cursor_abandon`).
-/

namespace LiveSeries

/-- A cursor sees the same in both, and so does a writer. -/
structure Hub.SameSources (h h' : Hub) : Prop where
  length : h'.series.length = h.series.length
  store : ∀ id, (h'.sources id).store = (h.sources id).store
  gate : ∀ id, (h'.sources id).gate = (h.sources id).gate

namespace Hub

theorem SameSources.refl (h : Hub) : h.SameSources h := ⟨rfl, fun _ => rfl, fun _ => rfl⟩

theorem SameSources.trans {h h' h'' : Hub} (a : h.SameSources h') (b : h'.SameSources h'') :
    h.SameSources h'' where
  length := b.length.trans a.length
  store id := (b.store id).trans (a.store id)
  gate id := (b.gate id).trans (a.gate id)

/-- This is what a cursor sees of a series. -/
theorem SameSources.sees {h h' : Hub} (hsame : h.SameSources h') (id : SourceId) :
    (h'.sources id).store = (h.sources id).store ∧
      (h'.sources id).isCompleted = (h.sources id).isCompleted :=
  ⟨hsame.store id, congrArg Gate.readOnly (hsame.gate id)⟩

theorem SameData.sameSources {h h' : Hub} (hsame : h.SameData h') : h.SameSources h' :=
  ⟨hsame.length, hsame.store, hsame.gate⟩

/-- Nothing that is done to waiters shows. -/
theorem sameSources_setWaiter (h : Hub) (w : TargetId) (x : Waiter) :
    h.SameSources (h.setWaiter w x) :=
  ⟨rfl, fun _ => rfl, fun _ => rfl⟩

end Hub

theorem Subscriptions.sameData_subscribe (set : Subscriptions) (h : Hub) (rid : RegistryId)
    (w : TargetId) : h.SameData (set.subscribe h rid w).2.2 := by
  unfold subscribe
  split
  · exact .refl h
  · have hsame := h.sameData_subscribe rid w
    split
    · next heq =>
        rw [heq] at hsame
        exact hsame
    · next heq =>
        rw [heq] at hsame
        exact hsame

/-- What holds of every single subscription holds of all those that a tree makes, also if one of
them is refused. -/
theorem Tree.subscribe_rel {R : Subscriptions × Hub → Subscriptions × Hub → Prop}
    (htrans : ∀ {a b c}, R a b → R b c → R a c) {t : Tree} {w : TargetId}
    (hseries : ∀ id ∈ t.leaves, ∀ (set : Subscriptions) (h : Hub),
      R (set, h) (set.subscribe h (.ofSeries id) w).2) (set : Subscriptions) (h : Hub) :
    R (set, h) (t.subscribe w set h).2 := by
  induction t generalizing set h with
  | series id => exact hseries id (List.mem_singleton_self id) set h
  | op t o ih => exact ih hseries set h
  | map t f ih => exact ih hseries set h
  | zip l r ihl ihr =>
      have hleft := ihl (fun id hid => hseries id (List.mem_append_left _ hid)) set h
      rw [subscribe]
      split
      · next heq =>
          rw [heq] at hleft
          exact htrans hleft (ihr (fun id hid => hseries id (List.mem_append_right _ hid)) _ _)
      · exact hleft
  | carry t ih => exact ih hseries set h
  | fill t otherwise ih => exact ih hseries set h
  | refuse t ih =>
      have hinner := ih hseries set h
      rw [subscribe]
      split
      · next heq =>
          rw [heq] at hinner
          exact hinner
      · exact hinner

theorem Tree.sameData_subscribe (t : Tree) (w : TargetId) (set : Subscriptions) (h : Hub) :
    h.SameData (t.subscribe w set h).2.2 :=
  subscribe_rel (R := fun a b => a.2.SameData b.2) (fun a b => a.trans b)
    (fun id _ set h => set.sameData_subscribe h (.ofSeries id) w) set h

namespace Follower

theorem sameData_watch (f : Follower) (h : Hub) : h.SameData (f.watch h).2.2 := by
  unfold watch
  split
  · exact f.cursor.tree.sameData_subscribe f.waiter f.subscriptions h
  · exact .refl h

/-- A round changes subscriptions and requests at the most. -/
theorem sameData_round (f : Follower) (token : Nat) (h : Hub) :
    h.SameData (f.round token h).hub := by
  unfold round
  split
  · exact .refl h
  · dsimp only
    split
    · exact .refl h
    · exact .refl h
    · have hwatch := (f.advance h).1.sameData_watch h
      split
      · next heq =>
          rw [heq] at hwatch
          exact hwatch
      · next heq =>
          rw [heq] at hwatch
          exact hwatch.trans (Hub.sameData_requestAll _ _ 1)

theorem sameSources_orSleep {h : Hub} {a : Attempt (Option (Except WaitError Bool))}
    (ha : h.SameSources a.hub) {sleep : Follower → Hub → Attempt Progress}
    (hsleep : ∀ (f' : Follower) (h' : Hub), h'.SameSources (sleep f' h').hub) :
    h.SameSources (orSleep a sleep).hub := by
  unfold orSleep
  split
  · exact ha
  · exact ha
  · exact ha.trans (hsleep _ _)

/-- A start touches registries and its waiter only. -/
theorem sameSources_start (f : Follower) (token : Nat) (h : Hub) :
    h.SameSources (f.start token h).hub := by
  refine sameSources_orSleep (f.sameData_round token h).sameSources fun f' h' => ?_
  dsimp only
  split
  · have hround := f'.sameData_round token
      (h'.setWaiter f'.waiter (h'.waiter f'.waiter).takePermit)
    have htaken := h'.sameSources_setWaiter f'.waiter (h'.waiter f'.waiter).takePermit
    exact htaken.trans
      (sameSources_orSleep hround.sameSources fun f'' h'' => h''.sameSources_setWaiter f''.waiter _)
  · exact h'.sameSources_setWaiter _ _

end Follower

theorem Sleeper.sameSources_poll (s : Sleeper) (h : Hub) : h.SameSources (s.poll h).hub := by
  unfold poll
  split
  · exact h.sameSources_setWaiter _ _
  · split
    · next w _ =>
        exact (h.sameSources_setWaiter s.follower.waiter w).trans
          (s.follower.sameSources_start s.token _)
    · exact .refl h

namespace Reader

theorem sameSources_poll (r : Reading) (token : Nat) (h : Hub) (reader : Reader) :
    h.SameSources (reader.poll r token h).hub := by
  cases reader with
  | resting f =>
      have hprepare : h.SameSources (r.prepare f h).2 := by
        cases r <;> exact ⟨rfl, fun _ => rfl, fun _ => rfl⟩
      exact hprepare.trans (Follower.sameSources_start _ _ _)
  | asleep s => exact s.sameSources_poll h

theorem cursor_finish (r : Reading) (landed : Bool) (f : Follower) (h : Hub) :
    (r.finish landed f h).1.cursor = f.cursor ∧ h.SameSources (r.finish landed f h).2 := by
  unfold Reading.finish
  split
  · exact ⟨rfl, .refl h⟩
  · exact ⟨rfl, (h.sameData_unsubscribeAll _).sameSources⟩

/-- What remains of a poll reads the same series, with the cursor that the poll left. -/
theorem cursor_settle (r : Reading) (a : Attempt Progress) (p : Progress)
    (hp : ∀ s, p = .asleep s → s.follower = a.follower) :
    (r.settle a p).1.follower.cursor = a.follower.cursor ∧ a.hub.SameSources (r.settle a p).2 := by
  cases p with
  | asleep s => exact ⟨congrArg Follower.cursor (hp s rfl), .refl a.hub⟩
  | ended answer => exact cursor_finish r _ a.follower a.hub

theorem cursor_abandon (r : Reading) (s : Sleeper) (h : Hub) :
    (r.abandon s h).1.cursor = s.follower.cursor ∧ h.SameSources (r.abandon s h).2 := by
  cases r with
  | lasting => exact ⟨rfl, h.sameSources_setWaiter _ _⟩
  | once =>
      have hleft : h.SameSources (s.leave h) := h.sameSources_setWaiter _ _
      exact ⟨rfl, hleft.trans ((s.leave h).sameData_unsubscribeAll _).sameSources⟩

end Reader

end LiveSeries
