import LiveSeries.Proofs.HubSubscriptions

/-!
# What others do to the shared state

Everything that happens to the shared state is a deed (`Hub.Deed`): writes to series with the
notifications they make, subscriptions, requests, wakes and cancelled tokens. A hub comes about
by deeds (`Hub.Arises`), and is well-formed (`Arises.wellFormed`).

A deed spares a waiter if it leaves its subscriptions and its queue alone. Such a deed keeps the
account of the waiter (`Deed.watching`), and either wakes it or leaves all as it was on the series
of which it asked a notification (`Deed.wakes_or_leaves`).
-/

namespace LiveSeries

/-- In a mutation only requests change in the registry, by a notification at the most. -/
theorem Series.onlyRequests_write (s : Series) (m : Mutation) :
    Registry.OnlyRequests s.registry (m.write s).series.registry := by
  cases s.effect_mutation m with
  | quiet _ _ _ registry =>
      rw [registry]
      exact Hub.onlyRequests_refl _
  | loud force _ registry =>
      rw [registry]
      exact Registry.onlyRequests_notify _ force

namespace Hub

/-- What can happen to the shared state. -/
inductive Deed where
  | newSeries (s : Series)
  | newTarget (t : Target)
  | newToken
  | change (id : SourceId) (m : Mutation)
  | subscribe (rid : RegistryId) (t : TargetId)
  | unsubscribe (s : Subscription)
  | request (s : Subscription) (n : Nat)
  | setWaiter (t : TargetId) (x : Waiter)
  | wake (t : TargetId)
  | cancel (token : Nat)

namespace Deed

/-- The shared state after the deed. -/
def run (h : Hub) : Deed → Hub
  | .newSeries s => (h.newSeries s).2
  | .newTarget t => (h.newTarget t).2
  | .newToken => h.newToken.2
  | .change id m => h.change id (m.write (h.sources id))
  | .subscribe rid t => (h.subscribe rid t).2
  | .unsubscribe s => h.unsubscribe s
  | .request s n => h.request s n
  | .setWaiter t x => h.setWaiter t x
  | .wake t => h.wake t
  | .cancel token => h.cancel token

/-- A new series has no subscriptions, and only targets that exist are subscribed. -/
def Possible (h : Hub) : Deed → Prop
  | .newSeries s => s.registry = {}
  | .subscribe _ t => t < h.targets.length
  | _ => True

/-- The deed leaves the subscriptions of the waiter and its queue alone. To wake it is allowed. -/
def Spares (w : TargetId) (h : Hub) : Deed → Prop
  | .subscribe _ t => t ≠ w
  | .unsubscribe s => ∀ id, s.registry = .ofSeries id → ¬ (h.sources id).registry.Keeps s.record w
  | .setWaiter t _ => t ≠ w
  | _ => True

end Deed

/-- The hubs that come about. -/
inductive Arises : Hub → Prop where
  | empty : Arises {}
  | deed {h : Hub} (d : Deed) : d.Possible h → Arises h → Arises (d.run h)

/-! ## What changes in the series -/

/-- A new series leaves the others as they are. -/
theorem sources_newSeries (h : Hub) (s : Series) {id : SourceId} (hid : id < h.series.length) :
    (h.newSeries s).2.sources id = h.sources id := by
  simp only [newSeries, sources, List.getD_eq_getElem?_getD]
  rw [List.getElem?_append_left hid]

theorem registry_newSeries (h : Hub) {s : Series} (hs : s.registry = {}) (id : SourceId) :
    ((h.newSeries s).2.sources id).registry = (h.sources id).registry := by
  by_cases hid : id < h.series.length
  · rw [sources_newSeries h s hid]
  · have hold : h.sources id = default := by
      rw [sources, List.getD_eq_getElem?_getD, List.getElem?_eq_none (Nat.le_of_not_lt hid)]
      rfl
    rw [hold]
    simp only [newSeries, sources, List.getD_eq_getElem?_getD]
    rw [List.getElem?_append_right (Nat.le_of_not_lt hid)]
    cases id - h.series.length with
    | zero => exact hs
    | succ n => rfl

section Change

variable (h : Hub) (id : SourceId) (m : Mutation)

/-- In a mutation only requests change in the registries. -/
theorem onlyRequests_change (i : SourceId) :
    Registry.OnlyRequests (h.sources i).registry
      ((h.change id (m.write (h.sources id))).sources i).registry := by
  have hvisible := visible_change h id (m.write (h.sources id)) i
  by_cases hi : i = id ∧ id < h.series.length
  · rw [if_pos hi] at hvisible
    obtain ⟨rfl, -⟩ := hi
    have hregistry := congrArg (fun v => v.2.2) hvisible
    simp only [Series.visible] at hregistry
    rw [hregistry]
    exact Series.onlyRequests_write _ m
  · rw [if_neg hi] at hvisible
    have hregistry := congrArg (fun v => v.2.2) hvisible
    simp only [Series.visible] at hregistry
    rw [hregistry]
    exact onlyRequests_refl _

/-- A mutation wakes a waiter, or leaves all as it was on the series of which it asked a
notification. -/
theorem waiter_change {w : TargetId} (hw : h.HasWaiter w) :
    (h.change id (m.write (h.sources id))).HasWaiter w ∧
      ∃ n, (h.change id (m.write (h.sources id))).waiter w = Waiter.wake^[n] (h.waiter w) ∧
        (n = 0 → ∀ i, (h.sources i).registry.Asks w →
          ((h.change id (m.write (h.sources id))).sources i).visible = (h.sources i).visible) := by
  cases (h.sources id).effect_mutation m with
  | quiet notice store completed registry =>
      have htargets := targets_change_of_quiet h id _ notice
      refine ⟨?_, 0, ?_, ?_⟩
      · rw [HasWaiter, htargets]
        exact hw
      · rw [waiter, htargets]
        rfl
      · intro _ i _
        rw [visible_change]
        split
        · next hi =>
            rw [hi.1, Series.visible, store, completed, registry]
            rfl
        · rfl
  | loud force notice registry =>
      have htargets := targets_change_of_notice h id _ notice
      have hcommit : (h.commit id (m.write (h.sources id))).HasWaiter w := by
        rw [HasWaiter, targets_commit]
        exact hw
      refine ⟨?_, ((h.sources id).registry.notify force).1.targets.count w, ?_, ?_⟩
      · rw [HasWaiter, htargets]
        exact hcommit.foldl_invoke _
      · rw [waiter, htargets]
        have hfold := waiter_foldl_invoke ((h.sources id).registry.notify force).1.targets hcommit
        rw [waiter] at hfold
        rw [hfold, waiter, targets_commit]
        rfl
      · intro hcount i hi
        rw [visible_change]
        split
        · next heq =>
            -- The waiter had asked this series, so it was invoked.
            rw [heq.1] at hi
            have hmem := Registry.mem_targets_notify hi force
            exact absurd hmem (List.count_eq_zero.mp hcount)
        · rfl

end Change

/-! ## What all deeds have in common -/

theorem length_series_deed (h : Hub) (d : Deed) : h.series.length ≤ (d.run h).series.length := by
  cases d with
  | newSeries s =>
      show h.series.length ≤ (h.series ++ [s]).length
      rw [List.length_append]
      exact Nat.le_add_right _ _
  | change id m => exact Nat.le_of_eq (length_series_change h id _).symm
  | subscribe rid t => exact Nat.le_of_eq (h.sameData_subscribe rid t).length.symm
  | unsubscribe s => exact Nat.le_of_eq (h.sameData_unsubscribe s).length.symm
  | request s n => exact Nat.le_of_eq (h.sameData_request s n).length.symm
  | newTarget t => exact Nat.le_refl _
  | newToken => exact Nat.le_refl _
  | setWaiter t x => exact Nat.le_refl _
  | wake t => exact Nat.le_refl _
  | cancel token => exact Nat.le_refl _

theorem length_targets_change (h : Hub) (id : SourceId) (m : Mutation) :
    (h.change id (m.write (h.sources id))).targets.length = h.targets.length := by
  cases (h.sources id).effect_mutation m with
  | quiet notice _ _ _ => rw [targets_change_of_quiet h id _ notice]
  | loud force notice _ =>
      rw [targets_change_of_notice h id _ notice, length_targets_foldl_invoke, targets_commit]

theorem WellFormed.newTarget {h : Hub} (hh : h.WellFormed) (t : Target) :
    (h.newTarget t).2.WellFormed :=
  hh.of_onlyRequests (by simp [Hub.newTarget]) fun _ => onlyRequests_refl _

/-- A new waiter has an account without subscriptions. -/
theorem WellFormed.watching_newTarget {h : Hub} (hh : h.WellFormed) :
    (h.newTarget (.waiter {})).2.Watching (h.newTarget (.waiter {})).1 [] where
  wellFormed := hh.newTarget _
  waiter := ⟨{}, by simp [Hub.newTarget]⟩
  onSeries := nofun
  mem_iff id n := ⟨nofun, fun hn => absurd (hh.known id n _ hn) (Nat.lt_irrefl _)⟩

theorem WellFormed.setWaiter {h : Hub} (hh : h.WellFormed) (t : TargetId) (x : Waiter) :
    (h.setWaiter t x).WellFormed :=
  hh.of_onlyRequests (Nat.le_of_eq List.length_set.symm) fun _ => onlyRequests_refl _

theorem WellFormed.deed {h : Hub} (hh : h.WellFormed) {d : Deed} (hd : d.Possible h) :
    (d.run h).WellFormed := by
  cases d with
  | newSeries s =>
      have hregistry := registry_newSeries h hd
      refine ⟨fun id => ?_, fun id n t ht => ?_⟩
      · show ((h.newSeries s).2.sources id).registry.WellFormed
        rw [hregistry]
        exact hh.registries id
      · replace ht : ((h.newSeries s).2.sources id).registry.Keeps n t := ht
        rw [hregistry] at ht
        exact hh.known id n t ht
  | newTarget t => exact hh.newTarget t
  | newToken => exact ⟨hh.registries, hh.known⟩
  | change id m =>
      exact hh.of_onlyRequests (Nat.le_of_eq (length_targets_change h id m).symm)
        (onlyRequests_change h id m)
  | subscribe rid t => exact hh.subscribe rid hd
  | unsubscribe s => exact hh.unsubscribe s
  | request s n => exact hh.request s n
  | setWaiter t x => exact hh.setWaiter t x
  | wake t => exact hh.setWaiter t _
  | cancel token => exact ⟨hh.registries, hh.known⟩

theorem wellFormed_empty : ({} : Hub).WellFormed where
  registries _ := Registry.wellFormed_empty
  known _ n t ht := absurd ht (Registry.not_keeps_empty n t)

theorem Arises.wellFormed {h : Hub} (hh : h.Arises) : h.WellFormed := by
  induction hh with
  | empty => exact wellFormed_empty
  | deed d hd _ ih => exact ih.deed hd

/-! ## What a deed does to a waiter that it spares -/

section Spares

variable {h : Hub} {w : TargetId} {set : Subscriptions} {d : Deed}

theorem HasWaiter.newTarget (hw : h.HasWaiter w) (t : Target) : (h.newTarget t).2.HasWaiter w := by
  obtain ⟨x, hx⟩ := hw
  refine ⟨x, ?_⟩
  show (h.targets ++ [t])[w]? = some (.waiter x)
  rw [List.getElem?_append_left (HasWaiter.lt ⟨x, hx⟩)]
  exact hx

theorem HasWaiter.deed (hw : h.HasWaiter w) (d : Deed) : (d.run h).HasWaiter w := by
  cases d with
  | newSeries s => exact hw
  | newTarget t => exact hw.newTarget t
  | newToken => exact hw
  | change id m => exact (waiter_change h id m hw).1
  | subscribe rid t => exact (h.sameData_subscribe rid t).hasWaiter hw
  | unsubscribe s => exact (h.sameData_unsubscribe s).hasWaiter hw
  | request s n => exact (h.sameData_request s n).hasWaiter hw
  | setWaiter t x => exact hw.setWaiter t x
  | wake t => exact hw.setWaiter t _
  | cancel token => exact hw

/-- A deed that spares a waiter leaves its subscriptions. -/
theorem keeps_deed (hpossible : d.Possible h) (hspares : d.Spares w h) (id : SourceId) (n : Nat) :
    ((d.run h).sources id).registry.Keeps n w ↔ (h.sources id).registry.Keeps n w := by
  cases d with
  | newSeries s =>
      show ((h.newSeries s).2.sources id).registry.Keeps n w ↔ _
      rw [registry_newSeries h hpossible]
  | newTarget t => exact Iff.rfl
  | newToken => exact Iff.rfl
  | change i m => exact (onlyRequests_change h i m id).keeps_iff
  | subscribe rid t =>
      show ((h.subscribe rid t).2.sources id).registry.Keeps n w ↔ _
      rcases registry_subscribe h rid t id with hsame | ⟨k, hk⟩
      · rw [hsame]
      · rw [Registry.keeps_subscribe hk]
        -- the new record is of another target
        have hne : ¬ (n = k ∧ w = t) := fun heq => hspares heq.2.symm
        simp [hne]
  | unsubscribe s =>
      show ((h.unsubscribe s).sources id).registry.Keeps n w ↔ _
      rw [registry_unsubscribe]
      split
      · next hid =>
          rw [Registry.keeps_unsubscribe]
          refine ⟨fun hn => hn.1, fun hn => ⟨hn, ?_⟩⟩
          rintro rfl
          exact hspares id hid.1 hn
      · exact Iff.rfl
  | request s k => exact (onlyRequests_request h s k id).keeps_iff
  | setWaiter t x => exact Iff.rfl
  | wake t => exact Iff.rfl
  | cancel token => exact Iff.rfl

/-- A deed that spares a waiter keeps its account. -/
theorem Watching.deed (hw : h.Watching w set) (hpossible : d.Possible h) (hspares : d.Spares w h) :
    (d.run h).Watching w set where
  wellFormed := hw.wellFormed.deed hpossible
  waiter := hw.waiter.deed d
  onSeries := hw.onSeries
  mem_iff id n := (hw.mem_iff id n).trans (keeps_deed hpossible hspares id n).symm

/-- What is the same on a series of which a waiter asked a notification. -/
structure Leaves (h h' : Hub) (w : TargetId) (id : SourceId) : Prop where
  store : (h'.sources id).store = (h.sources id).store
  completed : (h'.sources id).isCompleted = (h.sources id).isCompleted
  asks : (h'.sources id).registry.Asks w

theorem leaves_of_sources {h h' : Hub} {id : SourceId} (hasks : (h.sources id).registry.Asks w)
    (hsame : h'.sources id = h.sources id) : h.Leaves h' w id :=
  ⟨by rw [hsame], by rw [hsame], by rw [hsame]; exact hasks⟩

/-- A deed that spares a waiter wakes it, or leaves everything of which the waiter asked to be
told. -/
theorem wakes_or_leaves (hw : h.HasWaiter w) (hspares : d.Spares w h) :
    ∃ n, (d.run h).waiter w = Waiter.wake^[n] (h.waiter w) ∧
      (n = 0 → ∀ id, id < h.series.length → (h.sources id).registry.Asks w →
        h.Leaves (d.run h) w id) := by
  cases d with
  | newSeries s =>
      exact ⟨0, rfl, fun _ id hid hasks => leaves_of_sources hasks (sources_newSeries h s hid)⟩
  | newTarget t =>
      exact ⟨0, waiter_newTarget hw t, fun _ id _ hasks => leaves_of_sources hasks rfl⟩
  | newToken => exact ⟨0, rfl, fun _ id _ hasks => leaves_of_sources hasks rfl⟩
  | change i m =>
      obtain ⟨-, n, hn, hleaves⟩ := waiter_change h i m hw
      refine ⟨n, hn, fun hzero id _ hasks => ?_⟩
      have hvisible := hleaves hzero id hasks
      rw [Series.visible, Series.visible, Prod.mk.injEq, Prod.mk.injEq] at hvisible
      exact ⟨hvisible.1, hvisible.2.1, hvisible.2.2.symm ▸ hasks⟩
  | subscribe rid t =>
      have hsame := h.sameData_subscribe rid t
      refine ⟨0, hsame.waiter_eq w, fun _ id _ hasks => ⟨hsame.store id, hsame.completed id, ?_⟩⟩
      show ((h.subscribe rid t).2.sources id).registry.Asks w
      rcases registry_subscribe h rid t id with hreg | ⟨k, hk⟩
      · rw [hreg]
        exact hasks
      · exact Registry.asks_subscribe hk hasks
  | unsubscribe s =>
      have hsame := h.sameData_unsubscribe s
      refine ⟨0, hsame.waiter_eq w, fun _ id _ hasks => ⟨hsame.store id, hsame.completed id, ?_⟩⟩
      show ((h.unsubscribe s).sources id).registry.Asks w
      rw [registry_unsubscribe]
      split
      · next hid => exact Registry.asks_unsubscribe (hspares id hid.1) hasks
      · exact hasks
  | request s k =>
      have hsame := h.sameData_request s k
      exact ⟨0, hsame.waiter_eq w, fun _ id _ hasks =>
        ⟨hsame.store id, hsame.completed id, asks_request hasks s k⟩⟩
  | setWaiter t x =>
      exact ⟨0, waiter_setWaiter_of_ne hspares x, fun _ id _ hasks => leaves_of_sources hasks rfl⟩
  | wake t =>
      by_cases heq : t = w
      · subst heq
        exact ⟨1, waiter_setWaiter_self hw _, fun hzero => absurd hzero Nat.one_ne_zero⟩
      · exact ⟨0, waiter_setWaiter_of_ne heq _, fun _ id _ hasks => leaves_of_sources hasks rfl⟩
  | cancel token => exact ⟨0, rfl, fun _ id _ hasks => leaves_of_sources hasks rfl⟩

end Spares

end Hub

end LiveSeries
