import LiveSeries.Proofs.PolledSources
import LiveSeries.Proofs.SessionActs

/-!
# Sealed series

Nobody can write to a series that is completed, or whose gate a writer holds. Every mutation of it
is void (`Series.Sealed.mutation`), and so whatever goes on around it, it keeps the entries and the
gate that it has (`Hub.Onward`).
-/

namespace LiveSeries

/-! ## Void writes -/

/-- The write left its series as it was, and notifies nobody. -/
structure Write.Void {α : Type} (s : Series) (w : Write α) : Prop where
  series : w.series = s
  notice : w.notice = none

namespace Series

/-- Nobody can write to the series: a writer holds its gate, or it is completed. -/
def Sealed (s : Series) : Prop := s.gate.locked = true ∨ s.gate.readOnly = true

namespace Sealed

variable {s : Series} {α : Type}

theorem enter (h : s.Sealed) : ∃ r, s.gate.enter = .error r := by
  unfold Gate.enter
  split
  · exact ⟨_, rfl⟩
  · next hopen =>
      rcases h with hlocked | hreadOnly
      · rw [if_pos hlocked]
        exact ⟨_, rfl⟩
      · exact absurd hreadOnly hopen

theorem write (h : s.Sealed) (f : Store → Except Refusal (Change α)) : (s.write f).Void s := by
  obtain ⟨r, hr⟩ := h.enter
  simp only [Series.write, hr]
  exact ⟨rfl, rfl⟩

theorem writeAs (h : s.Sealed) (version : Nat) (f : Store → Except Refusal (Change α)) :
    (s.writeAs version f).Void s := by
  obtain ⟨r, hr⟩ := h.enter
  simp only [Series.writeAs, hr]
  exact ⟨rfl, rfl⟩

theorem complete (h : s.Sealed) : s.complete.Void s := by
  unfold Series.complete Gate.complete
  split
  · exact ⟨rfl, rfl⟩
  · exact ⟨rfl, rfl⟩
  · next gate hcomplete =>
      exfalso
      split at hcomplete
      · cases hcomplete
      · next hunlocked =>
          rcases h with hlocked | hreadOnly
          · exact hunlocked hlocked
          · rw [if_pos hreadOnly] at hcomplete
            cases hcomplete

theorem perform (h : s.Sealed) (version : Nat) (c : Command) : (s.perform version c).Void s := by
  have hversioned : ∀ {β : Type} (f : Store → Except Refusal (Change β)),
      (asApplied version (s.writeAs version f)).Void s := fun f =>
    ⟨(h.writeAs version f).series, (h.writeAs version f).notice⟩
  cases c with
  | set k v => exact hversioned _
  | append entries option =>
      simp only [Series.perform]
      split
      · exact hversioned _
      · exact ⟨rfl, rfl⟩
  | remove k lookup => exact hversioned _
  | complete => exact ⟨h.complete.series, h.complete.notice⟩

theorem apply (h : s.Sealed) (c : StampedCommand) : (s.apply c).Void s := by
  unfold Series.apply
  dsimp only
  split
  · exact ⟨rfl, rfl⟩
  · split
    · exact ⟨rfl, rfl⟩
    · exact ⟨(h.perform c.version c.command).series, (h.perform c.version c.command).notice⟩

theorem append (h : s.Sealed) (entries : List Entry) (option : OverlapRule) :
    (s.append entries option).Void s := by
  unfold Series.append
  split
  · exact h.write _
  · exact ⟨rfl, rfl⟩

/-- Every mutation of a sealed series is void. -/
theorem mutation (h : s.Sealed) (m : Mutation) : (m.write s).Void s := by
  cases m.kind s with
  | write f is =>
      rw [is]
      exact ⟨(h.write f).series, (h.write f).notice⟩
  | refused r is =>
      rw [is]
      exact ⟨rfl, rfl⟩
  | complete => exact ⟨h.complete.series, h.complete.notice⟩
  | command c => exact ⟨(h.apply c).series, (h.apply c).notice⟩

end Sealed

end Series

/-! ## The shared state goes on -/

namespace Hub

/-- What was sealed has the same entries and the same gate. -/
structure Onward (h h' : Hub) : Prop where
  length : h.series.length ≤ h'.series.length
  store : ∀ id, id < h.series.length → (h.sources id).Sealed →
    (h'.sources id).store = (h.sources id).store
  gate : ∀ id, id < h.series.length → (h.sources id).Sealed →
    (h'.sources id).gate = (h.sources id).gate

theorem Onward.refl (h : Hub) : h.Onward h :=
  ⟨Nat.le_refl _, fun _ _ _ => rfl, fun _ _ _ => rfl⟩

theorem Onward.stays_sealed {h h' : Hub} (a : h.Onward h') {id : SourceId}
    (hid : id < h.series.length) (hs : (h.sources id).Sealed) : (h'.sources id).Sealed := by
  rw [Series.Sealed, a.gate id hid hs]
  exact hs

theorem Onward.trans {h h' h'' : Hub} (a : h.Onward h') (b : h'.Onward h'') : h.Onward h'' where
  length := Nat.le_trans a.length b.length
  store id hid hs :=
    (b.store id (Nat.lt_of_lt_of_le hid a.length) (a.stays_sealed hid hs)).trans (a.store id hid hs)
  gate id hid hs :=
    (b.gate id (Nat.lt_of_lt_of_le hid a.length) (a.stays_sealed hid hs)).trans (a.gate id hid hs)

theorem SameSources.onward {h h' : Hub} (hsame : h.SameSources h') : h.Onward h' :=
  ⟨Nat.le_of_eq hsame.length.symm, fun id _ _ => hsame.store id, fun id _ _ => hsame.gate id⟩

theorem SameData.onward {h h' : Hub} (hsame : h.SameData h') : h.Onward h' :=
  hsame.sameSources.onward

/-- What does not touch the series leaves the sealed ones. -/
theorem onward_of_series {h h' : Hub} (hseries : h'.series = h.series) : h.Onward h' := by
  refine ⟨Nat.le_of_eq (congrArg List.length hseries).symm, fun id _ _ => ?_, fun id _ _ => ?_⟩
  · rw [sources, hseries]
    rfl
  · rw [sources, hseries]
    rfl

theorem onward_newSeries (h : Hub) (s : Series) : h.Onward (h.newSeries s).2 where
  length := by
    show h.series.length ≤ (h.series ++ [s]).length
    rw [List.length_append]
    exact Nat.le_add_right _ _
  store id hid _ := by rw [sources_newSeries h s hid]
  gate id hid _ := by rw [sources_newSeries h s hid]

theorem sources_commit {α : Type} (h : Hub) (id : SourceId) (w : Write α) (i : SourceId) :
    (h.commit id w).sources i =
      if i = id ∧ id < h.series.length then w.series else h.sources i := by
  rw [← sources_setSeries, sources, series_commit]
  rfl

/-- The first half of a write. -/
theorem onward_commit {α : Type} (h : Hub) (id : SourceId) {w : Write α}
    (hw : (h.sources id).Sealed → w.Void (h.sources id)) : h.Onward (h.commit id w) := by
  have hsame : ∀ i, (h.sources i).Sealed → (h.commit id w).sources i = h.sources i := by
    intro i hs
    rw [sources_commit]
    split
    · next hi => rw [hi.1, (hw (hi.1 ▸ hs)).series]
    · rfl
  refine ⟨Nat.le_of_eq ?_, fun i _ hs => by rw [hsame i hs], fun i _ hs => by rw [hsame i hs]⟩
  rw [series_commit]
  exact List.length_set.symm

end Hub

/-! ## Worlds -/

namespace World

/-- An object that goes changes registries and queues only. -/
theorem sameSources_discard (h : Hub) (o : Object) : h.SameSources (discard h o) := by
  cases o with
  | waiting s | sleeping s =>
      have hleft : h.SameSources (s.leave h) := h.sameSources_setWaiter _ _
      exact hleft.trans ((s.leave h).sameData_unsubscribeAll _).sameSources
  | follower f => exact (h.sameData_unsubscribeAll _).sameSources
  | wait waiter ticket =>
      cases ticket with
      | none => exact .refl h
      | some ticket => exact h.sameSources_setWaiter _ _
  | set s => exact (h.sameData_unsubscribeAll s).sameSources
  | subscription s => exact (h.sameData_unsubscribe s).sameSources
  | _ => exact .refl h

theorem onward_put (w : World) (name : String) (o : Object) :
    w.hub.Onward (w.put name o).hub := by
  unfold put
  dsimp only
  split
  · exact (sameSources_discard w.hub _).onward
  · exact .refl w.hub

section Notifier

variable {notify : Notice → World → World}
  (hnotify : ∀ (n : Notice) (w : World), w.hub.Onward (notify n w).hub)

include hnotify

/-- A write whose writer leaves the gate. The series that it leaves was not sealed when the writer
entered. -/
theorem onward_settle {α : Type} (id : SourceId) (w : World) {write : Write α}
    (hw : (w.hub.sources id).Sealed → write.Void (w.hub.sources id)) :
    w.hub.Onward (settle notify id write w).hub := by
  have hcommit := w.hub.onward_commit id hw
  unfold settle
  dsimp only
  cases hn : write.notice with
  | none => exact hcommit
  | some n =>
      have hopen : ¬ (w.hub.sources id).Sealed := fun hs => by
        rw [(hw hs).notice] at hn
        cases hn
      have hnotified := hcommit.trans (hnotify n { w with hub := w.hub.commit id write })
      refine ⟨?_, fun i hi hs => ?_, fun i hi hs => ?_⟩
      · refine Nat.le_trans hnotified.length (Nat.le_of_eq ?_)
        exact List.length_set.symm
      · have hne : i ≠ id := fun heq => hopen (heq ▸ hs)
        dsimp only
        rw [Hub.leave, Hub.sources_setSeries, if_neg fun h => hne h.1]
        exact hnotified.store i hi hs
      · have hne : i ≠ id := fun heq => hopen (heq ▸ hs)
        dsimp only
        rw [Hub.leave, Hub.sources_setSeries, if_neg fun h => hne h.1]
        exact hnotified.gate i hi hs

theorem onward_consumer (id : SourceId) (queues : List Nat) (c : StampedCommand) (w : World) :
    w.hub.Onward (consumer notify id queues c w).2.hub := by
  induction queues generalizing w with
  | nil => exact onward_settle hnotify id w fun hs => hs.apply c
  | cons index behind ih =>
      simp only [consumer, LoadQueue.consumer]
      split
      · exact .refl w.hub
      · split
        · exact .refl w.hub
        · exact ih w

theorem onward_replay (id : SourceId) (queues : List Nat) (kept : List StampedCommand)
    (count : Nat) (w : World) :
    w.hub.Onward (LoadQueue.replay (consumer notify id queues) kept count w).2.hub := by
  induction kept generalizing count w with
  | nil => exact .refl w.hub
  | cons c rest ih =>
      have hfirst := onward_consumer hnotify id queues c w
      rw [LoadQueue.replay]
      cases hc : consumer notify id queues c w with
      | mk answer w' =>
          rw [hc] at hfirst
          cases answer with
          | error e => exact hfirst
          | ok outcome =>
              cases outcome with
              | applied _ | completed => exact hfirst.trans (ih (count + 1) w')
              | skipped | queued => exact hfirst.trans (ih count w')

theorem onward_finish (id : SourceId) (queues : List Nat) (q : LoadQueue) (w : World) :
    w.hub.Onward (LoadQueue.finish (consumer notify id queues) q w).2.2.hub := by
  unfold LoadQueue.finish
  split
  · exact .refl w.hub
  · exact onward_replay hnotify id queues _ 0 w

end Notifier

end World

end LiveSeries
