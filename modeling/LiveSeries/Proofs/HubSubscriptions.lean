import LiveSeries.Proofs.HubWrites
import LiveSeries.Proofs.RegistryRecords

/-!
# The subscriptions of a waiter

A set of subscriptions keeps account of one waiter if the set holds just the numbers under which
the registries of the series keep that waiter (`Hub.Watching`). Subscribing to a tree extends the
account to all of its series (`exists_subscribe_tree`), a request on the set reaches all that it
covers (`watching_requestAll`), and the end of the set leaves nothing (`watching_unsubscribeAll`).
None of them changes what a cursor reads (`Hub.SameData`).
-/

namespace LiveSeries

namespace Hub

/-! ## Registries of series -/

/-- The registries of the series are well-formed, and know only targets that exist. -/
structure WellFormed (h : Hub) : Prop where
  registries : ∀ id, (h.sources id).registry.WellFormed
  known : ∀ id i t, (h.sources id).registry.Keeps i t → t < h.targets.length

/-- Series, tokens and targets are the same; only registries may differ. -/
structure SameData (h h' : Hub) : Prop where
  length : h'.series.length = h.series.length
  store : ∀ id, (h'.sources id).store = (h.sources id).store
  gate : ∀ id, (h'.sources id).gate = (h.sources id).gate
  tokens : h'.tokens = h.tokens
  targets : h'.targets = h.targets

theorem SameData.completed {h h' : Hub} (hsame : h.SameData h') (id : SourceId) :
    (h'.sources id).isCompleted = (h.sources id).isCompleted :=
  congrArg Gate.readOnly (hsame.gate id)

theorem SameData.refl (h : Hub) : h.SameData h := ⟨rfl, fun _ => rfl, fun _ => rfl, rfl, rfl⟩

theorem SameData.trans {h h' h'' : Hub} (a : h.SameData h') (b : h'.SameData h'') :
    h.SameData h'' where
  length := b.length.trans a.length
  store id := (b.store id).trans (a.store id)
  gate id := (b.gate id).trans (a.gate id)
  tokens := b.tokens.trans a.tokens
  targets := b.targets.trans a.targets

theorem SameData.hasWaiter {h h' : Hub} (hsame : h.SameData h') {w : TargetId}
    (hw : h.HasWaiter w) : h'.HasWaiter w := by
  obtain ⟨x, hx⟩ := hw
  exact ⟨x, by rw [hsame.targets]; exact hx⟩

theorem SameData.waiter_eq {h h' : Hub} (hsame : h.SameData h') (w : TargetId) :
    h'.waiter w = h.waiter w := by
  rw [waiter, hsame.targets]
  rfl

theorem sources_setRegistry (h : Hub) (rid : RegistryId) (r : Registry) (i : SourceId) :
    (h.setRegistry rid r).sources i =
      if rid = .ofSeries i ∧ i < h.series.length then { h.sources i with registry := r }
      else h.sources i := by
  cases rid with
  | ofSeries id =>
      show (h.setSeries id { h.sources id with registry := r }).sources i = _
      rw [sources_setSeries]
      by_cases heq : i = id
      · subst heq
        simp
      · simp [heq, Ne.symm heq]
  | alone id => simp [setRegistry, sources]

theorem sameData_setRegistry (h : Hub) (rid : RegistryId) (r : Registry) :
    h.SameData (h.setRegistry rid r) := by
  constructor
  · cases rid with
    | ofSeries id => exact List.length_set
    | alone id => rfl
  · intro i
    rw [sources_setRegistry]
    split <;> rfl
  · intro i
    rw [sources_setRegistry]
    split <;> rfl
  · cases rid <;> rfl
  · cases rid <;> rfl

/-- Changed requests keep a hub well-formed. -/
theorem WellFormed.of_onlyRequests {h h' : Hub} (hh : h.WellFormed)
    (hlength : h.targets.length ≤ h'.targets.length)
    (honly : ∀ id, Registry.OnlyRequests (h.sources id).registry (h'.sources id).registry) :
    h'.WellFormed where
  registries id := (honly id).wellFormed (hh.registries id)
  known id i t ht := Nat.lt_of_lt_of_le (hh.known id i t ((honly id).keeps_iff.mp ht)) hlength

/-! ## Single operations -/

theorem registry_request (h : Hub) (s : Subscription) (n : Nat) (i : SourceId) :
    ((h.request s n).sources i).registry =
      if s.registry = .ofSeries i ∧ i < h.series.length then
        (h.sources i).registry.request s.record n
      else (h.sources i).registry := by
  rw [request, sources_setRegistry]
  split
  · next hs =>
      rw [hs.1]
      rfl
  · rfl

theorem sameData_request (h : Hub) (s : Subscription) (n : Nat) : h.SameData (h.request s n) :=
  sameData_setRegistry h _ _

theorem onlyRequests_refl (r : Registry) : Registry.OnlyRequests r r :=
  ⟨⟨fun s => s.requests, (List.map_id _).symm⟩, rfl⟩

theorem onlyRequests_request (h : Hub) (s : Subscription) (n : Nat) (i : SourceId) :
    Registry.OnlyRequests (h.sources i).registry ((h.request s n).sources i).registry := by
  rw [registry_request]
  split
  · exact Registry.onlyRequests_request _ _ _
  · exact onlyRequests_refl _

theorem asks_request {h : Hub} {w : TargetId} {i : SourceId} (hi : (h.sources i).registry.Asks w)
    (s : Subscription) (n : Nat) : ((h.request s n).sources i).registry.Asks w := by
  rw [registry_request]
  split
  · exact Registry.asks_request hi _ _
  · exact hi

theorem registry_unsubscribe (h : Hub) (s : Subscription) (i : SourceId) :
    ((h.unsubscribe s).sources i).registry =
      if s.registry = .ofSeries i ∧ i < h.series.length then
        (h.sources i).registry.unsubscribe s.record
      else (h.sources i).registry := by
  rw [unsubscribe, sources_setRegistry]
  split
  · next hs =>
      rw [hs.1]
      rfl
  · rfl

theorem sameData_unsubscribe (h : Hub) (s : Subscription) : h.SameData (h.unsubscribe s) :=
  sameData_setRegistry h _ _

theorem keeps_of_keeps_unsubscribe {h : Hub} {s : Subscription} {i : SourceId} {n : Nat}
    {t : TargetId} (hn : ((h.unsubscribe s).sources i).registry.Keeps n t) :
    (h.sources i).registry.Keeps n t := by
  rw [registry_unsubscribe] at hn
  split at hn
  · exact (Registry.keeps_unsubscribe.mp hn).1
  · exact hn

theorem WellFormed.unsubscribe {h : Hub} (hh : h.WellFormed) (s : Subscription) :
    (h.unsubscribe s).WellFormed where
  registries i := by
    rw [registry_unsubscribe]
    split
    · exact Registry.wellFormed_unsubscribe (hh.registries i) _
    · exact hh.registries i
  known i n t hn := by
    rw [(h.sameData_unsubscribe s).targets]
    exact hh.known i n t (keeps_of_keeps_unsubscribe hn)

theorem WellFormed.request {h : Hub} (hh : h.WellFormed) (s : Subscription) (n : Nat) :
    (h.request s n).WellFormed := by
  refine hh.of_onlyRequests (Nat.le_of_eq ?_) (onlyRequests_request h s n)
  rw [(h.sameData_request s n).targets]

/-! ## Subscribing one target -/

section Subscribe

variable {h : Hub} {id : SourceId} {t : TargetId}

theorem sameData_subscribe (h : Hub) (rid : RegistryId) (t : TargetId) :
    h.SameData (h.subscribe rid t).2 := by
  unfold subscribe
  split
  · exact sameData_setRegistry h _ _
  · exact ⟨rfl, fun _ => rfl, fun _ => rfl, rfl, rfl⟩

/-- A target without a record is taken in by the registry. -/
theorem exists_subscribe_of_free {rid : RegistryId} (hfree : ∀ n, ¬ (h.registry rid).Keeps n t) :
    ∃ r, (h.registry rid).subscribe t = .ok ((h.registry rid).issued, r) ∧
      h.subscribe rid t = (.ok ⟨rid, (h.registry rid).issued⟩, h.setRegistry rid r) := by
  obtain ⟨r, hr⟩ := Registry.exists_subscribe_eq_ok hfree
  exact ⟨r, hr, by simp only [Hub.subscribe, hr]⟩

/-- Either the registry of a series is untouched, or it took the target in. -/
theorem registry_subscribe (h : Hub) (rid : RegistryId) (t : TargetId) (i : SourceId) :
    ((h.subscribe rid t).2.sources i).registry = (h.sources i).registry ∨
      ∃ n, (h.sources i).registry.subscribe t =
        .ok (n, ((h.subscribe rid t).2.sources i).registry) := by
  unfold subscribe
  split
  · next record r hok =>
      rw [sources_setRegistry]
      split
      · next hrid =>
          rw [hrid.1] at hok
          exact .inr ⟨record, hok⟩
      · exact .inl rfl
  · exact .inl rfl

theorem WellFormed.subscribe (hh : h.WellFormed) (rid : RegistryId) (ht : t < h.targets.length) :
    (h.subscribe rid t).2.WellFormed where
  registries i := by
    rcases registry_subscribe h rid t i with hsame | ⟨n, hn⟩
    · rw [hsame]
      exact hh.registries i
    · exact Registry.wellFormed_subscribe hn (hh.registries i)
  known i n u hu := by
    rw [(h.sameData_subscribe rid t).targets]
    rcases registry_subscribe h rid t i with hsame | ⟨m, hm⟩
    · rw [hsame] at hu
      exact hh.known i n u hu
    · rcases (Registry.keeps_subscribe hm).mp hu with hu | ⟨-, rfl⟩
      · exact hh.known i n u hu
      · exact ht

end Subscribe

/-! ## The account of a waiter -/

/-- The set holds the subscriptions of the waiter. -/
structure Watching (h : Hub) (w : TargetId) (set : Subscriptions) : Prop where
  wellFormed : h.WellFormed
  waiter : h.HasWaiter w
  onSeries : ∀ s ∈ set, ∃ id, s.registry = .ofSeries id
  mem_iff : ∀ id n, (⟨.ofSeries id, n⟩ : Subscription) ∈ set ↔ (h.sources id).registry.Keeps n w

/-- What is done to the queue of a waiter does not show in its account. -/
theorem Watching.setWaiter {h : Hub} {w : TargetId} {set : Subscriptions} (hw : h.Watching w set)
    (x : Waiter) : (h.setWaiter w x).Watching w set where
  wellFormed := hw.wellFormed.of_onlyRequests (Nat.le_of_eq List.length_set.symm)
    fun _ => onlyRequests_refl _
  waiter := hw.waiter.setWaiter w x
  onSeries := hw.onSeries
  mem_iff := hw.mem_iff

end Hub

/-- The set has a subscription on the registry of the series. -/
def Subscriptions.Covers (set : Subscriptions) (id : SourceId) : Prop :=
  ∃ n, (⟨.ofSeries id, n⟩ : Subscription) ∈ set

theorem Subscriptions.covers_iff_any {set : Subscriptions} {id : SourceId} :
    (set.any fun s => s.registry == .ofSeries id) = true ↔ set.Covers id := by
  rw [List.any_eq_true]
  constructor
  · rintro ⟨s, hs, heq⟩
    refine ⟨s.record, ?_⟩
    rw [← eq_of_beq heq]
    exact hs
  · rintro ⟨n, hn⟩
    exact ⟨_, hn, beq_self_eq_true _⟩

namespace Hub

/-- Subscribing to one more series extends the account. -/
theorem exists_subscribe_series {h : Hub} {w : TargetId} {set : Subscriptions} {id : SourceId}
    (hw : h.Watching w set) (hid : id < h.series.length) :
    ∃ added set' h', set.subscribe h (.ofSeries id) w = (.ok added, set', h') ∧
      h'.Watching w set' ∧ h.SameData h' ∧ set ⊆ set' ∧ set'.Covers id := by
  by_cases hcovers : set.Covers id
  · refine ⟨false, set, h, ?_, hw, .refl h, fun _ hs => hs, hcovers⟩
    rw [Subscriptions.subscribe, if_pos (Subscriptions.covers_iff_any.mpr hcovers)]
  · -- the account says that a target without a subscription here has no record here
    have hfree : ∀ n, ¬ (h.registry (.ofSeries id)).Keeps n w := fun n hn =>
      hcovers ⟨n, (hw.mem_iff id n).mpr hn⟩
    obtain ⟨r, hr, hsubscribe⟩ := exists_subscribe_of_free hfree
    have hregistry : h.registry (.ofSeries id) = (h.sources id).registry := rfl
    rw [hregistry] at hr hsubscribe
    have hwell := hw.wellFormed.subscribe (.ofSeries id) hw.waiter.lt
    rw [hsubscribe] at hwell
    have hsame := sameData_setRegistry h (.ofSeries id) r
    refine ⟨true, set ++ [⟨.ofSeries id, (h.sources id).registry.issued⟩],
      h.setRegistry (.ofSeries id) r, ?_, ⟨hwell, hsame.hasWaiter hw.waiter, ?_, ?_⟩, hsame,
      List.subset_append_left _ _, _, List.mem_append_right _ (List.mem_singleton_self _)⟩
    · rw [Subscriptions.subscribe, if_neg fun h => hcovers (Subscriptions.covers_iff_any.mp h),
        hsubscribe]
    · intro s hs
      rcases List.mem_append.mp hs with hs | hs
      · exact hw.onSeries s hs
      · rw [List.mem_singleton.mp hs]
        exact ⟨id, rfl⟩
    · intro i n
      rw [List.mem_append, hw.mem_iff, List.mem_singleton, Subscription.mk.injEq,
        RegistryId.ofSeries.injEq, sources_setRegistry]
      by_cases heq : i = id
      · subst heq
        rw [if_pos ⟨rfl, hid⟩]
        refine Iff.trans ?_ (Registry.keeps_subscribe hr).symm
        simp
      · rw [if_neg fun h => heq (RegistryId.ofSeries.inj h.1).symm]
        simp [heq]

end Hub

/-- No part of the tree refuses subscriptions. -/
def Tree.Plain : Tree → Prop
  | .series _ => True
  | .op t _ => t.Plain
  | .map t _ => t.Plain
  | .zip l r => l.Plain ∧ r.Plain
  | .carry t => t.Plain
  | .fill t _ => t.Plain
  | .refuse _ => False

namespace Hub

/-- Subscribing to a tree extends the account to all of its series. A series that occurs twice is
subscribed once. -/
theorem exists_subscribe_tree {t : Tree} (hplain : t.Plain) {h : Hub} {w : TargetId}
    {set : Subscriptions} (hw : h.Watching w set)
    (hleaves : ∀ id ∈ t.leaves, id < h.series.length) :
    ∃ set' h', t.subscribe w set h = (.ok (), set', h') ∧ h'.Watching w set' ∧ h.SameData h' ∧
      set ⊆ set' ∧ ∀ id ∈ t.leaves, set'.Covers id := by
  induction t generalizing h set with
  | series id =>
      obtain ⟨added, set', h', heq, hw', hsame, hsub, hcovers⟩ :=
        exists_subscribe_series hw (hleaves id (List.mem_singleton_self id))
      refine ⟨set', h', ?_, hw', hsame, hsub, ?_⟩
      · rw [Tree.subscribe, heq]
        rfl
      · intro i hi
        rw [List.mem_singleton.mp hi]
        exact hcovers
  | op t o ih => exact ih hplain hw hleaves
  | map t f ih => exact ih hplain hw hleaves
  | zip l r ihl ihr =>
      have hleft : ∀ id ∈ l.leaves, id < h.series.length := fun id hid =>
        hleaves id (List.mem_append_left _ hid)
      obtain ⟨set₁, h₁, heq₁, hw₁, hsame₁, hsub₁, hcovers₁⟩ := ihl hplain.1 hw hleft
      -- the right side subscribes to the state that the left side left
      have hright : ∀ id ∈ r.leaves, id < h₁.series.length := fun id hid => by
        rw [hsame₁.length]
        exact hleaves id (List.mem_append_right _ hid)
      obtain ⟨set₂, h₂, heq₂, hw₂, hsame₂, hsub₂, hcovers₂⟩ := ihr hplain.2 hw₁ hright
      refine ⟨set₂, h₂, ?_, hw₂, hsame₁.trans hsame₂, fun s hs => hsub₂ (hsub₁ hs), ?_⟩
      · simp only [Tree.subscribe, heq₁, heq₂]
      · intro id hid
        rcases List.mem_append.mp hid with hid | hid
        · obtain ⟨n, hn⟩ := hcovers₁ id hid
          exact ⟨n, hsub₂ hn⟩
        · exact hcovers₂ id hid
  | carry t ih => exact ih hplain hw hleaves
  | fill t otherwise ih => exact ih hplain hw hleaves
  | refuse t ih => exact hplain.elim

/-! ## Requests on the whole set -/

/-- An operation that changes at most requests leaves the account as it is. -/
theorem Watching.of_onlyRequests {h h' : Hub} {w : TargetId} {set : Subscriptions}
    (hw : h.Watching w set) (hsame : h.SameData h')
    (honly : ∀ id, Registry.OnlyRequests (h.sources id).registry (h'.sources id).registry) :
    h'.Watching w set where
  wellFormed :=
    hw.wellFormed.of_onlyRequests (Nat.le_of_eq (congrArg List.length hsame.targets.symm)) honly
  waiter := hsame.hasWaiter hw.waiter
  onSeries := hw.onSeries
  mem_iff id n := (hw.mem_iff id n).trans (honly id).keeps_iff.symm

theorem Watching.request {h : Hub} {w : TargetId} {set : Subscriptions} (hw : h.Watching w set)
    (s : Subscription) (n : Nat) : (h.request s n).Watching w set :=
  hw.of_onlyRequests (h.sameData_request s n) (h.onlyRequests_request s n)

theorem sameData_requestAll (h : Hub) (set : Subscriptions) (n : Nat) :
    h.SameData (h.requestAll set n) := by
  induction set generalizing h with
  | nil => exact .refl h
  | cons s rest ih => exact (h.sameData_request s n).trans (ih (h.request s n))

theorem Watching.requestAll {h : Hub} {w : TargetId} {set : Subscriptions} (hw : h.Watching w set)
    (part : Subscriptions) (n : Nat) : (h.requestAll part n).Watching w set := by
  induction part generalizing h with
  | nil => exact hw
  | cons s rest ih => exact ih (hw.request s n)

theorem asks_requestAll {h : Hub} {w : TargetId} {i : SourceId}
    (hi : (h.sources i).registry.Asks w) (part : Subscriptions) (n : Nat) :
    ((h.requestAll part n).sources i).registry.Asks w := by
  induction part generalizing h with
  | nil => exact hi
  | cons s rest ih => exact ih (asks_request hi s n)

/-- A request on the set reaches all that it covers. -/
theorem asks_requestAll_of_covers {h : Hub} {w : TargetId} {set part : Subscriptions}
    (hw : h.Watching w set) (hpart : part ⊆ set) {n : Nat} (hn : 0 < n) {i : SourceId}
    (hlen : i < h.series.length) (hi : part.Covers i) :
    ((h.requestAll part n).sources i).registry.Asks w := by
  induction part generalizing h with
  | nil =>
      obtain ⟨m, hm⟩ := hi
      cases hm
  | cons s rest ih =>
      obtain ⟨m, hm⟩ := hi
      rcases List.mem_cons.mp hm with rfl | hm
      · refine asks_requestAll (h := h.request ⟨.ofSeries i, m⟩ n) ?_ rest n
        have hkeeps := (hw.mem_iff i m).mp (hpart List.mem_cons_self)
        rw [registry_request, if_pos ⟨rfl, hlen⟩]
        exact Registry.asks_request_of_keeps hkeeps hn
      · refine ih (hw.request s n) (fun s hs => hpart (List.mem_cons_of_mem _ hs)) ?_ ⟨m, hm⟩
        rw [(h.sameData_request s n).length]
        exact hlen

/-! ## The end of the set -/

/-- After the end of a set that holds all its subscriptions, a waiter has none. -/
theorem not_keeps_unsubscribeAll {h : Hub} {w : TargetId} {set : Subscriptions}
    (hset : ∀ id n, (h.sources id).registry.Keeps n w → (⟨.ofSeries id, n⟩ : Subscription) ∈ set)
    (id : SourceId) (n : Nat) : ¬ ((h.unsubscribeAll set).sources id).registry.Keeps n w := by
  induction set generalizing h with
  | nil =>
      intro hn
      cases hset id n hn
  | cons s rest ih =>
      refine ih (h := h.unsubscribe s) ?_
      intro i m hm
      rcases List.mem_cons.mp (hset i m (keeps_of_keeps_unsubscribe hm)) with hs | hrest
      · subst hs
        exfalso
        rw [registry_unsubscribe] at hm
        split at hm
        · exact (Registry.keeps_unsubscribe.mp hm).2 rfl
        · next hout =>
            -- A series that does not exist has no subscriptions.
            have hdefault : h.sources i = default := by
              rw [sources, List.getD_eq_getElem?_getD, List.getElem?_eq_none]
              · rfl
              · exact Nat.le_of_not_lt fun hlt => hout ⟨rfl, hlt⟩
            rw [hdefault] at hm
            exact Registry.not_keeps_empty m w hm
      · exact hrest

theorem sameData_unsubscribeAll (h : Hub) (set : Subscriptions) :
    h.SameData (h.unsubscribeAll set) := by
  induction set generalizing h with
  | nil => exact .refl h
  | cons s rest ih => exact (h.sameData_unsubscribe s).trans (ih (h.unsubscribe s))

theorem WellFormed.unsubscribeAll {h : Hub} (hh : h.WellFormed) (set : Subscriptions) :
    (h.unsubscribeAll set).WellFormed := by
  induction set generalizing h with
  | nil => exact hh
  | cons s rest ih => exact ih (hh.unsubscribe s)

/-- The end of the set closes the account. -/
theorem Watching.unsubscribeAll {h : Hub} {w : TargetId} {set : Subscriptions}
    (hw : h.Watching w set) : (h.unsubscribeAll set).Watching w [] where
  wellFormed := hw.wellFormed.unsubscribeAll set
  waiter := (h.sameData_unsubscribeAll set).hasWaiter hw.waiter
  onSeries := nofun
  mem_iff id n := by
    have hnone := not_keeps_unsubscribeAll (fun id n => (hw.mem_iff id n).mpr) id n
    exact ⟨nofun, fun hn => absurd hn hnone⟩

end Hub

end LiveSeries
