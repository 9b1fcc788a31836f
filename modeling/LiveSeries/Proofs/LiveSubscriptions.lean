import LiveSeries.Proofs.ReaderSchedules
import LiveSeries.Proofs.RequestAccounts

/-!
# Subscriptions that have not ended

A subscription is live while its registry has its record, whether the registry is that of a series
or stands alone (`Hub.Live`). Only its own end takes that away: it stays live whatever else happens
to the shared state (`Hub.Live.incident`).

A set that has one live subscription on each of its registries reaches every one of them once. A
request on the set raises the count of each by the number that is asked for, and leaves all other
subscriptions and all other registries as they are (`Hub.raises_requestAll`).
-/

namespace LiveSeries

namespace Hub

/-! ## All registries -/

/-- There is a registry under this identity. -/
def Registered (h : Hub) : RegistryId → Prop
  | .ofSeries id => id < h.series.length
  | .alone id => id < h.registries.length

variable {h h' : Hub} {rid rid' : RegistryId}

theorem registry_eq_empty (hrid : ¬ h.Registered rid) : h.registry rid = {} := by
  cases rid with
  | ofSeries id =>
      rw [registry, sources, List.getD_eq_getElem?_getD,
        List.getElem?_eq_none (Nat.le_of_not_lt hrid)]
      rfl
  | alone id =>
      rw [registry, List.getD_eq_getElem?_getD, List.getElem?_eq_none (Nat.le_of_not_lt hrid)]
      rfl

theorem registry_setRegistry_self (hrid : h.Registered rid) (r : Registry) :
    (h.setRegistry rid r).registry rid = r := by
  cases rid with
  | ofSeries id =>
      rw [registry, sources_setRegistry, if_pos ⟨rfl, hrid⟩]
  | alone id =>
      show (h.registries.set id r).getD id {} = r
      rw [List.getD_eq_getElem?_getD, List.getElem?_set_self hrid]
      rfl

theorem registry_setRegistry_of_ne (hne : rid' ≠ rid) (r : Registry) :
    (h.setRegistry rid r).registry rid' = h.registry rid' := by
  cases rid' with
  | ofSeries id' =>
      rw [registry, sources_setRegistry, if_neg fun heq => hne heq.1.symm]
      rfl
  | alone id' =>
      cases rid with
      | ofSeries id => rfl
      | alone id =>
          have hid : id ≠ id' := fun heq => hne (congrArg RegistryId.alone heq.symm)
          show (h.registries.set id r).getD id' {} = h.registries.getD id' {}
          rw [List.getD_eq_getElem?_getD, List.getElem?_set_ne hid, List.getD_eq_getElem?_getD]

/-- Requests alone change, on the series and so on all registries. -/
theorem onlyRequests_registry
    (hseries : ∀ id, Registry.OnlyRequests (h.sources id).registry (h'.sources id).registry)
    (halone : h'.registries = h.registries) (rid : RegistryId) :
    Registry.OnlyRequests (h.registry rid) (h'.registry rid) := by
  cases rid with
  | ofSeries id => exact hseries id
  | alone id =>
      rw [registry, registry, halone]
      exact onlyRequests_refl _

/-! ## Live subscriptions -/

/-- The subscription has not ended. -/
def Live (h : Hub) (s : Subscription) : Prop := ∃ t, (h.registry s.registry).Keeps s.record t

variable {s : Subscription} {set : Subscriptions}

theorem Live.registered (hs : h.Live s) : h.Registered s.registry := by
  by_contra hrid
  obtain ⟨t, hkeeps⟩ := hs
  rw [registry_eq_empty hrid] at hkeeps
  exact Registry.not_keeps_empty _ _ hkeeps

theorem Live.of_onlyRequests (hs : h.Live s)
    (honly : Registry.OnlyRequests (h.registry s.registry) (h'.registry s.registry)) :
    h'.Live s := by
  obtain ⟨t, hkeeps⟩ := hs
  exact ⟨t, honly.keeps_iff.mpr hkeeps⟩

/-- What is done to its registry ends a subscription only if the record goes. -/
theorem Live.setRegistry (hs : h.Live s) {r : Registry}
    (hkept : rid = s.registry → ∀ t, (h.registry rid).Keeps s.record t → r.Keeps s.record t) :
    (h.setRegistry rid r).Live s := by
  obtain ⟨t, hkeeps⟩ := hs
  refine ⟨t, ?_⟩
  by_cases hrid : s.registry = rid
  · subst hrid
    rw [registry_setRegistry_self (Live.registered ⟨t, hkeeps⟩)]
    exact hkept rfl t hkeeps
  · rw [registry_setRegistry_of_ne hrid]
    exact hkeeps

theorem Live.subscribe (hs : h.Live s) (rid : RegistryId) (t : TargetId) :
    (h.subscribe rid t).2.Live s := by
  unfold Hub.subscribe
  split
  · next hok => exact hs.setRegistry fun _ u hu => (Registry.keeps_subscribe hok).mpr (.inl hu)
  · exact hs

theorem registries_foldl_invoke (targets : List TargetId) (h : Hub) :
    (targets.foldl invoke h).registries = h.registries := by
  induction targets generalizing h with
  | nil => rfl
  | cons t rest ih =>
      rw [List.foldl_cons, ih]
      unfold invoke
      split <;> rfl

theorem registries_commit {α : Type} (h : Hub) (id : SourceId) (w : Write α) :
    (h.commit id w).registries = h.registries := by
  rw [commit, foldl_report]
  rfl

theorem registries_change {α : Type} (h : Hub) (id : SourceId) (w : Write α) :
    (h.change id w).registries = h.registries := by
  unfold change
  split
  · exact registries_commit h id w
  · next n _ =>
      show ((h.commit id w).deliver n).registries = _
      unfold deliver
      dsimp only
      split
      · exact (registries_foldl_invoke n.targets _).trans (registries_commit h id w)
      · exact (registries_foldl_invoke n.targets _).trans (registries_commit h id w)

/-- A subscription stays live until it is ended itself. -/
theorem Live.incident (hs : h.Live s) {i : Incident} (hi : i ≠ .deed (.unsubscribe s)) :
    (i.run h).Live s := by
  cases i with
  | deed d =>
      cases d with
      | newSeries s' =>
          obtain ⟨t, hkeeps⟩ := hs
          refine ⟨t, ?_⟩
          have hregistered := Live.registered ⟨t, hkeeps⟩
          cases hrid : s.registry with
          | ofSeries id =>
              rw [hrid] at hkeeps hregistered
              show ((h.newSeries s').2.sources id).registry.Keeps s.record t
              rw [sources_newSeries h s' hregistered]
              exact hkeeps
          | alone id =>
              rw [hrid] at hkeeps
              exact hkeeps
      | change id m =>
          exact hs.of_onlyRequests (onlyRequests_registry (h.onlyRequests_change id m)
            (h.registries_change id _) _)
      | subscribe rid t => exact hs.subscribe rid t
      | unsubscribe s' =>
          refine hs.setRegistry fun hrid t ht => Registry.keeps_unsubscribe.mpr ⟨ht, ?_⟩
          -- another subscription on the same registry has another number
          intro hrecord
          refine hi ?_
          obtain ⟨rid', record'⟩ := s'
          obtain rfl : rid' = s.registry := hrid
          rw [← show s.record = record' from hrecord]
      | request s' n =>
          exact hs.setRegistry fun _ t ht => (Registry.onlyRequests_request _ _ _).keeps_iff.mpr ht
      | newTarget | newToken | setWaiter | wake | cancel => exact hs
  | commit id m =>
      exact hs.of_onlyRequests (onlyRequests_registry (h.onlyRequests_commit id m)
        (h.registries_commit id _) _)
  | leave id => exact hs.of_onlyRequests (onlyRequests_registry (h.onlyRequests_leave id) rfl _)

/-- The set has one subscription on each of its registries, and none of them has ended. -/
structure Upholds (h : Hub) (set : Subscriptions) : Prop where
  nodup : (set.map (·.registry)).Nodup
  live : ∀ s ∈ set, h.Live s

/-- A set is upheld until one of its subscriptions is ended. -/
theorem Upholds.incidents (hset : h.Upholds set) {incidents : List Incident}
    (hspared : ∀ s ∈ set, .deed (.unsubscribe s) ∉ incidents) :
    (incidents.foldl Incident.run h).Upholds set := by
  induction incidents generalizing h with
  | nil => exact hset
  | cons i rest ih =>
      refine ih ⟨hset.nodup, fun s hs => ?_⟩ fun s hs hmem =>
        hspared s hs (List.mem_cons_of_mem i hmem)
      exact (hset.live s hs).incident fun heq => hspared s hs (heq ▸ List.mem_cons_self)

/-! ## Requests on a set -/

/-- The counts of the subscriptions in the set were raised, and nothing else was changed in any
registry. -/
structure Raises (h h' : Hub) (set : Subscriptions) (n : Nat) : Prop where
  requests : ∀ s, h'.requests s = h.requests s + if s ∈ set then n else 0
  onlyRequests : ∀ rid, Registry.OnlyRequests (h.registry rid) (h'.registry rid)
  untouched : ∀ rid ∉ set.map (·.registry), h'.registry rid = h.registry rid

/-- A request on a live subscription raises its count alone. -/
theorem raises_request (hs : h.Live s) (n : Nat) : h.Raises (h.request s n) [s] n where
  requests x := by
    by_cases hrid : x.registry = s.registry
    · have hregistry : (h.request s n).registry x.registry =
          (h.registry s.registry).request s.record n := by
        rw [hrid]
        exact registry_setRegistry_self hs.registered _
      rw [Hub.requests, hregistry, Registry.requests_request, Registry.asked, Hub.requests, hrid]
      by_cases hrecord : s.record = x.record
      · have hsame : x = s := by
          obtain ⟨rid, record⟩ := x
          obtain rfl : rid = s.registry := hrid
          rw [← show s.record = record from hrecord]
        rw [if_pos ⟨hrecord, hrecord ▸ Registry.has_iff.mpr hs⟩,
          if_pos (List.mem_singleton.mpr hsame)]
      · have hother : x ∉ [s] := fun hx => hrecord (List.mem_singleton.mp hx ▸ rfl)
        rw [if_neg fun hasked => hrecord hasked.1, if_neg hother]
    · have hother : x ∉ [s] := fun hx => hrid (List.mem_singleton.mp hx ▸ rfl)
      rw [Hub.requests, request, registry_setRegistry_of_ne hrid, if_neg hother]
      rfl
  onlyRequests rid := by
    by_cases hrid : rid = s.registry
    · rw [hrid, request, registry_setRegistry_self hs.registered]
      exact Registry.onlyRequests_request _ _ _
    · rw [request, registry_setRegistry_of_ne hrid]
      exact onlyRequests_refl _
  untouched rid hrid := registry_setRegistry_of_ne (fun heq => hrid (List.mem_singleton.mpr heq)) _

theorem Raises.cons {h'' : Hub} {n : Nat} (hs : s ∉ set) (hfirst : h.Raises h' [s] n)
    (hrest : h'.Raises h'' set n) : h.Raises h'' (s :: set) n where
  requests x := by
    rw [hrest.requests, hfirst.requests]
    by_cases hx : x = s
    · subst hx
      rw [if_pos List.mem_cons_self, if_neg hs, if_pos List.mem_cons_self, Nat.add_zero]
    · have hmem : x ∈ s :: set ↔ x ∈ set := by simp [hx]
      rw [if_neg (by simp [hx]), Nat.add_zero]
      simp only [hmem]
  onlyRequests rid := (hfirst.onlyRequests rid).trans (hrest.onlyRequests rid)
  untouched rid hrid := by
    rw [List.map_cons, List.mem_cons, not_or] at hrid
    rw [hrest.untouched rid hrid.2, hfirst.untouched rid (by simpa using hrid.1)]

/-- A request on a set reaches each of its subscriptions once. -/
theorem raises_requestAll (hset : h.Upholds set) (n : Nat) :
    h.Raises (h.requestAll set n) set n := by
  induction set generalizing h with
  | nil => exact ⟨fun _ => rfl, fun _ => onlyRequests_refl _, fun _ _ => rfl⟩
  | cons s rest ih =>
      obtain ⟨hother, hnodup⟩ := List.nodup_cons.mp hset.nodup
      have hfirst := raises_request (hset.live s List.mem_cons_self) n
      have hrest : (h.request s n).Upholds rest := ⟨hnodup, fun s' hs' =>
        (hset.live s' (List.mem_cons_of_mem s hs')).of_onlyRequests (hfirst.onlyRequests _)⟩
      exact hfirst.cons (fun hs => hother (List.mem_map_of_mem hs)) (ih hrest)

end Hub

end LiveSeries
