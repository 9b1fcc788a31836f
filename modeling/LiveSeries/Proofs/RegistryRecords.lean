import LiveSeries.Registry

/-!
# The records of a registry

What the operations of a registry do to the subscriptions of one target. The numbers of
subscriptions are never given out twice, and a target has one subscription at the most
(`Registry.WellFormed`). So a target that is subscribed has exactly one record
(`exists_filter_eq_singleton`), and a request under its number reaches that record and no other.
-/

namespace LiveSeries

namespace Registry

/-- Numbers are given out once, and no target is subscribed twice. -/
structure WellFormed (r : Registry) : Prop where
  ids : (r.records.map (·.id)).Nodup
  issued : ∀ s ∈ r.records, s.id < r.issued
  targets : (r.records.map (·.target)).Nodup

/-- The subscription with this number is one of the target. -/
def Keeps (r : Registry) (id : Nat) (t : TargetId) : Prop := ∃ n, ⟨id, t, n⟩ ∈ r.records

/-- The target waits for a notification. -/
def Asks (r : Registry) (t : TargetId) : Prop := ∃ s ∈ r.records, s.target = t ∧ 0 < s.requests

theorem holds_iff {r : Registry} {t : TargetId} : r.holds t = true ↔ ∃ id, r.Keeps id t := by
  rw [holds, List.any_eq_true]
  constructor
  · rintro ⟨s, hs, ht⟩
    refine ⟨s.id, s.requests, ?_⟩
    rw [← eq_of_beq ht]
    exact hs
  · rintro ⟨id, n, hs⟩
    exact ⟨_, hs, beq_self_eq_true _⟩

theorem not_keeps_empty (id : Nat) (t : TargetId) : ¬ ({} : Registry).Keeps id t := by
  rintro ⟨n, hn⟩
  simp [records, Slot.records] at hn

theorem wellFormed_empty : ({} : Registry).WellFormed := by
  constructor <;> simp [records, Slot.records]

/-! ## Subscribing -/

/-- A target that is not subscribed is not refused. -/
theorem exists_subscribe_eq_ok {r : Registry} {t : TargetId} (h : ∀ id, ¬ r.Keeps id t) :
    ∃ r', r.subscribe t = .ok (r.issued, r') := by
  have hfree : r.holds t = false := by
    rw [Bool.eq_false_iff]
    intro hholds
    obtain ⟨id, hid⟩ := holds_iff.mp hholds
    exact h id hid
  simp [subscribe, hfree]

section Subscribe

variable {r r' : Registry} {t : TargetId} {id : Nat} (h : r.subscribe t = .ok (id, r'))

include h

theorem issued_subscribe : id = r.issued ∧ r'.issued = r.issued + 1 := by
  unfold subscribe at h
  split at h
  · cases h
  · cases h
    exact ⟨rfl, rfl⟩

theorem keeps_subscribe {i : Nat} {u : TargetId} :
    r'.Keeps i u ↔ r.Keeps i u ∨ (i = id ∧ u = t) := by
  unfold Keeps
  rw [records_subscribe h, (issued_subscribe h).1]
  simp only [List.mem_append, List.mem_singleton, Subscriber.mk.injEq]
  constructor
  · rintro ⟨n, hn | ⟨hi, hu, -⟩⟩
    · exact .inl ⟨n, hn⟩
    · exact .inr ⟨hi, hu⟩
  · rintro (⟨n, hn⟩ | ⟨hi, hu⟩)
    · exact ⟨n, .inl hn⟩
    · exact ⟨0, .inr ⟨hi, hu, rfl⟩⟩

theorem asks_subscribe {u : TargetId} (hu : r.Asks u) : r'.Asks u := by
  obtain ⟨s, hs, hrest⟩ := hu
  refine ⟨s, ?_, hrest⟩
  rw [records_subscribe h]
  exact List.mem_append_left _ hs

theorem wellFormed_subscribe (hr : r.WellFormed) : r'.WellFormed := by
  -- a target that has a record is refused
  have hfree : ∀ s ∈ r.records, s.target ≠ t := by
    intro s hs heq
    have hholds : r.holds t = true := holds_iff.mpr ⟨s.id, s.requests, by rw [← heq]; exact hs⟩
    rw [subscribe, if_pos hholds] at h
    cases h
  obtain ⟨-, hissued⟩ := issued_subscribe h
  constructor
  · rw [records_subscribe h, List.map_append, List.nodup_append]
    refine ⟨hr.ids, by simp, ?_⟩
    intro i hi j hj
    obtain ⟨s, hs, rfl⟩ := List.mem_map.mp hi
    rw [List.mem_singleton.mp hj]
    exact Nat.ne_of_lt (hr.issued s hs)
  · intro s hs
    rw [records_subscribe h] at hs
    rw [hissued]
    rcases List.mem_append.mp hs with hs | hs
    · exact Nat.lt_succ_of_lt (hr.issued s hs)
    · rw [List.mem_singleton.mp hs]
      exact Nat.lt_succ_self _
  · rw [records_subscribe h, List.map_append, List.nodup_append]
    refine ⟨hr.targets, by simp, ?_⟩
    intro u hu v hv
    obtain ⟨s, hs, rfl⟩ := List.mem_map.mp hu
    rw [List.mem_singleton.mp hv]
    exact hfree s hs

end Subscribe

/-! ## Ending a subscription -/

theorem keeps_unsubscribe {r : Registry} {i id : Nat} {t : TargetId} :
    (r.unsubscribe i).Keeps id t ↔ r.Keeps id t ∧ id ≠ i := by
  simp [Keeps, records_unsubscribe]

/-- The end of another's subscription does not concern a target. -/
theorem asks_unsubscribe {r : Registry} {i : Nat} {t : TargetId} (hi : ¬ r.Keeps i t)
    (h : r.Asks t) : (r.unsubscribe i).Asks t := by
  obtain ⟨s, hs, rfl, hpos⟩ := h
  refine ⟨s, ?_, rfl, hpos⟩
  rw [records_unsubscribe]
  have hne : s.id ≠ i := by
    rintro rfl
    exact hi ⟨s.requests, hs⟩
  exact List.mem_filter.mpr ⟨hs, bne_iff_ne.mpr hne⟩

theorem wellFormed_unsubscribe {r : Registry} (hr : r.WellFormed) (i : Nat) :
    (r.unsubscribe i).WellFormed := by
  have hsub : ((r.unsubscribe i).records).Sublist r.records := by
    rw [records_unsubscribe]
    exact List.filter_sublist
  exact ⟨(hsub.map _).nodup hr.ids, fun s hs => hr.issued s (hsub.subset hs),
    (hsub.map _).nodup hr.targets⟩

/-! ## Requests and notifications -/

/-- An operation that changes at most the requests of the records. -/
structure OnlyRequests (r r' : Registry) : Prop where
  change : ∃ f : Subscriber → Nat, r'.records = r.records.map fun s => { s with requests := f s }
  issued : r'.issued = r.issued

theorem OnlyRequests.trans {r r' r'' : Registry} (h : OnlyRequests r r')
    (h' : OnlyRequests r' r'') : OnlyRequests r r'' where
  change := by
    obtain ⟨f, hf⟩ := h.change
    obtain ⟨g, hg⟩ := h'.change
    refine ⟨fun s => g { s with requests := f s }, ?_⟩
    rw [hg, hf, List.map_map]
    rfl
  issued := h'.issued.trans h.issued

theorem OnlyRequests.keeps_iff {r r' : Registry} (h : OnlyRequests r r') {id : Nat}
    {t : TargetId} : r'.Keeps id t ↔ r.Keeps id t := by
  obtain ⟨f, hf⟩ := h.change
  unfold Keeps
  rw [hf]
  constructor
  · rintro ⟨n, hn⟩
    obtain ⟨s, hs, heq⟩ := List.mem_map.mp hn
    cases heq
    exact ⟨s.requests, hs⟩
  · rintro ⟨n, hn⟩
    exact ⟨_, List.mem_map.mpr ⟨_, hn, rfl⟩⟩

theorem OnlyRequests.wellFormed {r r' : Registry} (h : OnlyRequests r r') (hr : r.WellFormed) :
    r'.WellFormed := by
  obtain ⟨f, hf⟩ := h.change
  constructor
  · rw [hf, List.map_map]
    exact hr.ids
  · intro s hs
    rw [hf] at hs
    obtain ⟨s', hs', rfl⟩ := List.mem_map.mp hs
    rw [h.issued]
    exact hr.issued s' hs'
  · rw [hf, List.map_map]
    exact hr.targets

theorem records_request (r : Registry) (id n : Nat) :
    (r.request id n).records =
      r.records.map fun s => if s.id = id then { s with requests := s.requests + n } else s := by
  simp [request, records]

theorem onlyRequests_request (r : Registry) (id n : Nat) : OnlyRequests r (r.request id n) where
  change := by
    refine ⟨fun s => if s.id = id then s.requests + n else s.requests, ?_⟩
    rw [records_request]
    refine List.map_congr_left ?_
    intro s _
    by_cases h : s.id = id <;> simp [h]
  issued := rfl

theorem onlyRequests_notify (r : Registry) (force : Bool) : OnlyRequests r (r.notify force).2 where
  change := ⟨_, records_notify r force⟩
  issued := by
    unfold notify
    split <;> rfl

theorem asks_request {r : Registry} {t : TargetId} (h : r.Asks t) (id n : Nat) :
    (r.request id n).Asks t := by
  obtain ⟨s, hs, rfl, hpos⟩ := h
  refine ⟨_, by rw [records_request]; exact List.mem_map_of_mem hs, ?_⟩
  split
  · exact ⟨rfl, Nat.add_pos_left hpos n⟩
  · exact ⟨rfl, hpos⟩

theorem asks_request_of_keeps {r : Registry} {id n : Nat} {t : TargetId} (h : r.Keeps id t)
    (hn : 0 < n) : (r.request id n).Asks t := by
  obtain ⟨k, hk⟩ := h
  refine ⟨_, by rw [records_request]; exact List.mem_map_of_mem hk, ?_⟩
  rw [if_pos rfl]
  exact ⟨rfl, Nat.add_pos_right k hn⟩

/-- A notification selects everyone who asks. -/
theorem mem_targets_notify {r : Registry} {t : TargetId} (h : r.Asks t) (force : Bool) :
    t ∈ (r.notify force).1.targets := by
  obtain ⟨s, hs, rfl, hpos⟩ := h
  rw [targets_notify]
  refine List.mem_map_of_mem (List.mem_filter.mpr ⟨hs, ?_⟩)
  simp [Subscriber.answers, hpos]

/-- Who asks has one record, and it has a request. -/
theorem exists_filter_eq_singleton {r : Registry} (hr : r.WellFormed) {t : TargetId}
    (h : r.Asks t) : ∃ s, r.records.filter (fun s => s.target == t) = [s] ∧ 0 < s.requests := by
  obtain ⟨s, hs, rfl, hpos⟩ := h
  refine ⟨s, ?_, hpos⟩
  have hnodup := hr.targets
  obtain ⟨front, back, hsplit⟩ := List.append_of_mem hs
  rw [hsplit, List.map_append, List.map_cons, List.nodup_append, List.nodup_cons] at hnodup
  obtain ⟨-, ⟨hafter, -⟩, hbefore⟩ := hnodup
  have hfront : front.filter (fun u => u.target == s.target) = [] := by
    rw [List.filter_eq_nil_iff]
    intro u hu heq
    exact hbefore _ (List.mem_map_of_mem hu) s.target List.mem_cons_self (eq_of_beq heq)
  have hback : back.filter (fun u => u.target == s.target) = [] := by
    rw [List.filter_eq_nil_iff]
    intro u hu heq
    exact hafter (eq_of_beq heq ▸ List.mem_map_of_mem hu)
  rw [hsplit, List.filter_append, hfront, List.filter_cons, if_pos (beq_self_eq_true _), hback]
  rfl

end Registry

end LiveSeries
