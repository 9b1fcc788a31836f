import Mathlib
import LiveSeries.Proofs.RegistryRuns

/-!
# The accounts of a registry

A subscription counts the notifications it still asked for. The count goes up with each request and
down by one with each notification that finds it above zero, be it forced or not, and nothing else
touches it. Between two moments at which no notification is under way, what was asked for and what
was met therefore balance, and the target was invoked once for each request that was met and once
for each forced notification that found none (`Registry.requests_accounted`).

What was asked and met is read off a log. The same tree of calls is carried out by a keeper that
writes down each request and each notification with the registry as it found it (`Keeper.logged`).
So the calls of targets that are invoked in the middle of a notification are booked as well, in the
order in which they come, and it does not matter how deep they are nested. How often a target was
invoked is counted in the answers of the tree itself (`RegistryAnswer.invocations`).
-/

namespace LiveSeries

/-! ## Logs -/

/-- What subscribers ask of a keeper, and what it is told. -/
inductive Errand where
  | request (id n : Nat)
  | notify (force : Bool)
  deriving DecidableEq, Repr

namespace RegistryAnswer

mutual

/-- How often a target was invoked for a call, and for the calls of those that were invoked. -/
def invocations (t : TargetId) : RegistryAnswer → Nat
  | .notified _ invoked => invocationsAmong t invoked
  | .subscribed _ | .done | .size _ => 0

/-- How often a target was invoked for calls one after the other. -/
def invocationsIn (t : TargetId) : List RegistryAnswer → Nat
  | [] => 0
  | answer :: rest => answer.invocations t + invocationsIn t rest

/-- How often a target is among those that were invoked, and was invoked by them. -/
def invocationsAmong (t : TargetId) : List (TargetId × List RegistryAnswer) → Nat
  | [] => 0
  | (u, answers) :: rest =>
    (if u == t then 1 else 0) + invocationsIn t answers + invocationsAmong t rest

end

end RegistryAnswer

namespace Keeper

open RegistryAnswer

variable {σ : Type}

/-- The same keeper, which writes down the requests and the notifications, and the state in which
each of them found it. -/
def logged (k : Keeper σ) : Keeper (σ × List (σ × Errand)) where
  subscribe t p := ((k.subscribe t p.1).1, (k.subscribe t p.1).2, p.2)
  drop id p := (k.drop id p.1, p.2)
  request id n p := (k.request id n p.1, p.2 ++ [(p.1, .request id n)])
  size p := k.size p.1
  select force p := ((k.select force p.1).1, (k.select force p.1).2, p.2 ++ [(p.1, .notify force)])

/-- How often an errand invokes a target. -/
def invoked (k : Keeper σ) (t : TargetId) : σ × Errand → Nat
  | (s, .notify force) => (k.select force s).1.count t
  | (_, .request _ _) => 0

section Invocations

variable (k : Keeper σ) (t : TargetId)

theorem invocationsAmong_map (targets : List TargetId) :
    invocationsAmong t (targets.map fun u => (u, [])) = targets.count t := by
  induction targets with
  | nil => rfl
  | cons u others ih =>
      rw [List.map_cons, invocationsAmong, ih, invocationsIn, List.count_cons]
      omega

mutual

theorem invoked_call (p : σ × List (σ × Errand)) : ∀ c : RegistryCall,
    ((k.logged.call p c).2.2.map (k.invoked t)).sum =
      (p.2.map (k.invoked t)).sum + (k.logged.call p c).1.invocations t
  | .subscribe u => rfl
  | .drop id => rfl
  | .request id n => by
      rw [call]
      simp [logged, invoked, invocations]
  | .size => rfl
  | .notify force reactions => by
      have hinvoked := invoked_invoke (k.logged.select force p).2 (k.select force p.1).1 reactions
      have hselected : ((k.logged.select force p).2.2.map (k.invoked t)).sum =
          (p.2.map (k.invoked t)).sum + (k.select force p.1).1.count t := by
        simp [logged, invoked]
      rw [call, invocations]
      show ((k.logged.invoke (k.logged.select force p).2 (k.select force p.1).1 reactions).2.2.map
        (k.invoked t)).sum = _ + invocationsAmong t
          (k.logged.invoke (k.logged.select force p).2 (k.select force p.1).1 reactions).1
      omega

theorem invoked_calls (p : σ × List (σ × Errand)) : ∀ cs : List RegistryCall,
    ((k.logged.calls p cs).2.2.map (k.invoked t)).sum =
      (p.2.map (k.invoked t)).sum + invocationsIn t (k.logged.calls p cs).1
  | [] => rfl
  | c :: rest => by
      have hfirst := invoked_call p c
      have hrest := invoked_calls (k.logged.call p c).2 rest
      rw [calls, invocationsIn]
      show ((k.logged.calls (k.logged.call p c).2 rest).2.2.map (k.invoked t)).sum = _
      omega

/-- The targets themselves were counted when they were selected. -/
theorem invoked_invoke (p : σ × List (σ × Errand)) (targets : List TargetId) :
    ∀ reactions : List (List RegistryCall),
      ((k.logged.invoke p targets reactions).2.2.map (k.invoked t)).sum + targets.count t =
        (p.2.map (k.invoked t)).sum + invocationsAmong t (k.logged.invoke p targets reactions).1
  | [] => by
      rw [invoke, invocationsAmong_map]
  | reaction :: rest => by
      cases targets with
      | nil => rfl
      | cons u others =>
          have hfirst := invoked_calls p reaction
          have hrest := invoked_invoke (k.logged.calls p reaction).2 others rest
          rw [invoke, invocationsAmong, List.count_cons]
          show ((k.logged.invoke (k.logged.calls p reaction).2 others rest).2.2.map
            (k.invoked t)).sum + _ = _
          omega

end

end Invocations

/-- To keep a log changes neither what is answered nor what is done. -/
theorem simulates_logged (k : Keeper σ) : Simulates (fun p s => p.1 = s) k.logged k where
  subscribe t p s h := by subst h; exact ⟨rfl, rfl⟩
  drop id p s h := by subst h; rfl
  request id n p s h := by subst h; rfl
  size p s h := by subst h; rfl
  select force p s h := by subst h; exact ⟨rfl, rfl⟩

end Keeper

namespace Registry

/-! ## Single operations -/

/-- A subscription with this number has not ended. -/
def has (r : Registry) (id : Nat) : Bool := (r.find? id).isSome

/-- How many notifications the subscription with a number is asked for. -/
def asked (id : Nat) : Registry × Errand → Nat
  | (r, .request i n) => if i = id ∧ r.has id then n else 0
  | (_, .notify _) => 0

/-- It is notified, and had asked for it. -/
def met (id : Nat) : Registry × Errand → Nat
  | (r, .notify _) => if 0 < r.requests id then 1 else 0
  | (_, .request _ _) => 0

/-- It is notified by force, and had not asked for it. -/
def forced (id : Nat) : Registry × Errand → Nat
  | (r, .notify force) => if force ∧ r.has id ∧ r.requests id = 0 then 1 else 0
  | (_, .request _ _) => 0

section Requests

variable {r r' : Registry} {id i n : Nat} {t : TargetId}

theorem requests_subscribe (h : r.subscribe t = .ok (i, r')) (id : Nat) :
    r'.requests id = r.requests id := by
  unfold requests find?
  rw [records_subscribe h, List.find?_append]
  cases r.records.find? fun s => s.id == id with
  | some s => rfl
  | none =>
      -- a new subscription begins without requests
      rw [Option.none_or, List.find?_singleton]
      cases r.issued == id <;> rfl

theorem requests_unsubscribe (h : id ≠ i) : (r.unsubscribe i).requests id = r.requests id := by
  have hsame : (fun s : Subscriber => decide ((s.id != i) = true ∧ (s.id == id) = true)) =
      fun s => s.id == id := by
    funext s
    by_cases hs : s.id = id <;> simp [hs, h]
  unfold requests find?
  rw [records_unsubscribe, List.find?_filter, hsame]

theorem requests_request (r : Registry) (i n id : Nat) :
    (r.request i n).requests id = r.requests id + asked id (r, .request i n) := by
  have hsame : ((fun s : Subscriber => s.id == id) ∘
      fun s => if s.id = i then { s with requests := s.requests + n } else s) =
      fun s => s.id == id := by
    funext s
    simp only [Function.comp_apply]
    split <;> rfl
  rw [asked, has]
  unfold requests find?
  rw [records_request, List.find?_map, hsame]
  cases hfound : r.records.find? fun s => s.id == id with
  | none => simp
  | some s =>
      have hs : s.id = id := by simpa using List.find?_some hfound
      by_cases hi : id = i
      · simp [hs, hi]
      · simp [hs, hi, Ne.symm hi]

theorem requests_notify (r : Registry) (force : Bool) (id : Nat) :
    (r.notify force).2.requests id + met id (r, .notify force) = r.requests id := by
  have hsame : ((fun s => s.id == id) ∘
      fun s : Subscriber => { s with requests := s.requests - 1 }) = fun s => s.id == id := rfl
  have htaken : (r.notify force).2.requests id = r.requests id - 1 := by
    unfold requests find?
    rw [records_notify, List.find?_map, hsame]
    cases r.records.find? fun s => s.id == id <;> rfl
  rw [htaken, met]
  split <;> omega

theorem requests_of_not_has (h : r.has id = false) : r.requests id = 0 := by
  rw [has, Option.isSome_eq_false_iff, Option.isNone_iff_eq_none] at h
  rw [requests, h]

theorem has_iff : r.has id = true ↔ ∃ t, r.Keeps id t := by
  rw [has, find?, List.find?_isSome]
  constructor
  · rintro ⟨s, hs, hid⟩
    refine ⟨s.target, s.requests, ?_⟩
    rw [← eq_of_beq hid]
    exact hs
  · rintro ⟨t, n, hs⟩
    exact ⟨_, hs, beq_self_eq_true id⟩

theorem lt_issued_of_has (hr : r.WellFormed) (h : r.has id = true) : id < r.issued := by
  obtain ⟨t, n, hs⟩ := has_iff.mp h
  exact hr.issued ⟨id, t, n⟩ hs

theorem not_has_of_issued_le (hr : r.WellFormed) (h : r.issued ≤ id) : r.has id = false :=
  Bool.eq_false_iff.mpr fun hhas => Nat.not_lt.mpr h (lt_issued_of_has hr hhas)

theorem not_has_unsubscribe (r : Registry) (i : Nat) : (r.unsubscribe i).has i = false := by
  rw [Bool.eq_false_iff]
  intro hhas
  obtain ⟨t, hkeeps⟩ := has_iff.mp hhas
  exact (keeps_unsubscribe.mp hkeeps).2 rfl

theorem requests_of_mem (hr : r.WellFormed) {s : Subscriber} (hs : s ∈ r.records) :
    r.requests s.id = s.requests := by
  have hhas : r.has s.id = true := has_iff.mpr ⟨s.target, s.requests, hs⟩
  obtain ⟨s', hfound⟩ := Option.isSome_iff_exists.mp hhas
  have hsame : s' = s := List.inj_on_of_nodup_map hr.ids (List.mem_of_find?_eq_some hfound) hs
    (by simpa using List.find?_some hfound)
  rw [requests, hfound, hsame]

/-- A notification invokes the target of a subscription once if the subscription was willing, and
does not invoke it else. -/
theorem count_targets_notify (hr : r.WellFormed) (hkeeps : r.Keeps id t) (force : Bool) :
    (r.notify force).1.targets.count t = if force ∨ 0 < r.requests id then 1 else 0 := by
  obtain ⟨n, hs⟩ := hkeeps
  have hrequests : r.requests id = n := requests_of_mem hr hs
  have hnodup : ((r.records.filter (Subscriber.answers force)).map (·.target)).Nodup :=
    (List.filter_sublist.map _).nodup hr.targets
  have hmem : t ∈ (r.records.filter (Subscriber.answers force)).map (·.target) ↔
      (force = true ∨ 0 < n) := by
    rw [List.mem_map]
    constructor
    · rintro ⟨s, hwilling, htarget⟩
      obtain ⟨hs', hanswers⟩ := List.mem_filter.mp hwilling
      -- a target has one subscription
      obtain rfl := List.inj_on_of_nodup_map hr.targets hs' hs htarget
      simpa [Subscriber.answers] using hanswers
    · intro hwilling
      exact ⟨_, List.mem_filter.mpr ⟨hs, by simpa [Subscriber.answers] using hwilling⟩, rfl⟩
  rw [targets_notify, hrequests, hnodup.count]
  exact ite_congr (propext hmem) (fun _ => rfl) (fun _ => rfl)

/-- The target of a subscription is invoked for a request that is met, and by force without one. -/
theorem invoked_eq (hr : r.WellFormed) (hkeeps : r.Keeps id t) (errand : Errand) :
    keeper.invoked t (r, errand) = met id (r, errand) + forced id (r, errand) := by
  cases errand with
  | request i n => rfl
  | notify force =>
      have hcount : keeper.invoked t (r, .notify force) =
          if force ∨ 0 < r.requests id then 1 else 0 := count_targets_notify hr hkeeps force
      have hhas : r.has id = true := has_iff.mpr ⟨t, hkeeps⟩
      rw [hcount, met, forced, hhas]
      by_cases hpending : 0 < r.requests id
      · simp [hpending, Nat.ne_of_gt hpending]
      · simp [Nat.eq_zero_of_not_pos hpending]

/-- Who is notified in vain is not there, or is passed over. -/
theorem met_forced_of_not_has (h : r.has id = false) (errand : Errand) :
    met id (r, errand) = 0 ∧ forced id (r, errand) = 0 := by
  cases errand with
  | request i n => exact ⟨rfl, rfl⟩
  | notify force => simp [met, forced, h, requests_of_not_has h]

theorem requests_of_subscribed (hr : r.WellFormed) (h : r.subscribe t = .ok (id, r')) :
    r'.requests id = 0 := by
  rw [requests_subscribe h, (issued_subscribe h).1]
  exact requests_of_not_has (not_has_of_issued_le hr (Nat.le_refl _))

theorem exists_subscribe_again (hr : r.WellFormed) (hkeeps : r.Keeps id t) :
    ∃ r', (r.unsubscribe id).subscribe t = .ok (r.issued, r') := by
  have hfree : ∀ i, ¬ (r.unsubscribe id).Keeps i t := by
    intro i hkept
    obtain ⟨⟨n, hn⟩, hne⟩ := keeps_unsubscribe.mp hkept
    obtain ⟨m, hm⟩ := hkeeps
    have hsame := List.inj_on_of_nodup_map hr.targets hn hm rfl
    exact hne (congrArg (·.id) hsame)
  exact exists_subscribe_eq_ok hfree

end Requests

/-! ## Runs -/

/-- The registry may have become the other one. Numbers are not given out again, so a subscription
that has not ended by then was there before, unless it is new. -/
structure Becomes (r r' : Registry) : Prop where
  issued : r.issued ≤ r'.issued
  kept : ∀ {id t}, r'.Keeps id t → id < r.issued → r.Keeps id t

section Becomes

variable {r r' r'' : Registry} {id : Nat} {t : TargetId}

theorem Becomes.refl (r : Registry) : r.Becomes r := ⟨Nat.le_refl _, fun hkeeps _ => hkeeps⟩

theorem Becomes.trans (h : r.Becomes r') (h' : r'.Becomes r'') : r.Becomes r'' where
  issued := Nat.le_trans h.issued h'.issued
  kept hkeeps hlt := h.kept (h'.kept hkeeps (Nat.lt_of_lt_of_le hlt h.issued)) hlt

theorem becomes_subscribe (h : r.subscribe t = .ok (id, r')) : r.Becomes r' where
  issued := by
    rw [(issued_subscribe h).2]
    exact Nat.le_succ _
  kept hkeeps hlt := by
    rcases (keeps_subscribe h).mp hkeeps with hkept | ⟨hid, -⟩
    · exact hkept
    · rw [hid, (issued_subscribe h).1] at hlt
      exact absurd hlt (Nat.lt_irrefl _)

theorem becomes_unsubscribe (r : Registry) (id : Nat) : r.Becomes (r.unsubscribe id) where
  issued := Nat.le_refl _
  kept hkeeps _ := (keeps_unsubscribe.mp hkeeps).1

theorem OnlyRequests.becomes (h : OnlyRequests r r') : r.Becomes r' where
  issued := Nat.le_of_eq h.issued.symm
  kept hkeeps _ := h.keeps_iff.mp hkeeps

end Becomes

/-- What was written down since some registry is complete, as far as subscriptions are concerned
that have not ended. -/
structure Booked (r₀ : Registry) (p : Registry × List (Registry × Errand)) : Prop where
  wellFormed : p.1.WellFormed
  since : r₀.Becomes p.1
  entries : ∀ e ∈ p.2, e.1.WellFormed ∧ r₀.Becomes e.1 ∧ e.1.Becomes p.1
  /-- Those that are still to be made have accounts, too, which are empty. -/
  balance : ∀ id, p.1.issued ≤ id ∨ p.1.has id = true →
    r₀.requests id + (p.2.map (asked id)).sum = p.1.requests id + (p.2.map (met id)).sum

section Booked

variable {r₀ r r' : Registry} {log : List (Registry × Errand)}

/-- A number that has not ended had not ended before. -/
theorem Becomes.open_of_open (h : r.Becomes r') {id : Nat}
    (hid : r'.issued ≤ id ∨ r'.has id = true) : r.issued ≤ id ∨ r.has id = true := by
  rcases hid with hnew | hhas
  · exact .inl (Nat.le_trans h.issued hnew)
  · obtain ⟨t, hkeeps⟩ := has_iff.mp hhas
    rcases Nat.lt_or_ge id r.issued with hlt | hge
    · exact .inr (has_iff.mpr ⟨t, h.kept hkeeps hlt⟩)
    · exact .inl hge

/-- What is not written down changes no account. -/
theorem Booked.silent (h : Booked r₀ (r, log)) (hnext : r.Becomes r') (hwf : r'.WellFormed)
    (hsame : ∀ id, r'.issued ≤ id ∨ r'.has id = true → r'.requests id = r.requests id) :
    Booked r₀ (r', log) where
  wellFormed := hwf
  since := h.since.trans hnext
  entries e he := by
    obtain ⟨hentry, hbegin, hbefore⟩ := h.entries e he
    exact ⟨hentry, hbegin, hbefore.trans hnext⟩
  balance id hid := by
    rw [show (r', log).1.requests id = r.requests id from hsame id hid]
    exact h.balance id (hnext.open_of_open hid)

/-- What is written down changes the accounts by what is asked and met. -/
theorem Booked.entry (h : Booked r₀ (r, log)) (hnext : OnlyRequests r r') (errand : Errand)
    (hchange : ∀ id, r'.requests id + met id (r, errand) = r.requests id + asked id (r, errand)) :
    Booked r₀ (r', log ++ [(r, errand)]) where
  wellFormed := hnext.wellFormed h.wellFormed
  since := h.since.trans hnext.becomes
  entries e he := by
    rcases List.mem_append.mp he with hold | hnew
    · obtain ⟨hentry, hbegin, hbefore⟩ := h.entries e hold
      exact ⟨hentry, hbegin, hbefore.trans hnext.becomes⟩
    · obtain rfl := List.mem_singleton.mp hnew
      exact ⟨h.wellFormed, h.since, hnext.becomes⟩
  balance id hid := by
    have hbefore := h.balance id (hnext.becomes.open_of_open hid)
    have hentry := hchange id
    simp only [List.map_append, List.sum_append, List.map_singleton,
      List.sum_singleton] at hbefore ⊢
    omega

end Booked

/-- Every call is booked, also those of targets that are invoked. -/
theorem simulates_booked (r₀ : Registry) :
    Keeper.Simulates (fun p r => p.1 = r ∧ Booked r₀ p) keeper.logged keeper where
  subscribe t p r := by
    rintro ⟨rfl, h⟩
    refine ⟨rfl, rfl, ?_⟩
    cases hholds : p.1.holds t with
    | true =>
        show Booked r₀ ((keeper.subscribe t p.1).2, p.2)
        rw [keeper_subscribe_of_holds hholds]
        exact h
    | false =>
        obtain ⟨r', htaken, hkeeper⟩ := keeper_subscribe_of_not_holds hholds
        show Booked r₀ ((keeper.subscribe t p.1).2, p.2)
        rw [hkeeper]
        exact h.silent (becomes_subscribe htaken) (wellFormed_subscribe htaken h.wellFormed)
          fun id _ => requests_subscribe htaken id
  drop i p r := by
    rintro ⟨rfl, h⟩
    refine ⟨rfl, h.silent (becomes_unsubscribe p.1 i) (wellFormed_unsubscribe h.wellFormed i) ?_⟩
    intro id hid
    by_cases hsame : id = i
    · subst hsame
      have hended : (keeper.drop id p.1).has id = false := not_has_unsubscribe p.1 id
      have hnew : p.1.issued ≤ id := hid.resolve_right (Bool.eq_false_iff.mp hended)
      rw [requests_of_not_has hended,
        requests_of_not_has (not_has_of_issued_le h.wellFormed hnew)]
    · exact requests_unsubscribe hsame
  request i n p r := by
    rintro ⟨rfl, h⟩
    refine ⟨rfl, h.entry (onlyRequests_request p.1 i n) (.request i n) fun id => ?_⟩
    exact requests_request p.1 i n id
  size p r := by
    rintro ⟨rfl, -⟩
    rfl
  select force p r := by
    rintro ⟨rfl, h⟩
    refine ⟨rfl, rfl, h.entry (onlyRequests_notify p.1 force) (.notify force) fun id => ?_⟩
    exact requests_notify p.1 force id

/-- The registry after calls that nobody else interrupts. -/
def afterCalls (calls : List RegistryCall) : Registry := (keeper.calls {} calls).2

/-- The accounts of a registry over calls that were answered, from one moment without a notification
under way to another one. Subscriptions that were made in between had no requests before. -/
structure Accounts (r₀ : Registry) (answers : List RegistryAnswer) (r : Registry)
    (log : List (Registry × Errand)) : Prop where
  /-- What was asked for is still pending or was met. -/
  balance : ∀ s ∈ r.records, r₀.requests s.id + (log.map (asked s.id)).sum =
    r.requests s.id + (log.map (met s.id)).sum
  /-- A notification that finds a subscription invokes its target once if it asked for it or if the
  notification is forced, and does not invoke it else. -/
  each : ∀ s ∈ r.records, ∀ q force, (q, .notify force) ∈ log → q.has s.id = true →
    (q.notify force).1.targets.count s.target = if force ∨ 0 < q.requests s.id then 1 else 0
  /-- So often did notifications that found the subscription invoke its target. -/
  found : ∀ s ∈ r.records, ((log.filter fun e => e.1.has s.id).map (keeper.invoked s.target)).sum =
    (log.map (met s.id)).sum + (log.map (forced s.id)).sum
  /-- If it was there all the time, nothing else did. -/
  invoked : ∀ s ∈ r.records, r₀.has s.id = true →
    RegistryAnswer.invocationsIn s.target answers =
      (log.map (met s.id)).sum + (log.map (forced s.id)).sum
  /-- Nobody is invoked but by a notification that selected him. -/
  total : ∀ t, RegistryAnswer.invocationsIn t answers = (log.map (keeper.invoked t)).sum
  /-- No operation on one subscription changes the count of another one. -/
  separate : ∀ id other, other ≠ id →
    (∀ n, (r.request id n).requests other = r.requests other) ∧
      (r.unsubscribe id).requests other = r.requests other ∧
      ∀ t r', r.subscribe t = .ok (id, r') → r'.requests other = r.requests other
  /-- A new subscription begins without requests, whatever the target had before. -/
  begins : ∀ t id r', r.subscribe t = .ok (id, r') → r'.requests id = 0
  /-- A target whose subscription ends can be subscribed again. -/
  again : ∀ s ∈ r.records, ∃ r', (r.unsubscribe s.id).subscribe s.target = .ok (r.issued, r')

theorem booked_begin {r : Registry} (hr : r.WellFormed) : Booked r (r, []) where
  wellFormed := hr
  since := .refl r
  entries := nofun
  balance _ _ := rfl

theorem booked_calls {r : Registry} (hr : r.WellFormed) (calls : List RegistryCall) :
    Booked r (keeper.logged.calls (r, []) calls).2 :=
  ((simulates_booked r).calls ⟨rfl, booked_begin hr⟩ calls).2.2

theorem logged_calls (r : Registry) (calls : List RegistryCall) :
    (keeper.logged.calls (r, []) calls).1 = (keeper.calls r calls).1 ∧
      (keeper.logged.calls (r, []) calls).2.1 = (keeper.calls r calls).2 :=
  keeper.simulates_logged.calls rfl calls

theorem wellFormed_afterCalls (calls : List RegistryCall) : (afterCalls calls).WellFormed := by
  rw [afterCalls, ← (logged_calls {} calls).2]
  exact (booked_calls wellFormed_empty calls).wellFormed

section Accounts

variable {r₀ r : Registry} {log : List (Registry × Errand)} {s : Subscriber}

theorem keeps_of_mem (hs : s ∈ r.records) : r.Keeps s.id s.target := ⟨s.requests, hs⟩

/-- A subscription that a registry found earlier had the same target then. -/
theorem Becomes.keeps_of_has (h : r₀.Becomes r) (hr₀ : r₀.WellFormed) (hs : s ∈ r.records)
    (hhas : r₀.has s.id = true) : r₀.Keeps s.id s.target :=
  h.kept (keeps_of_mem hs) (lt_issued_of_has hr₀ hhas)

/-- Notifications invoke the target of a subscription that they find for what is met, and by
force. -/
theorem sum_invoked_found (hs : s ∈ r.records)
    (hentries : ∀ e ∈ log, e.1.WellFormed ∧ e.1.Becomes r) :
    ((log.filter fun e => e.1.has s.id).map (keeper.invoked s.target)).sum =
      (log.map (met s.id)).sum + (log.map (forced s.id)).sum := by
  induction log with
  | nil => rfl
  | cons e rest ih =>
      have hrest := ih fun e' he' => hentries e' (List.mem_cons_of_mem e he')
      obtain ⟨hwf, hbefore⟩ := hentries e List.mem_cons_self
      rw [List.map_cons, List.map_cons, List.sum_cons, List.sum_cons, List.filter_cons]
      cases hhas : e.1.has s.id with
      | true =>
          have hkeeps := hbefore.keeps_of_has hwf hs hhas
          have hinvoked : keeper.invoked s.target e = met s.id e + forced s.id e :=
            invoked_eq hwf hkeeps e.2
          rw [if_pos rfl, List.map_cons, List.sum_cons]
          omega
      | false =>
          obtain ⟨hmet, hforced⟩ : met s.id e = 0 ∧ forced s.id e = 0 :=
            met_forced_of_not_has hhas e.2
          rw [if_neg Bool.false_ne_true]
          omega

/-- A subscription that was there at first and has not ended was there all the time. -/
theorem Booked.has_throughout (h : Booked r₀ (r, log)) (hs : s ∈ r.records)
    (hhas : r₀.has s.id = true) (hr₀ : r₀.WellFormed) : ∀ e ∈ log, e.1.has s.id = true := by
  intro e he
  obtain ⟨-, hbegin, hbefore⟩ := h.entries e he
  have hlt : s.id < e.1.issued := Nat.lt_of_lt_of_le (lt_issued_of_has hr₀ hhas) hbegin.issued
  exact has_iff.mpr ⟨s.target, hbefore.kept (keeps_of_mem hs) hlt⟩

theorem Booked.sum_invoked_found (h : Booked r₀ (r, log)) (hs : s ∈ r.records) :
    ((log.filter fun e => e.1.has s.id).map (keeper.invoked s.target)).sum =
      (log.map (met s.id)).sum + (log.map (forced s.id)).sum :=
  Registry.sum_invoked_found hs fun e he => ⟨(h.entries e he).1, (h.entries e he).2.2⟩

theorem Booked.accounts (h : Booked r₀ (r, log)) (hr₀ : r₀.WellFormed)
    {answers : List RegistryAnswer}
    (htotal : ∀ t, (log.map (keeper.invoked t)).sum = RegistryAnswer.invocationsIn t answers) :
    Accounts r₀ answers r log where
  balance s hs := h.balance s.id (.inr (has_iff.mpr ⟨s.target, keeps_of_mem hs⟩))
  each s hs q force he hhas := by
    obtain ⟨hwf, -, hbefore⟩ := h.entries _ he
    exact count_targets_notify hwf (hbefore.keeps_of_has hwf hs hhas) force
  found s hs := h.sum_invoked_found hs
  invoked s hs hhas := by
    rw [← h.sum_invoked_found hs, List.filter_eq_self.mpr (h.has_throughout hs hhas hr₀), htotal]
  total t := (htotal t).symm
  separate id other hne := by
    refine ⟨fun n => ?_, requests_unsubscribe hne,
      fun t r' htaken => requests_subscribe htaken other⟩
    rw [requests_request, asked, if_neg fun hsame => hne hsame.1.symm, Nat.add_zero]
  begins t id r' htaken := requests_of_subscribed h.wellFormed htaken
  again s hs := exists_subscribe_again h.wellFormed (keeps_of_mem hs)

end Accounts

/-- What a subscription asked for, what it was given and how often its target was invoked agree,
over every run of calls and whatever the targets call meanwhile. -/
theorem requests_accounted (before after : List RegistryCall) : ∃ log,
    keeper.logged.calls (afterCalls before, []) after =
        ((keeper.calls (afterCalls before) after).1, (keeper.calls (afterCalls before) after).2,
          log) ∧
      Accounts (afterCalls before) (keeper.calls (afterCalls before) after).1
        (keeper.calls (afterCalls before) after).2 log := by
  have hr₀ := wellFormed_afterCalls before
  have hbooked := booked_calls hr₀ after
  obtain ⟨hanswers, hstate⟩ := logged_calls (afterCalls before) after
  have htotal := fun t => keeper.invoked_calls t (afterCalls before, []) after
  refine ⟨(keeper.logged.calls (afterCalls before, []) after).2.2, ?_, ?_⟩
  · rw [← hanswers, ← hstate]
  · rw [← hanswers, ← hstate]
    exact hbooked.accounts hr₀ fun t => (htotal t).trans (Nat.zero_add _)

/-- Three notifications, one in the middle of another, meet three requests. -/
example :
    let calls : List RegistryCall :=
      [.subscribe 7, .request 0 2, .notify true [[.request 0 1, .notify true []]], .notify false []]
    (afterCalls calls).requests 0 = 0 ∧
      RegistryAnswer.invocationsIn 7 (keeper.calls {} calls).1 = 3 := by
  decide

end Registry

end LiveSeries
