import LiveSeries.Proofs.RegistryRecords
import LiveSeries.Proofs.SessionReaders

/-!
# Runs of a registry

A registry keeps its records in a slot of three forms, and the targets of a notification may call it
while they are invoked. What it does nevertheless is told by a roll of all subscriptions that were
ever made, in the order in which they were made, of which some have ended (`Roll`). The registry
answers every run of calls as the roll does, and holds the records of those that have not ended
(`Registry.follows_roll`).

Calls nest, and so a run is a tree of calls (`RegistryCall`), with the calls of each invoked target
below the notification. The tree is carried out on any keeper of subscriptions in the same way
(`Keeper.calls`): a notification selects its targets, and then they are invoked one after the other.
So two keepers that answer single calls alike answer whole trees alike (`Keeper.Simulates.calls`).
That a registry keeps to its roll is one such simulation, and that one which was emptied cannot be
told from a vacant one is another.

A session notifies in this way, too: it selects, and then hands what it selected on to be invoked
(`Session.run_notify`).
-/

namespace LiveSeries

/-! ## Trees of calls -/

/-- A call of a registry. -/
inductive RegistryCall where
  | subscribe (t : TargetId)
  /-- The end of the subscription with a number. -/
  | drop (id : Nat)
  | request (id n : Nat)
  | size
  /-- A notification, with what the invoked targets call, one list for each. -/
  | notify (force : Bool) (reactions : List (List RegistryCall))

/-- What a call answers. -/
inductive RegistryAnswer where
  | subscribed (answer : Except SubscribeRefusal Nat)
  | done
  | size (n : Nat)
  /-- How many targets were invoked; which they were, and what their calls answered. -/
  | notified (count : Nat) (invoked : List (TargetId × List RegistryAnswer))

/-- The operations of what keeps subscriptions. -/
structure Keeper (σ : Type) where
  subscribe : TargetId → σ → Except SubscribeRefusal Nat × σ
  drop : Nat → σ → σ
  request : Nat → Nat → σ → σ
  size : σ → Nat
  /-- Selects the targets of a notification. -/
  select : Bool → σ → List TargetId × σ

namespace Keeper

variable {σ τ : Type}

mutual

/-- One call. The targets of a notification are selected before any of them is invoked. -/
def call (k : Keeper σ) (s : σ) : RegistryCall → RegistryAnswer × σ
  | .subscribe t => (.subscribed (k.subscribe t s).1, (k.subscribe t s).2)
  | .drop id => (.done, k.drop id s)
  | .request id n => (.done, k.request id n s)
  | .size => (.size (k.size s), s)
  | .notify force reactions =>
    let selected := k.select force s
    let invoked := k.invoke selected.2 selected.1 reactions
    (.notified selected.1.length invoked.1, invoked.2)

/-- Calls one after the other. -/
def calls (k : Keeper σ) (s : σ) : List RegistryCall → List RegistryAnswer × σ
  | [] => ([], s)
  | c :: rest =>
    let answered := k.call s c
    let answers := k.calls answered.2 rest
    (answered.1 :: answers.1, answers.2)

/-- Invokes targets one after the other. Those for which there are no calls only look on. -/
def invoke (k : Keeper σ) (s : σ) (targets : List TargetId) :
    List (List RegistryCall) → List (TargetId × List RegistryAnswer) × σ
  | [] => (targets.map fun t => (t, []), s)
  | reaction :: rest =>
    match targets with
    | [] => ([], s)
    | t :: others =>
      let answers := k.calls s reaction
      let invoked := k.invoke answers.2 others rest
      ((t, answers.1) :: invoked.1, invoked.2)

end

/-- Whatever the targets do, they are invoked in order, each once for its place in the list. -/
theorem targets_invoke (k : Keeper σ) (s : σ) (targets : List TargetId)
    (reactions : List (List RegistryCall)) :
    (k.invoke s targets reactions).1.map (·.1) = targets := by
  induction reactions generalizing s targets with
  | nil =>
      rw [invoke, List.map_map]
      exact List.map_id targets
  | cons reaction rest ih =>
      cases targets with
      | nil => rfl
      | cons t others =>
          rw [invoke, List.map_cons, ih]

/-! ## Simulations -/

/-- One keeper answers every single call as the other does, and the relation is kept. -/
structure Simulates (R : σ → τ → Prop) (k : Keeper σ) (m : Keeper τ) : Prop where
  subscribe : ∀ t s u, R s u →
    (k.subscribe t s).1 = (m.subscribe t u).1 ∧ R (k.subscribe t s).2 (m.subscribe t u).2
  drop : ∀ id s u, R s u → R (k.drop id s) (m.drop id u)
  request : ∀ id n s u, R s u → R (k.request id n s) (m.request id n u)
  size : ∀ s u, R s u → k.size s = m.size u
  select : ∀ force s u, R s u →
    (k.select force s).1 = (m.select force u).1 ∧ R (k.select force s).2 (m.select force u).2

/-! The proof goes down the tree as the run does. The relation is kept from one call to the next,
and so it holds again whenever a target calls in the middle of a notification. -/

section Simulation

variable {R : σ → τ → Prop} {k : Keeper σ} {m : Keeper τ}

mutual

theorem Simulates.call (h : Simulates R k m) {s : σ} {u : τ} (hR : R s u) :
    ∀ c : RegistryCall, (k.call s c).1 = (m.call u c).1 ∧ R (k.call s c).2 (m.call u c).2
  | .subscribe t => by
      obtain ⟨hanswer, hnext⟩ := h.subscribe t s u hR
      rw [Keeper.call, Keeper.call, hanswer]
      exact ⟨rfl, hnext⟩
  | .drop id => by
      rw [Keeper.call, Keeper.call]
      exact ⟨rfl, h.drop id s u hR⟩
  | .request id n => by
      rw [Keeper.call, Keeper.call]
      exact ⟨rfl, h.request id n s u hR⟩
  | .size => by
      rw [Keeper.call, Keeper.call, h.size s u hR]
      exact ⟨rfl, hR⟩
  | .notify force reactions => by
      obtain ⟨hselected, hnext⟩ := h.select force s u hR
      obtain ⟨hinvoked, hlast⟩ := h.invoke hnext (m.select force u).1 reactions
      -- the targets were selected alike, whatever becomes of the subscriptions now
      rw [Keeper.call, Keeper.call, hselected, hinvoked]
      exact ⟨rfl, hlast⟩

theorem Simulates.calls (h : Simulates R k m) {s : σ} {u : τ} (hR : R s u) :
    ∀ cs : List RegistryCall,
      (k.calls s cs).1 = (m.calls u cs).1 ∧ R (k.calls s cs).2 (m.calls u cs).2
  | [] => by
      rw [Keeper.calls, Keeper.calls]
      exact ⟨rfl, hR⟩
  | c :: rest => by
      obtain ⟨hanswer, hnext⟩ := h.call hR c
      obtain ⟨hanswers, hlast⟩ := h.calls hnext rest
      rw [Keeper.calls, Keeper.calls, hanswer, hanswers]
      exact ⟨rfl, hlast⟩

theorem Simulates.invoke (h : Simulates R k m) {s : σ} {u : τ} (hR : R s u)
    (targets : List TargetId) : ∀ reactions : List (List RegistryCall),
      (k.invoke s targets reactions).1 = (m.invoke u targets reactions).1 ∧
        R (k.invoke s targets reactions).2 (m.invoke u targets reactions).2
  | [] => by
      rw [Keeper.invoke, Keeper.invoke]
      exact ⟨rfl, hR⟩
  | reaction :: rest => by
      cases targets with
      | nil =>
          rw [Keeper.invoke, Keeper.invoke]
          exact ⟨rfl, hR⟩
      | cons t others =>
          obtain ⟨hanswers, hnext⟩ := h.calls hR reaction
          obtain ⟨hinvoked, hlast⟩ := h.invoke hnext others rest
          rw [Keeper.invoke, Keeper.invoke, hanswers, hinvoked]
          exact ⟨rfl, hlast⟩

end

end Simulation

end Keeper

/-! ## Rolls -/

/-- A subscription that was made. -/
structure Membership where
  target : TargetId
  requests : Nat := 0
  /-- It has not ended. -/
  live : Bool := true

/-- A notification finds this subscription willing. -/
def Membership.answers (force : Bool) (m : Membership) : Bool :=
  m.live && (force || 0 < m.requests)

/-- All subscriptions that were made, in order. Their numbers are their places. -/
abbrev Roll := List Membership

namespace Roll

/-- The records of the subscriptions that have not ended, if the numbers begin with `start`. -/
def liveFrom (start : Nat) : Roll → List Subscriber
  | [] => []
  | m :: rest =>
    if m.live then ⟨start, m.target, m.requests⟩ :: liveFrom (start + 1) rest
    else liveFrom (start + 1) rest

/-- The records of the subscriptions that have not ended. -/
def live (roll : Roll) : List Subscriber := roll.liveFrom 0

/-- The target has a subscription that has not ended. -/
def holds (roll : Roll) (t : TargetId) : Bool := roll.any fun m => m.live && m.target == t

/-- The operations of a roll. Nothing is ever taken off it. -/
def keeper : Keeper Roll where
  subscribe t roll :=
    if roll.holds t then (.error .alreadySubscribed, roll)
    else (.ok roll.length, roll ++ [{ target := t }])
  drop id roll := roll.modify id fun m => { m with live := false }
  request id n roll := roll.modify id fun m => { m with requests := m.requests + n }
  size roll := roll.countP (·.live)
  select force roll :=
    ((roll.filter (Membership.answers force)).map (·.target),
      roll.map fun m => { m with requests := m.requests - 1 })

theorem le_of_mem_liveFrom {start : Nat} {roll : Roll} {s : Subscriber}
    (hs : s ∈ roll.liveFrom start) : start ≤ s.id := by
  induction roll generalizing start with
  | nil => cases hs
  | cons m rest ih =>
      rw [liveFrom] at hs
      split at hs
      · rcases List.mem_cons.mp hs with rfl | hs
        · exact Nat.le_refl _
        · exact Nat.le_of_succ_le (ih hs)
      · exact Nat.le_of_succ_le (ih hs)

/-- No number is given twice. -/
theorem id_ne_of_mem_liveFrom {start : Nat} {roll : Roll} {s : Subscriber}
    (hs : s ∈ roll.liveFrom (start + 1)) : s.id ≠ start := by
  have hle := le_of_mem_liveFrom hs
  omega

theorem liveFrom_append (start : Nat) (roll : Roll) (t : TargetId) :
    liveFrom start (roll ++ [{ target := t }]) =
      roll.liveFrom start ++ [⟨start + roll.length, t, 0⟩] := by
  induction roll generalizing start with
  | nil => rfl
  | cons m rest ih =>
      have hplace : start + 1 + rest.length = start + (rest.length + 1) := by omega
      rw [List.cons_append, liveFrom, liveFrom, ih, List.length_cons, hplace]
      split <;> rfl

/-- To end one subscription takes its record away. -/
theorem liveFrom_drop (start : Nat) (roll : Roll) (i : Nat) :
    liveFrom start (roll.modify i fun m => { m with live := false }) =
      (roll.liveFrom start).filter fun s => s.id != start + i := by
  induction roll generalizing start i with
  | nil => rw [List.modify_nil]; rfl
  | cons m rest ih =>
      have hbehind : (liveFrom (start + 1) rest).filter (fun s => s.id != start) =
          liveFrom (start + 1) rest :=
        List.filter_eq_self.mpr fun s hs => bne_iff_ne.mpr (id_ne_of_mem_liveFrom hs)
      cases i with
      | zero =>
          rw [List.modify_zero_cons, liveFrom, liveFrom, Nat.add_zero]
          cases m.live with
          | false => simp [hbehind]
          | true => simp [hbehind]
      | succ i =>
          have hplace : start + 1 + i = start + (i + 1) := by omega
          rw [List.modify_succ_cons, liveFrom, liveFrom, ih, hplace]
          cases m.live with
          | false => rfl
          | true => simp

theorem liveFrom_request (start : Nat) (roll : Roll) (i n : Nat) :
    liveFrom start (roll.modify i fun m => { m with requests := m.requests + n }) =
      (roll.liveFrom start).map fun s =>
        if s.id = start + i then { s with requests := s.requests + n } else s := by
  induction roll generalizing start i with
  | nil => rw [List.modify_nil]; rfl
  | cons m rest ih =>
      have hbehind : (liveFrom (start + 1) rest).map (fun s =>
          if s.id = start then { s with requests := s.requests + n } else s) =
          liveFrom (start + 1) rest :=
        (List.map_congr_left (g := id) fun s hs => if_neg (id_ne_of_mem_liveFrom hs)).trans
          (List.map_id _)
      cases i with
      | zero =>
          rw [List.modify_zero_cons, liveFrom, liveFrom, Nat.add_zero]
          cases m.live with
          | false => simp [hbehind]
          | true => simp [hbehind]
      | succ i =>
          have hplace : start + 1 + i = start + (i + 1) := by omega
          rw [List.modify_succ_cons, liveFrom, liveFrom, ih, hplace]
          cases m.live with
          | false => rfl
          | true => simp

theorem liveFrom_take (start : Nat) (roll : Roll) :
    liveFrom start (roll.map fun m => { m with requests := m.requests - 1 }) =
      (roll.liveFrom start).map fun s => { s with requests := s.requests - 1 } := by
  induction roll generalizing start with
  | nil => rfl
  | cons m rest ih =>
      rw [List.map_cons, liveFrom, liveFrom, ih]
      split <;> rfl

theorem targets_liveFrom (start : Nat) (force : Bool) (roll : Roll) :
    ((roll.liveFrom start).filter (Subscriber.answers force)).map (·.target) =
      (roll.filter (Membership.answers force)).map (·.target) := by
  induction roll generalizing start with
  | nil => rfl
  | cons m rest ih =>
      have hrest := ih (start + 1)
      rw [liveFrom]
      cases hlive : m.live with
      | false => simpa [Membership.answers, hlive] using hrest
      | true =>
          -- a subscription that lives is as willing as its record
          rw [if_pos rfl, List.filter_cons, List.filter_cons]
          have hwilling : m.answers force =
              Subscriber.answers force ⟨start, m.target, m.requests⟩ := by
            simp [Membership.answers, Subscriber.answers, hlive]
          rw [hwilling]
          split
          · rw [List.map_cons, List.map_cons, hrest]
          · exact hrest

theorem length_liveFrom (start : Nat) (roll : Roll) :
    (roll.liveFrom start).length = roll.countP (·.live) := by
  induction roll generalizing start with
  | nil => rfl
  | cons m rest ih =>
      rw [liveFrom, List.countP_cons]
      split
      · rw [List.length_cons, ih]
      · exact ih (start + 1)

theorem any_liveFrom (start : Nat) (roll : Roll) (t : TargetId) :
    ((roll.liveFrom start).any fun s => s.target == t) = roll.holds t := by
  induction roll generalizing start with
  | nil => rfl
  | cons m rest ih =>
      rw [holds, List.any_cons, liveFrom]
      cases m.live with
      | false => exact ih (start + 1)
      | true =>
          rw [if_pos rfl, List.any_cons, ih]
          rfl

end Roll

namespace Registry

/-! ## Registries and rolls -/

/-- The operations of a registry. -/
def keeper : Keeper Registry where
  subscribe t r :=
    match r.subscribe t with
    | .ok (id, r') => (.ok id, r')
    | .error e => (.error e, r)
  drop id r := r.unsubscribe id
  request id n r := r.request id n
  size r := r.size
  select force r := ((r.notify force).1.targets, (r.notify force).2)

/-- The registry holds what the roll says. -/
structure Mirrors (r : Registry) (roll : Roll) : Prop where
  records : r.records = roll.live
  issued : r.issued = roll.length
  wellFormed : r.WellFormed

theorem Mirrors.holds_eq {r : Registry} {roll : Roll} (h : r.Mirrors roll) (t : TargetId) :
    r.holds t = roll.holds t := by
  rw [holds, h.records]
  exact Roll.any_liveFrom 0 roll t

theorem keeper_subscribe_of_holds {r : Registry} {t : TargetId} (h : r.holds t = true) :
    keeper.subscribe t r = (.error .alreadySubscribed, r) := by
  have hrefused : r.subscribe t = .error .alreadySubscribed := if_pos h
  simp only [keeper, hrefused]

theorem keeper_subscribe_of_not_holds {r : Registry} {t : TargetId} (h : r.holds t = false) :
    ∃ r', r.subscribe t = .ok (r.issued, r') ∧ keeper.subscribe t r = (.ok r.issued, r') := by
  have htaken : r.subscribe t =
      .ok (r.issued, { slot := r.slot.push ⟨r.issued, t, 0⟩, issued := r.issued + 1 }) :=
    if_neg (Bool.eq_false_iff.mp h)
  refine ⟨_, htaken, ?_⟩
  simp only [keeper, htaken]

/-- A registry keeps to its roll, whatever form its slot has. -/
theorem simulates_roll : Keeper.Simulates Mirrors keeper Roll.keeper where
  subscribe t r roll h := by
    cases hholds : roll.holds t with
    | true =>
        have hroll : Roll.keeper.subscribe t roll = (.error .alreadySubscribed, roll) :=
          if_pos hholds
        rw [keeper_subscribe_of_holds ((h.holds_eq t).trans hholds), hroll]
        exact ⟨rfl, h⟩
    | false =>
        have hroll : Roll.keeper.subscribe t roll = (.ok roll.length, roll ++ [{ target := t }]) :=
          if_neg (Bool.eq_false_iff.mp hholds)
        obtain ⟨r', htaken, hkeeper⟩ :=
          keeper_subscribe_of_not_holds ((h.holds_eq t).trans hholds)
        rw [hkeeper, hroll, h.issued]
        refine ⟨rfl, ?_, ?_, wellFormed_subscribe htaken h.wellFormed⟩
        · rw [records_subscribe htaken, h.records, h.issued, Roll.live, Roll.live,
            Roll.liveFrom_append, Nat.zero_add]
        · rw [(issued_subscribe htaken).2, h.issued, List.length_append]
          rfl
  drop id r roll h := by
    refine ⟨?_, ?_, wellFormed_unsubscribe h.wellFormed id⟩
    · have hlive := Roll.liveFrom_drop 0 roll id
      rw [Nat.zero_add] at hlive
      exact (records_unsubscribe r id).trans (h.records ▸ hlive.symm)
    · exact h.issued.trans (List.length_modify _ _ _).symm
  request id n r roll h := by
    refine ⟨?_, ?_, (onlyRequests_request r id n).wellFormed h.wellFormed⟩
    · have hlive := Roll.liveFrom_request 0 roll id n
      rw [Nat.zero_add] at hlive
      exact (records_request r id n).trans (h.records ▸ hlive.symm)
    · exact h.issued.trans (List.length_modify _ _ _).symm
  size r roll h := by
    show r.records.length = _
    rw [h.records]
    exact Roll.length_liveFrom 0 roll
  select force r roll h := by
    refine ⟨?_, ?_, ?_, (onlyRequests_notify r force).wellFormed h.wellFormed⟩
    · show (r.notify force).1.targets = _
      rw [targets_notify, h.records]
      exact Roll.targets_liveFrom 0 force roll
    · show (r.notify force).2.records = _
      rw [records_notify, h.records]
      exact (Roll.liveFrom_take 0 roll).symm
    · have hlength : roll.length = (Roll.keeper.select force roll).2.length := by
        simp [Roll.keeper]
      exact (onlyRequests_notify r force).issued.trans (h.issued.trans hlength)

/-- Registries with the same records that give out the same numbers. -/
structure SameRecords (r r' : Registry) : Prop where
  records : r.records = r'.records
  issued : r.issued = r'.issued

/-- What a registry answers does not depend on the form of its slot. -/
theorem simulates_sameRecords : Keeper.Simulates SameRecords keeper keeper where
  subscribe t r r' h := by
    have hsame : r.holds t = r'.holds t := by rw [holds, holds, h.records]
    cases hholds : r'.holds t with
    | true =>
        rw [keeper_subscribe_of_holds hholds, keeper_subscribe_of_holds (hsame.trans hholds)]
        exact ⟨rfl, h⟩
    | false =>
        obtain ⟨q, htaken, hkeeper⟩ := keeper_subscribe_of_not_holds (hsame.trans hholds)
        obtain ⟨q', htaken', hkeeper'⟩ := keeper_subscribe_of_not_holds hholds
        rw [hkeeper, hkeeper', h.issued]
        refine ⟨rfl, ?_, ?_⟩
        · rw [records_subscribe htaken, records_subscribe htaken', h.records, h.issued]
        · rw [(issued_subscribe htaken).2, (issued_subscribe htaken').2, h.issued]
  drop id r r' h := by
    refine ⟨?_, h.issued⟩
    show (r.unsubscribe id).records = (r'.unsubscribe id).records
    rw [records_unsubscribe, records_unsubscribe, h.records]
  request id n r r' h := by
    refine ⟨?_, h.issued⟩
    show (r.request id n).records = (r'.request id n).records
    rw [records_request, records_request, h.records]
  size r r' h := by
    show r.records.length = r'.records.length
    rw [h.records]
  select force r r' h := by
    refine ⟨?_, ?_, ?_⟩
    · show (r.notify force).1.targets = (r'.notify force).1.targets
      rw [targets_notify, targets_notify, h.records]
    · show (r.notify force).2.records = (r'.notify force).2.records
      rw [records_notify, records_notify, h.records]
    · exact (onlyRequests_notify r force).issued.trans
        (h.issued.trans (onlyRequests_notify r' force).issued.symm)

/-! ## Runs -/

/-- What is known of a registry after a run, next to the roll. A registry in the middle of a
notification is one after a notification whose targets called nothing, and after what was called
since. -/
structure Follows (r : Registry) (roll : Roll) : Prop where
  records : r.records = roll.live
  ids : (r.records.map (·.id)).Nodup
  targets : (r.records.map (·.target)).Nodup
  /-- As many subscriptions as have not ended. -/
  size : r.size = roll.countP (·.live)
  refuses : ∀ t, t ∈ r.records.map (·.target) →
    keeper.subscribe t r = (.error .alreadySubscribed, r)
  appends : ∀ t, t ∉ r.records.map (·.target) →
    ∃ r', keeper.subscribe t r = (.ok r.issued, r') ∧
      r'.records = r.records ++ [⟨r.issued, t, 0⟩]
  drops : ∀ id, (keeper.drop id r).records = r.records.filter fun s => s.id != id
  /-- Whatever the targets call, those that were selected are invoked in order, and counted. -/
  notifies : ∀ force reactions, ∃ invoked,
    (keeper.call r (.notify force reactions)).1 = .notified invoked.length invoked ∧
      invoked.map (·.1) = (r.records.filter (Subscriber.answers force)).map (·.target) ∧
      (invoked.map (·.1)).Nodup
  /-- Once all subscriptions have ended, the registry cannot be told from a vacant one. -/
  emptied : r.records = [] → ∀ more,
    (keeper.calls r more).1 = (keeper.calls { issued := r.issued } more).1

theorem mem_targets_iff_holds {r : Registry} {t : TargetId} :
    t ∈ r.records.map (·.target) ↔ r.holds t = true := by
  simp [holds]

theorem notifies (r : Registry) (hr : r.WellFormed) (force : Bool)
    (reactions : List (List RegistryCall)) : ∃ invoked,
    (keeper.call r (.notify force reactions)).1 = .notified invoked.length invoked ∧
      invoked.map (·.1) = (r.records.filter (Subscriber.answers force)).map (·.target) ∧
      (invoked.map (·.1)).Nodup := by
  have htargets : (keeper.select force r).1 =
      (r.records.filter (Subscriber.answers force)).map (·.target) := targets_notify r force
  have hinvoked :=
    keeper.targets_invoke (keeper.select force r).2 (keeper.select force r).1 reactions
  have hlength := congrArg List.length hinvoked
  rw [List.length_map] at hlength
  refine ⟨_, ?_, hinvoked.trans htargets, ?_⟩
  · rw [Keeper.call]
    exact congrArg (RegistryAnswer.notified · _) hlength.symm
  · rw [hinvoked, htargets]
    exact (List.filter_sublist.map _).nodup hr.targets

theorem Mirrors.follows {r : Registry} {roll : Roll} (h : r.Mirrors roll) : r.Follows roll where
  records := h.records
  ids := h.wellFormed.ids
  targets := h.wellFormed.targets
  size := simulates_roll.size r roll h
  refuses t ht := keeper_subscribe_of_holds (mem_targets_iff_holds.mp ht)
  appends t ht := by
    have hfree : r.holds t = false :=
      Bool.eq_false_iff.mpr fun hholds => ht (mem_targets_iff_holds.mpr hholds)
    obtain ⟨r', htaken, hkeeper⟩ := keeper_subscribe_of_not_holds hfree
    exact ⟨r', hkeeper, records_subscribe htaken⟩
  drops id := records_unsubscribe r id
  notifies force reactions := r.notifies h.wellFormed force reactions
  emptied hempty more := by
    have hsame : SameRecords r { issued := r.issued } := ⟨hempty, rfl⟩
    exact (simulates_sameRecords.calls hsame more).1

/-- A registry answers every tree of calls as a roll of its subscriptions does, and goes on with the
records of those that have not ended. -/
theorem follows_roll (calls : List RegistryCall) :
    (keeper.calls {} calls).1 = (Roll.keeper.calls [] calls).1 ∧
      (keeper.calls {} calls).2.Follows (Roll.keeper.calls [] calls).2 := by
  have hbegin : Mirrors {} [] := ⟨rfl, rfl, wellFormed_empty⟩
  obtain ⟨hanswers, hmirrors⟩ := simulates_roll.calls hbegin calls
  exact ⟨hanswers, hmirrors.follows⟩

end Registry

/-! ## Notifications in a session -/

namespace Session

/-- A session selects the targets of a notification before it invokes the first of them. It answers
how many they are, whatever they do. -/
theorem run_notify (notify : Notifier) {name : String} {id : RegistryId} {w : World}
    (hname : w.object? name = some (.registry id)) (force : Bool) :
    (performRegistry notify name (.notify force)).run.run w =
      (.ok { outcome := .ok (.count (Registry.keeper.select force (w.hub.registry id)).1.length) },
        notify ((w.hub.registry id).notify force).1 { w with
          hub := w.hub.setRegistry id (Registry.keeper.select force (w.hub.registry id)).2 }) :=
  run_bind_of_ok (run_find (congrArg (Option.bind · _) hname))

end Session

end LiveSeries
