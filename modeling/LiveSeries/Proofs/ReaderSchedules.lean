import LiveSeries.Proofs.SealedSeries
import LiveSeries.Proofs.WaiterAccounts

/-!
# Readers in any schedule

A reader polls, moves and gives waits up; its functions may fault; and between its steps anything
may happen to the shared state that spares its waiter, also in the midst of a write
(`Reader.Scheduled`). In all that time its account balances, no wait ends because a subscription was
refused, and no waiter is left behind with a subscription (`Reader.account_balances`).
-/

namespace LiveSeries

namespace Hub

/-! ## What others do -/

/-- What can happen to the shared state. Between the halves of a write its targets are invoked, and
act in turn. -/
inductive Incident where
  | deed (d : Deed)
  | commit (id : SourceId) (m : Mutation)
  | leave (id : SourceId)

namespace Incident

/-- The shared state after the incident. -/
def run (h : Hub) : Incident → Hub
  | .deed d => d.run h
  | .commit id m => h.commit id (m.write (h.sources id))
  | .leave id => h.leave id

def Possible (h : Hub) : Incident → Prop
  | .deed d => d.Possible h
  | _ => True

/-- The incident leaves the subscriptions of the waiter and its queue alone. -/
def Spares (w : TargetId) (h : Hub) : Incident → Prop
  | .deed d => d.Spares w h
  | _ => True

end Incident

/-- The hubs that come about, also in the midst of writes. -/
inductive Occurs : Hub → Prop where
  | empty : Occurs {}
  | incident {h : Hub} (i : Incident) : i.Possible h → Occurs h → Occurs (i.run h)

theorem onlyRequests_commit (h : Hub) (id : SourceId) (m : Mutation) (i : SourceId) :
    Registry.OnlyRequests (h.sources i).registry
      ((h.commit id (m.write (h.sources id))).sources i).registry := by
  rw [sources_commit]
  split
  · next hi =>
      rw [hi.1]
      exact Series.onlyRequests_write _ m
  · exact onlyRequests_refl _

theorem onlyRequests_leave (h : Hub) (id i : SourceId) :
    Registry.OnlyRequests (h.sources i).registry ((h.leave id).sources i).registry := by
  rw [leave, sources_setSeries]
  split
  · next hi =>
      rw [hi.1]
      exact onlyRequests_refl _
  · exact onlyRequests_refl _

theorem length_series_incident (h : Hub) (i : Incident) :
    h.series.length ≤ (i.run h).series.length := by
  cases i with
  | deed d => exact h.length_series_deed d
  | commit id m =>
      show _ ≤ (h.commit id (m.write (h.sources id))).series.length
      rw [series_commit]
      exact Nat.le_of_eq List.length_set.symm
  | leave id => exact Nat.le_of_eq List.length_set.symm

theorem WellFormed.incident {h : Hub} (hh : h.WellFormed) {i : Incident} (hi : i.Possible h) :
    (i.run h).WellFormed := by
  cases i with
  | deed d => exact hh.deed hi
  | commit id m =>
      have htargets := h.targets_commit id (m.write (h.sources id))
      exact hh.of_onlyRequests (Nat.le_of_eq (congrArg List.length htargets).symm)
        (h.onlyRequests_commit id m)
  | leave id => exact hh.of_onlyRequests (Nat.le_refl _) (h.onlyRequests_leave id)

theorem Occurs.wellFormed {h : Hub} (hh : h.Occurs) : h.WellFormed := by
  induction hh with
  | empty => exact wellFormed_empty
  | incident i hi _ ih => exact ih.incident hi

/-- An incident that spares a waiter keeps its account. -/
theorem Watching.incident {h : Hub} {w : TargetId} {set : Subscriptions} {i : Incident}
    (hw : h.Watching w set) (hpossible : i.Possible h) (hspares : i.Spares w h) :
    (i.run h).Watching w set := by
  cases i with
  | deed d => exact hw.deed hpossible hspares
  | commit id m =>
      exact
        { wellFormed := hw.wellFormed.incident (i := .commit id m) trivial
          waiter := by
            show (h.commit id (m.write (h.sources id))).HasWaiter w
            rw [HasWaiter, targets_commit]
            exact hw.waiter
          onSeries := hw.onSeries
          mem_iff := fun i n =>
            (hw.mem_iff i n).trans (h.onlyRequests_commit id m i).keeps_iff.symm }
  | leave id =>
      exact
        { wellFormed := hw.wellFormed.incident (i := .leave id) trivial
          waiter := hw.waiter
          onSeries := hw.onSeries
          mem_iff := fun i n => (hw.mem_iff i n).trans (h.onlyRequests_leave id i).keeps_iff.symm }

/-- The target has no subscription on any series. -/
def Forgets (h : Hub) (w : TargetId) : Prop := ∀ id n, ¬ (h.sources id).registry.Keeps n w

end Hub

/-! ## Followers -/

namespace Follower

variable {f : Follower} {h : Hub}

theorem Accounted.incident (hf : f.Accounted h) {i : Hub.Incident} (hpossible : i.Possible h)
    (hspares : i.Spares f.waiter h) : f.Accounted (i.run h) where
  plain := hf.plain
  leaves id hid := Nat.lt_of_lt_of_le (hf.leaves id hid) (h.length_series_incident i)
  watching := hf.watching.incident hpossible hspares
  accounts := hf.accounts

/-- A follower that has no subscriptions in its set has none at all. -/
theorem Accounted.forgets (hf : f.Accounted h) (hnone : f.subscriptions = []) :
    h.Forgets f.waiter := by
  intro id n hn
  have hmem := (hf.watching.mem_iff id n).mpr hn
  rw [hnone] at hmem
  cases hmem

theorem Accounted.forgets_release (hf : f.Accounted h) : (f.release h).2.Forgets f.waiter :=
  hf.release.accounted.forgets rfl

/-- A follower with a waiter of its own. -/
theorem accounted_newTarget {c : Cursor} (hh : h.WellFormed) (hplain : c.tree.Plain)
    (hleaves : ∀ id ∈ c.tree.leaves, id < h.series.length) :
    ({ cursor := c, waiter := (h.newTarget (.waiter {})).1 } : Follower).Accounted
      (h.newTarget (.waiter {})).2 :=
  ⟨hplain, hleaves, hh.watching_newTarget, .inl rfl⟩

theorem accounted_make {c : Cursor} (hh : h.WellFormed) (hplain : c.tree.Plain)
    (hleaves : ∀ id ∈ c.tree.leaves, id < h.series.length) :
    (Follower.make h c).1.Accounted (Follower.make h c).2 := by
  simp only [Follower.make]
  split
  · exact accounted_newTarget hh hplain hleaves
  · exact accounted_newTarget (c := c.fresh h.sources) hh hplain hleaves

/-- The account of a follower as others see it: its set has one subscription on each series of its
tree, or none at all, and these are all that its waiter has. So each registry has the records of
the others, and at most one more. -/
structure Balanced (f : Follower) (h : Hub) : Prop where
  set : f.subscriptions = [] ∨ f.cursor.tree.Accounts f.subscriptions
  mem_iff : ∀ id n,
    (⟨.ofSeries id, n⟩ : Subscription) ∈ f.subscriptions ↔ (h.sources id).registry.Keeps n f.waiter
  size : ∀ id, (h.sources id).registry.size = ((h.sources id).registry.others f.waiter).length +
    (f.subscriptions.any fun s => s.registry == .ofSeries id).toNat

theorem Accounted.balanced (hf : f.Accounted h) : f.Balanced h where
  set := hf.accounts
  mem_iff := hf.watching.mem_iff
  size id := by
    have hholds : (h.sources id).registry.holds f.waiter =
        f.subscriptions.any fun s => s.registry == .ofSeries id := by
      rw [Bool.eq_iff_iff, Registry.holds_iff, Subscriptions.covers_iff_any]
      exact exists_congr fun n => (hf.watching.mem_iff id n).symm
    rw [Registry.size_eq (hf.watching.wellFormed.registries id) f.waiter, hholds]

end Follower

/-! ## Readers -/

namespace Reader

/-- The readers that come about in any schedule, with the shared state around them. A reader is made
over series that exist, and anything may happen that spares its waiter. It polls, whatever comes of
it; a fault leaves of a wait what an entry does. It is moved and given other positions while it
rests, and gives waits up. -/
inductive Scheduled (r : Reading) : Reader → Hub → Prop where
  | make {h : Hub} {c : Cursor} : h.Occurs → c.tree.Plain →
      (∀ id ∈ c.tree.leaves, id < h.series.length) →
      Scheduled r (.resting (Follower.make h c).1) (Follower.make h c).2
  | incident {reader : Reader} {h : Hub} (i : Hub.Incident) : i.Possible h →
      i.Spares reader.follower.waiter h → Scheduled r reader h → Scheduled r reader (i.run h)
  | poll {reader : Reader} {h : Hub} (token : Nat) {p : Progress} :
      (reader.poll r token h).answer.outcome = .ok p → Scheduled r reader h →
      Scheduled r (r.settle (reader.poll r token h) p).1 (r.settle (reader.poll r token h) p).2
  | fault {reader : Reader} {h : Hub} (token : Nat) {e : Fault} :
      (reader.poll r token h).answer.outcome = .error e → Scheduled r reader h →
      Scheduled r
        (.resting (r.finish true (reader.poll r token h).follower (reader.poll r token h).hub).1)
        (r.finish true (reader.poll r token h).follower (reader.poll r token h).hub).2
  | turn {f : Follower} {h : Hub} {c : Cursor} : c.tree = f.cursor.tree →
      Scheduled r (.resting f) h → Scheduled r (.resting { f with cursor := c }) h
  | abandon {s : Sleeper} {h : Hub} : Scheduled r (.asleep s) h →
      Scheduled r (.resting (r.abandon s h).1) (r.abandon s h).2

/-- The account of a reader balances. One that keeps nothing but its cursor has no subscriptions
while it rests. -/
structure Accounted (r : Reading) (reader : Reader) (h : Hub) : Prop where
  follower : reader.follower.Accounted h
  resting : r = .once → ∀ f, reader = .resting f → f.subscriptions = []

variable {r : Reading} {reader : Reader} {h : Hub}

/-- However a poll ended, it left an account that balances, all other targets alone, and was not
refused. -/
structure Settled (a : Attempt Progress) (h : Hub) : Prop where
  accounted : a.follower.Accounted a.hub
  others : h.SameOthers a.hub a.follower.waiter
  unrefused : ∀ e, a.answer.outcome ≠ .ok (.ended (.error (.subscribe e)))
  asleep : ∀ s, a.answer.outcome = .ok (.asleep s) → s.follower = a.follower

theorem settled_of_accounted {a : Attempt Progress} {f : Follower} {h' : Hub}
    (ha : a.Accounted f h') (hsame : h'.series = h.series) : Settled a h where
  accounted := ha.stays.accounted
  others := by
    rw [ha.stays.waiter]
    exact (Hub.sameOthers_of_series hsame).trans ha.stays.others
  unrefused := ha.unrefused
  asleep := ha.asleep

theorem Accounted.poll (hr : Accounted r reader h) (token : Nat) :
    Settled (reader.poll r token h) h := by
  cases reader with
  | asleep s => exact settled_of_accounted (s.accounted_poll hr.follower) rfl
  | resting f =>
      cases r with
      | lasting => exact settled_of_accounted (Follower.Accounted.start hr.follower token) rfl
      | once =>
          -- the wait has a new waiter, that nobody knows yet
          have hwell := hr.follower.watching.wellFormed
          have hnew := Follower.accounted_newTarget hwell hr.follower.plain hr.follower.leaves
          exact settled_of_accounted (hnew.start token) rfl

/-- What remains of a wait: the subscriptions of one that found an entry, if the reader keeps
them. -/
theorem accounted_finish {f : Follower} (hf : f.Accounted h) (r : Reading) (landed : Bool) :
    Follower.Stays f h (r.finish landed f h).1 (r.finish landed f h).2 ∧
      (r = .once ∨ landed = false → (r.finish landed f h).1.subscriptions = []) := by
  unfold Reading.finish
  split
  · next hkept =>
      refine ⟨hf.stays, ?_⟩
      rintro (rfl | rfl)
      · cases hkept.1
      · cases hkept.2
  · exact ⟨hf.release, fun _ => rfl⟩

/-- A reader that rests after a wait. -/
theorem accounted_resting_finish {f : Follower} (hf : f.Accounted h) (r : Reading) (landed : Bool) :
    Accounted r (.resting (r.finish landed f h).1) (r.finish landed f h).2 where
  follower := (accounted_finish hf r landed).1.accounted
  resting := by
    rintro honce _ ⟨⟩
    exact (accounted_finish hf r landed).2 (.inl honce)

theorem accounted_abandon {s : Sleeper} (hs : s.follower.Accounted h) (r : Reading) :
    Accounted r (.resting (r.abandon s h).1) (r.abandon s h).2 := by
  have hleft := s.accounted_leave hs
  cases r with
  | lasting => exact ⟨hleft.accounted, nofun⟩
  | once =>
      refine ⟨hleft.accounted.release.accounted, ?_⟩
      rintro - _ ⟨⟩
      rfl

theorem Settled.settle {a : Attempt Progress} (ha : Settled a h) {p : Progress}
    (hp : a.answer.outcome = .ok p) : Accounted r (r.settle a p).1 (r.settle a p).2 := by
  cases p with
  | ended answer => exact accounted_resting_finish ha.accounted r _
  | asleep s =>
      refine ⟨?_, nofun⟩
      show s.follower.Accounted a.hub
      rw [ha.asleep s hp]
      exact ha.accounted

theorem Settled.others_settle {a : Attempt Progress} (ha : Settled a h) (p : Progress) :
    h.SameOthers (r.settle a p).2 a.follower.waiter := by
  cases p with
  | ended answer => exact ha.others.trans (accounted_finish ha.accounted r _).1.others
  | asleep s => exact ha.others

theorem others_abandon {s : Sleeper} (hs : s.follower.Accounted h) (r : Reading) :
    h.SameOthers (r.abandon s h).2 s.follower.waiter := by
  have hleft := s.accounted_leave hs
  cases r with
  | lasting => exact hleft.others
  | once => exact hleft.others.trans hleft.accounted.release.others

/-- The invariant of all schedules. -/
theorem accounted_of_scheduled (hs : Scheduled r reader h) : Accounted r reader h := by
  induction hs with
  | make hh hplain hleaves =>
      refine ⟨Follower.accounted_make hh.wellFormed hplain hleaves, ?_⟩
      rintro - _ ⟨⟩
      rfl
  | incident i hpossible hspares _ ih =>
      exact ⟨ih.follower.incident hpossible hspares, ih.resting⟩
  | poll token hp _ ih => exact (ih.poll token).settle hp
  | fault token _ _ ih => exact accounted_resting_finish (ih.poll token).accounted r true
  | @turn f h c hc _ ih =>
      refine ⟨(Follower.Accounted.turn ih.follower hc).accounted, ?_⟩
      rintro honce _ ⟨⟩
      exact ih.resting honce f rfl
  | abandon _ ih => exact accounted_abandon ih.follower r

/-- The object that a session drops with the reader. -/
def dropped : Reader → Object
  | .resting f => .follower f
  | .asleep s => .sleeping s

theorem Accounted.discard (hr : Accounted r reader h) :
    h.SameOthers (World.discard h reader.dropped) reader.follower.waiter ∧
      (World.discard h reader.dropped).Forgets reader.follower.waiter := by
  cases reader with
  | resting f => exact ⟨hr.follower.release.others, Follower.Accounted.forgets_release hr.follower⟩
  | asleep s =>
      have hleft := s.accounted_leave hr.follower
      exact ⟨hleft.others.trans hleft.accounted.release.others, hleft.accounted.forgets_release⟩

/-- A wait that is over leaves its waiter without subscriptions, unless the reader keeps those of a
wait that found an entry. -/
theorem Settled.forgets {a : Attempt Progress} (ha : Settled a h) {answer : Except WaitError Bool}
    (hover : r = .once ∨ answer ≠ .ok true) :
    (r.settle a (.ended answer)).2.Forgets a.follower.waiter := by
  have hfinish : ∀ landed, r = .once ∨ landed = false →
      (r.finish landed a.follower a.hub).2.Forgets a.follower.waiter := by
    intro landed hnone
    obtain ⟨hstays, hempty⟩ := accounted_finish ha.accounted r landed
    exact hstays.waiter ▸ hstays.accounted.forgets (hempty hnone)
  match answer with
  | .error _ => exact hfinish false (.inr rfl)
  | .ok false => exact hfinish false (.inr rfl)
  | .ok true => exact hfinish true (.inl (hover.resolve_right fun hne => hne rfl))

/-- In any schedule the account of a reader balances. No wait ends because a subscription was
refused. A wait that is over leaves its waiter without a subscription, unless the reader keeps its
subscriptions and found an entry; so does one that faults, when it is lost, and one that is given up
by a reader that keeps nothing else. And so does a reader that is dropped or unwrapped. In none of
this are the records of other targets touched. -/
theorem account_balances (hs : Scheduled r reader h) :
    reader.follower.Balanced h ∧
    (∀ token,
      (∀ e, (reader.poll r token h).answer.outcome ≠ .ok (.ended (.error (.subscribe e)))) ∧
      (∀ p, (reader.poll r token h).answer.outcome = .ok p →
        h.SameOthers (r.settle (reader.poll r token h) p).2
          (reader.poll r token h).follower.waiter) ∧
      (∀ answer, (reader.poll r token h).answer.outcome = .ok (.ended answer) →
        r = .once ∨ answer ≠ .ok true →
        (r.settle (reader.poll r token h) (.ended answer)).2.Forgets
          (reader.poll r token h).follower.waiter) ∧
      ∀ e, (reader.poll r token h).answer.outcome = .error e →
        h.SameOthers (reader.poll r token h).hub (reader.poll r token h).follower.waiter ∧
          ((reader.poll r token h).follower.release (reader.poll r token h).hub).2.Forgets
            (reader.poll r token h).follower.waiter) ∧
    (∀ s, reader = .asleep s → h.SameOthers (r.abandon s h).2 s.follower.waiter ∧
      (r = .once → (r.abandon s h).2.Forgets s.follower.waiter)) ∧
    (r = .once → ∀ f, reader = .resting f → h.Forgets f.waiter) ∧
    h.SameOthers (World.discard h reader.dropped) reader.follower.waiter ∧
    (World.discard h reader.dropped).Forgets reader.follower.waiter := by
  have hr := accounted_of_scheduled hs
  refine ⟨hr.follower.balanced, fun token => ?_, ?_, ?_, hr.discard⟩
  · have ha := hr.poll token
    exact ⟨ha.unrefused, fun p _ => ha.others_settle p, fun _ _ hover => ha.forgets hover,
      fun _ _ => ⟨ha.others, ha.accounted.forgets_release⟩⟩
  · rintro s rfl
    refine ⟨others_abandon hr.follower r, ?_⟩
    rintro rfl
    exact (s.accounted_leave hr.follower).accounted.forgets_release
  · rintro honce f rfl
    exact hr.follower.forgets (hr.resting honce f rfl)

/-! A follower reads the same series twice. It falls asleep over it, and is dropped in the midst of a
write. -/

/-- A cursor over pairs of the values of one series. -/
def twinCursor : Cursor := (Cursor.ofSeries 0).zip oneSeries.sources (Cursor.ofSeries 0)

/-- Its follower makes a first attempt. -/
def twinAttempt : Attempt Progress :=
  (resting (Follower.make oneSeries twinCursor).1).poll .lasting 0
    (Follower.make oneSeries twinCursor).2

/-- The follower asleep. -/
def twinSleeper : Sleeper := ⟨twinAttempt.follower, 0, 0⟩

/-- An entry is written, and the writer has not left yet. -/
def twinHub : Hub := Hub.Incident.run twinAttempt.hub (.commit 0 (.set (.int 1) (.int 10)))

theorem account_balances_twins :
    twinSleeper.follower.subscriptions = [⟨.ofSeries 0, 0⟩] ∧
      twinSleeper.follower.Balanced twinHub ∧
      (World.discard twinHub (.sleeping twinSleeper)).Forgets twinSleeper.follower.waiter := by
  have hmade : Scheduled .lasting (.resting (Follower.make oneSeries twinCursor).1)
      (Follower.make oneSeries twinCursor).2 :=
    .make (.incident (.deed (.newSeries {})) rfl .empty) ⟨trivial, trivial⟩ (by decide)
  have hasleep : twinAttempt.answer.outcome = .ok (.asleep twinSleeper) := rfl
  have hwritten : Scheduled .lasting (.asleep twinSleeper) twinHub :=
    .incident (.commit 0 (.set (.int 1) (.int 10))) trivial trivial (.poll 0 hasleep hmade)
  obtain ⟨hbalanced, -, -, -, -, hforgets⟩ := account_balances hwritten
  exact ⟨rfl, hbalanced, hforgets⟩

end Reader

end LiveSeries
