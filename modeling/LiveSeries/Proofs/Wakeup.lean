import LiveSeries.Proofs.FollowerAttempts
import LiveSeries.Proofs.HubDeeds

/-!
# No wakeup is lost

A reader waits with a cursor for one entry after the other. It keeps its waiter and its
subscriptions from one wait to the next, or it makes them anew for every wait (`Reading`). Between
its polls anything may happen to the shared state, and a wait may be given up.

What comes of a poll is told by the state in which it is made, in every reachable state
(`Reader.poll_settles`): a reader looks at its sources again only when it was woken, and still no
poll misses an entry, an end or a cancellation. The invariant is `Reader.Valid`: a reader asleep
was woken, or it has nothing to see and a request on every source.
-/

namespace LiveSeries

/-- What a reader keeps between two waits. -/
inductive Reading where
  /-- Its waiter; and its subscriptions, after a wait that found an entry. -/
  | lasting
  /-- Nothing but its cursor. -/
  | once
  deriving DecidableEq

/-- A reader between two polls. -/
inductive Reader where
  | resting (f : Follower)
  | asleep (s : Sleeper)

namespace Reading

/-- The follower of a new wait. -/
def prepare (r : Reading) (f : Follower) (h : Hub) : Follower × Hub :=
  match r with
  | .lasting => (f, h)
  | .once =>
    let (waiter, h) := h.newTarget (.waiter {})
    ({ cursor := f.cursor, waiter := waiter }, h)

/-- The first poll of a wait. -/
def start (r : Reading) (f : Follower) (token : Nat) (h : Hub) : Attempt Progress :=
  (r.prepare f h).1.start token (r.prepare f h).2

/-- What remains of a wait that is over. -/
def finish (r : Reading) (landed : Bool) (f : Follower) (h : Hub) : Follower × Hub :=
  if r = .lasting ∧ landed = true then (f, h) else f.release h

/-- What remains of a wait that is given up. -/
def abandon (r : Reading) (s : Sleeper) (h : Hub) : Follower × Hub :=
  match r with
  | .lasting => (s.follower, s.leave h)
  | .once => s.follower.release (s.leave h)

/-- The reader after a poll that did not fault. -/
def settle (r : Reading) (a : Attempt Progress) : Progress → Reader × Hub
  | .asleep s => (.asleep s, a.hub)
  | .ended answer =>
    let (f, h) := r.finish (answer matches .ok true) a.follower a.hub
    (.resting f, h)

end Reading

namespace Reader

/-- The follower of a reader. -/
def follower : Reader → Follower
  | .resting f => f
  | .asleep s => s.follower

/-- The token of the wait that a poll belongs to: a new wait has a new one. -/
def token (fresh : Nat) : Reader → Nat
  | .resting _ => fresh
  | .asleep s => s.token

/-- Polls the wait of a reader, or begins a new one. -/
def poll (r : Reading) (token : Nat) (h : Hub) : Reader → Attempt Progress
  | .resting f => r.start f token h
  | .asleep s => s.poll h

/-- The readers that come about, with the shared state around them. A reader is made over series
that exist, and anything may happen that spares its waiter. It polls while no function of its tree
faults, moves while it rests, and gives waits up. -/
inductive Reachable (r : Reading) : Reader → Hub → Prop where
  | make {h : Hub} {c : Cursor} : h.Arises → c.Reachable → c.tree.Plain →
      (∀ id ∈ c.tree.leaves, id < h.series.length) →
      Reachable r (.resting (Follower.make h c).1) (Follower.make h c).2
  | deed {reader : Reader} {h : Hub} (d : Hub.Deed) : d.Possible h →
      d.Spares reader.follower.waiter h → Reachable r reader h → Reachable r reader (d.run h)
  | poll {reader : Reader} {h : Hub} (token : Nat) {p : Progress} :
      reader.follower.cursor.tree.Total h.sources →
      (reader.poll r token h).answer.outcome = .ok p → Reachable r reader h →
      Reachable r (r.settle (reader.poll r token h) p).1 (r.settle (reader.poll r token h) p).2
  | move {f : Follower} {h : Hub} (m : Motion) : Reachable r (.resting f) h →
      Reachable r (.resting { f with cursor := (f.cursor.move h.sources m).1 }) h
  | abandon {s : Sleeper} {h : Hub} : Reachable r (.asleep s) h →
      Reachable r (.resting (r.abandon s h).1) (r.abandon s h).2

end Reader

/-! ## What a follower needs stays -/

namespace Follower

variable {f : Follower} {h : Hub} {d : Hub.Deed}

theorem Placed.deed (hp : f.Placed h) (hpossible : d.Possible h) (hspares : d.Spares f.waiter h) :
    f.Placed (d.run h) where
  reachable := hp.reachable
  plain := hp.plain
  ready := by
    rw [f.cursor.state_eq h.sources]
    exact hp.ready
  leaves id hid := Nat.lt_of_lt_of_le (hp.leaves id hid) (h.length_series_deed d)
  watching := hp.watching.deed hpossible hspares
  covers := hp.covers

theorem Resting.deed (hr : f.Resting h) (hpossible : d.Possible h)
    (hspares : d.Spares f.waiter h) : f.Resting (d.run h) where
  placed := hr.placed.deed hpossible hspares
  idle := by
    obtain ⟨n, hn, -⟩ := Hub.wakes_or_leaves hr.placed.watching.waiter hspares
    rw [hn]
    exact hr.idle.iterate_wake n

theorem Resting.release (hr : f.Resting h) : (f.release h).1.Resting (f.release h).2 where
  placed := hr.placed.of_sameData (h.sameData_unsubscribeAll f.subscriptions)
    hr.placed.watching.unsubscribeAll (.inl rfl)
  idle := by
    show ((h.unsubscribeAll f.subscriptions).waiter f.waiter).Idle
    rw [(h.sameData_unsubscribeAll f.subscriptions).waiter_eq]
    exact hr.idle

/-- A follower with a new waiter may start. -/
theorem resting_newTarget {c : Cursor} (hh : h.WellFormed) (hc : c.Reachable)
    (hplain : c.tree.Plain) (hready : (c.state h.sources).isReady = true)
    (hleaves : ∀ id ∈ c.tree.leaves, id < h.series.length) :
    ({ cursor := c, waiter := (h.newTarget (.waiter {})).1 } : Follower).Resting
      (h.newTarget (.waiter {})).2 := by
  have hwaiter : (h.newTarget (.waiter {})).2.targets[h.targets.length]? = some (.waiter {}) := by
    simp [Hub.newTarget]
  refine ⟨⟨hc, hplain, hready, hleaves, hh.watching_newTarget, .inl rfl⟩, ?_⟩
  · show ((h.newTarget (.waiter {})).2.waiter h.targets.length).Idle
    rw [Hub.waiter, hwaiter]
    exact ⟨rfl, rfl⟩

end Follower

namespace Sleeper

variable {s : Sleeper} {h : Hub} {d : Hub.Deed}

/-- A deed that does not wake a sleeper has changed nothing that it could see, and used up none
of its requests. -/
theorem Valid.deed (hs : s.Valid h) (hpossible : d.Possible h)
    (hspares : d.Spares s.follower.waiter h) : s.Valid (d.run h) where
  placed := hs.placed.deed hpossible hspares
  awake := by
    obtain ⟨n, hn, hleaves⟩ := Hub.wakes_or_leaves hs.placed.watching.waiter hspares
    rw [hn]
    rcases hs.awake with hstirs | ⟨hsleeps, hstuck, hincomplete, hasked⟩
    · exact .inl (hstirs.iterate_wake n)
    · by_cases hzero : n = 0
      · -- it sleeps on: what it saw is as it was, and so are its requests
        right
        have hsame : ∀ id ∈ s.follower.cursor.tree.leaves,
            h.Leaves (d.run h) s.follower.waiter id := fun id hid =>
          hleaves hzero id (hs.placed.leaves id hid) (hasked id hid)
        have hbehaviour : s.follower.cursor.behaviour (d.run h).sources =
            s.follower.cursor.behaviour h.sources :=
          Tree.behaviour_congr fun id hid => ⟨(hsame id hid).store, (hsame id hid).completed⟩
        refine ⟨?_, hstuck.congr hbehaviour, ?_, fun id hid => (hsame id hid).asks⟩
        · rw [hzero]
          exact hsleeps
        · rw [Cursor.isCompleted, hbehaviour]
          exact hincomplete
      · exact .inl (hsleeps.iterate_wake hzero)

end Sleeper

/-! ## The invariant of readers -/

namespace Reader

/-- A reader that rests may start. A reader asleep was woken, or it has nothing to see and a
request on every source. -/
def Valid : Reader → Hub → Prop
  | .resting f, h => f.Resting h
  | .asleep s, h => s.Valid h

variable {r : Reading}

theorem resting_make {h : Hub} {c : Cursor} (hh : h.Arises) (hc : c.Reachable)
    (hplain : c.tree.Plain) (hleaves : ∀ id ∈ c.tree.leaves, id < h.series.length) :
    (Follower.make h c).1.Resting (Follower.make h c).2 := by
  simp only [Follower.make]
  split
  · next hready => exact Follower.resting_newTarget hh.wellFormed hc hplain hready hleaves
  · have hready : ((c.fresh h.sources).state h.sources).isReady = true := by
      show ((c.tree.behaviour h.sources).state (c.tree.behaviour h.sources).fresh).isReady = true
      rw [(c.tree.steady h.sources).fresh_state]
      rfl
    exact Follower.resting_newTarget (c := c.fresh h.sources) hh.wellFormed (.fresh h.sources hc)
      hplain hready hleaves

theorem resting_prepare {f : Follower} {h : Hub} (hr : f.Resting h) :
    (r.prepare f h).1.Resting (r.prepare f h).2 := by
  cases r with
  | lasting => exact hr
  | once =>
      exact Follower.resting_newTarget hr.placed.watching.wellFormed hr.placed.reachable
        hr.placed.plain hr.placed.ready hr.placed.leaves

/-- A new waiter is nothing that an attempt could see. -/
theorem settles_prepare {f : Follower} {h : Hub} {a : Attempt Progress} {token : Nat}
    {c : Cursor} (ha : a.Settles (r.prepare f h).2 token c) : a.Settles h token c := by
  cases r with
  | lasting => exact ha
  | once => exact ⟨ha.cancelled, ha.landed, ha.completed, ha.pending⟩

theorem resting_finish {f : Follower} {h : Hub} (hr : f.Resting h) {landed : Bool} :
    (r.finish landed f h).1.Resting (r.finish landed f h).2 := by
  unfold Reading.finish
  split
  · exact hr
  · exact hr.release

theorem valid_settle {a : Attempt Progress} (ha : a.Valid) {p : Progress}
    (hp : a.answer.outcome = .ok p) : (r.settle a p).1.Valid (r.settle a p).2 := by
  rcases ha with ⟨answer, hanswer, hresting⟩ | ⟨s, hs, hvalid⟩
  · rw [hanswer] at hp
    cases hp
    exact resting_finish hresting
  · rw [hs] at hp
    cases hp
    exact hvalid

/-- What came of a poll is told by the state in which it was made, and the poll keeps the
invariant. -/
theorem Valid.poll {reader : Reader} {h : Hub} (hvalid : reader.Valid h)
    (htotal : reader.follower.cursor.tree.Total h.sources) (token : Nat) :
    (reader.poll r token h).Settles h (reader.token token) reader.follower.cursor ∧
      (reader.poll r token h).Valid := by
  cases reader with
  | resting f =>
      have hcursor : (r.prepare f h).1.cursor = f.cursor := by cases r <;> rfl
      have hsources : (r.prepare f h).2.sources = h.sources := by cases r <;> rfl
      have htotal' : (r.prepare f h).1.cursor.tree.Total (r.prepare f h).2.sources := by
        rw [hcursor, hsources]
        exact htotal
      obtain ⟨hsettles, hattempt⟩ :=
        Follower.settles_start token (resting_prepare (r := r) hvalid) htotal'
      rw [hcursor] at hsettles
      exact ⟨settles_prepare hsettles, hattempt⟩
  | asleep s => exact Sleeper.settles_poll hvalid htotal

theorem valid_of_reachable {reader : Reader} {h : Hub} (hreach : Reachable r reader h) :
    reader.Valid h := by
  induction hreach with
  | make hh hc hplain hleaves => exact resting_make hh hc hplain hleaves
  | @deed reader h d hpossible hspares _ ih =>
      cases reader with
      | resting f => exact Follower.Resting.deed ih hpossible hspares
      | asleep s => exact Sleeper.Valid.deed ih hpossible hspares
  | poll token htotal hp _ ih => exact valid_settle (ih.poll htotal token).2 hp
  | @move f h m _ ih => exact Follower.Resting.move ih h.sources m
  | @abandon s h _ ih =>
      cases r with
      | lasting => exact Sleeper.Valid.leave ih
      | once => exact (Sleeper.Valid.leave ih).release

/-- In every reachable state, what comes of a poll is told by that state: a cancellation, the next
entry, the end of all sources, or none of them; and then one record on each source will wake the
reader. -/
theorem poll_settles {reader : Reader} {h : Hub} (hreach : Reachable r reader h)
    (htotal : reader.follower.cursor.tree.Total h.sources) (token : Nat) :
    (reader.poll r token h).Settles h (reader.token token) reader.follower.cursor :=
  ((valid_of_reachable hreach).poll htotal token).1

/-! A reader falls asleep over one empty series, and the key 1 is stored there. -/

/-- A hub with one empty series. -/
def oneSeries : Hub := Hub.Deed.run {} (.newSeries {})

/-- The reader of the series, asleep after its first poll. -/
def sleeper : Sleeper where
  follower :=
    { cursor := .ofSeries 0
      waiter := 0
      subscriptions := [⟨.ofSeries 0, 0⟩] }
  token := 0
  ticket := 0

/-- The hub after the first poll. -/
def hubAsleep : Hub :=
  (poll .lasting 0 (Follower.make oneSeries (.ofSeries 0)).2
    (.resting (Follower.make oneSeries (.ofSeries 0)).1)).hub

/-- The hub after the key was stored. -/
def hubStored : Hub := Hub.Deed.run hubAsleep (.change 0 (.set (.int 1) (.int 10)))

theorem poll_settles_after_set :
    (poll .lasting 0 hubStored (.asleep sleeper)).Settles hubStored 0 (.ofSeries 0) ∧
      (poll .lasting 0 hubStored (.asleep sleeper)).answer.outcome = .ok (.ended (.ok true)) := by
  have hmade : Reachable .lasting (.resting (Follower.make oneSeries (.ofSeries 0)).1)
      (Follower.make oneSeries (.ofSeries 0)).2 :=
    .make (.deed _ rfl .empty) (.ofSeries 0) trivial (by decide)
  have hasleep : Reachable .lasting (.asleep sleeper) hubAsleep :=
    .poll 0 (p := .asleep sleeper) (by trivial) (by rfl) hmade
  have hstored : Reachable .lasting (.asleep sleeper) hubStored :=
    .deed _ trivial trivial hasleep
  have hsettles := poll_settles hstored trivial 0
  exact ⟨hsettles, (hsettles.landed rfl rfl).1⟩

end Reader

end LiveSeries
