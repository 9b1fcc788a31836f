import LiveSeries.Follower
import LiveSeries.Proofs.CursorMoves
import LiveSeries.Proofs.HubSubscriptions

/-!
# The rounds of a follower

One round of a follower tries to move, watches its sources, and tries again. A follower that is
cancelled says so in the first try; else it goes where its cursor goes next, or ends with its
sources, or comes through the round with each of its sources asked for a notification
(`Follower.round_of_stuck`).

The state that matters is the entries and the completion of the sources, the token, and the
cursor (`Tree.behaviour_congr`). Nothing that a follower does to registries and to its waiter
shows there.
-/

namespace LiveSeries

/-! ## What a cursor reads -/

theorem Behaviour.ofSeries_congr {s s' : Series} (hstore : s'.store = s.store)
    (hcompleted : s'.isCompleted = s.isCompleted) :
    Behaviour.ofSeries s' = Behaviour.ofSeries s := by
  have hread : ∀ {α : Type} (f : Store → α), s'.read f = s.read f := by
    intro α f
    rw [Series.read_eq, Series.read_eq, hstore]
  have hdestination : Behaviour.destination s' = Behaviour.destination s := by
    funext m from?
    rw [Behaviour.destination_eq_target, Behaviour.destination_eq_target, hstore]
  simp only [Behaviour.ofSeries, Series.get?, Series.find?, Series.size, hread, hdestination,
    hcompleted]

namespace Tree

/-- A cursor sees the entries of its sources and their completion, and nothing else of them. -/
theorem behaviour_congr {sources sources' : Sources} {t : Tree}
    (h : ∀ id ∈ t.leaves, (sources' id).store = (sources id).store ∧
      (sources' id).isCompleted = (sources id).isCompleted) :
    t.behaviour sources' = t.behaviour sources := by
  induction t with
  | series id =>
      obtain ⟨hstore, hcompleted⟩ := h id (List.mem_singleton_self id)
      exact Behaviour.ofSeries_congr hstore hcompleted
  | op t o ih => rw [behaviour, behaviour, ih h]
  | map t f ih => rw [behaviour, behaviour, ih h]
  | zip l r ihl ihr =>
      rw [behaviour, behaviour, ihl fun id hid => h id (List.mem_append_left _ hid),
        ihr fun id hid => h id (List.mem_append_right _ hid)]
  | carry t ih => rw [behaviour, behaviour, ih h]
  | fill t otherwise ih => rw [behaviour, behaviour, ih h]
  | refuse t ih => rw [behaviour, behaviour, ih h]

/-- A cursor is complete once all of its sources are. -/
theorem completed_behaviour (sources : Sources) (t : Tree) :
    (t.behaviour sources).completed = true ↔ ∀ id ∈ t.leaves, (sources id).isCompleted = true := by
  induction t with
  | series id => simp [behaviour, Behaviour.ofSeries, leaves]
  | op t o ih => exact ih
  | map t f ih => exact ih
  | zip l r ihl ihr =>
      show ((l.behaviour sources).completed && (r.behaviour sources).completed) = true ↔ _
      rw [Bool.and_eq_true, ihl, ihr, leaves, List.forall_mem_append]
  | carry t ih => exact ih
  | fill t otherwise ih => exact ih
  | refuse t ih => exact ih

end Tree

/-! ## One waiter -/

namespace Waiter

/-- Nobody waits. -/
def Idle (x : Waiter) : Prop := x.queue = [] ∧ x.woken = []

/-- One wait, and it was not woken yet. -/
def Sleeps (x : Waiter) (ticket : Nat) : Prop := x.queue = [ticket] ∧ x.woken = []

/-- One wait, and it was woken. -/
def Stirs (x : Waiter) (ticket : Nat) : Prop := x.queue = [] ∧ x.woken = [ticket]

theorem Idle.wake {x : Waiter} (h : x.Idle) : x.wake.Idle := by
  unfold Waiter.wake
  rw [h.1]
  exact ⟨rfl, h.2⟩

theorem Stirs.wake {x : Waiter} {ticket : Nat} (h : x.Stirs ticket) : x.wake.Stirs ticket := by
  unfold Waiter.wake
  rw [h.1]
  exact ⟨rfl, h.2⟩

theorem Sleeps.wake {x : Waiter} {ticket : Nat} (h : x.Sleeps ticket) : x.wake.Stirs ticket := by
  unfold Waiter.wake
  rw [h.1]
  exact ⟨rfl, congrArg (ticket :: ·) h.2⟩

theorem Idle.iterate_wake {x : Waiter} (h : x.Idle) (n : Nat) : (Waiter.wake^[n] x).Idle := by
  induction n generalizing x with
  | zero => exact h
  | succ n ih => exact ih h.wake

theorem Stirs.iterate_wake {x : Waiter} {ticket : Nat} (h : x.Stirs ticket) (n : Nat) :
    (Waiter.wake^[n] x).Stirs ticket := by
  induction n generalizing x with
  | zero => exact h
  | succ n ih => exact ih h.wake

/-- A wait that sleeps is woken by the first wake, and no later one is lost on it. -/
theorem Sleeps.iterate_wake {x : Waiter} {ticket n : Nat} (h : x.Sleeps ticket) (hn : n ≠ 0) :
    (Waiter.wake^[n] x).Stirs ticket := by
  cases n with
  | zero => exact absurd rfl hn
  | succ n => exact h.wake.iterate_wake n

theorem Idle.takePermit {x : Waiter} (h : x.Idle) : x.takePermit.Idle := h

theorem Idle.queueUp {x : Waiter} (h : x.Idle) : x.queueUp.2.Sleeps x.queueUp.1 := by
  refine ⟨?_, h.2⟩
  show x.queue ++ [x.issued] = [x.issued]
  rw [h.1]
  rfl

theorem Stirs.poll {x : Waiter} {ticket : Nat} (h : x.Stirs ticket) :
    (x.poll ticket).1 = true ∧ (x.poll ticket).2.Idle := by
  have hwoken : x.isWoken ticket = true := by simp [isWoken, h.2]
  rw [Waiter.poll, if_pos hwoken]
  exact ⟨rfl, h.1, by simp [h.2]⟩

theorem Sleeps.poll {x : Waiter} {ticket : Nat} (h : x.Sleeps ticket) :
    x.poll ticket = (false, x) := by
  have hwoken : x.isWoken ticket = false := by simp [isWoken, h.2]
  rw [Waiter.poll, if_neg (by rw [hwoken]; exact Bool.false_ne_true)]

theorem Sleeps.leave {x : Waiter} {ticket : Nat} (h : x.Sleeps ticket) : (x.leave ticket).Idle := by
  have hwoken : x.isWoken ticket = false := by simp [isWoken, h.2]
  rw [Waiter.leave, if_neg (by rw [hwoken]; exact Bool.false_ne_true)]
  exact ⟨by simp [h.1], h.2⟩

theorem Stirs.leave {x : Waiter} {ticket : Nat} (h : x.Stirs ticket) : (x.leave ticket).Idle := by
  have hwoken : x.isWoken ticket = true := by simp [isWoken, h.2]
  rw [Waiter.leave, if_pos hwoken]
  exact Idle.wake ⟨h.1, by simp [h.2]⟩

end Waiter

namespace Cursor

variable (sources : Sources)

/-- There is no next entry now. -/
def Stuck (c : Cursor) : Prop :=
  (c.move sources .next).2.outcome = .ok false ∧ (c.move sources .next).1 = c

/-- A ready cursor has a next entry, or is stuck. -/
theorem landed_or_stuck {c : Cursor} (hc : c.Reachable) (hready : (c.state sources).isReady = true)
    (htotal : c.tree.Total sources) :
    (c.move sources .next).2.outcome = .ok true ∨ c.Stuck sources := by
  have hwalks := (Tree.answers sources htotal).walks
  have hsound := sound_of_reachable hc
  cases htarget : Motion.next.target (c.tree.entries sources) (c.standpoint sources) with
  | some e => exact .inl (hwalks.lands .next c.position e hsound hready htarget).1
  | none =>
      obtain ⟨hlanded, hstays⟩ := hwalks.stays .next c.position hsound hready htarget
      exact .inr ⟨hlanded, congrArg c.standing hstays⟩

/-- Whether a cursor is stuck is told by its behaviour. -/
theorem Stuck.congr {sources sources' : Sources} {c : Cursor}
    (hbehaviour : c.behaviour sources' = c.behaviour sources) (h : c.Stuck sources) :
    c.Stuck sources' := by
  unfold Stuck move at *
  rw [hbehaviour]
  exact h

theorem Stuck.outcome_ne {c : Cursor} (h : c.Stuck sources) :
    (c.move sources .next).2.outcome ≠ .ok true := by
  rw [h.1]
  nofun

end Cursor

/-! ## The state of a follower -/

/-- A follower in its place: its cursor came about and is ready, its sources exist, and its
subscriptions are none, or one on each of its sources. -/
structure Follower.Placed (f : Follower) (h : Hub) : Prop where
  reachable : f.cursor.Reachable
  plain : f.cursor.tree.Plain
  ready : (f.cursor.state h.sources).isReady = true
  leaves : ∀ id ∈ f.cursor.tree.leaves, id < h.series.length
  watching : h.Watching f.waiter f.subscriptions
  covers : f.subscriptions = [] ∨ ∀ id ∈ f.cursor.tree.leaves, f.subscriptions.Covers id

/-- Every source has been asked for a notification. -/
def Follower.Asked (f : Follower) (h : Hub) : Prop :=
  ∀ id ∈ f.cursor.tree.leaves, (h.sources id).registry.Asks f.waiter

theorem Cursor.behaviour_eq {h h' : Hub} (hsame : h.SameData h') (c : Cursor) :
    c.behaviour h'.sources = c.behaviour h.sources :=
  Tree.behaviour_congr fun id _ => ⟨hsame.store id, hsame.completed id⟩

/-- The state of a cursor is in its position. -/
theorem Cursor.state_eq (sources sources' : Sources) (c : Cursor) :
    c.state sources' = c.state sources := by
  rw [state, state, behaviour, behaviour, c.tree.state_behaviour, c.tree.state_behaviour]

theorem Cursor.Stuck.of_sameData {h h' : Hub} (hsame : h.SameData h') {c : Cursor}
    (hc : c.Stuck h.sources) : c.Stuck h'.sources :=
  hc.congr (c.behaviour_eq hsame)

theorem Cursor.isCompleted_eq {h h' : Hub} (hsame : h.SameData h') (c : Cursor) :
    c.isCompleted h'.sources = c.isCompleted h.sources := by
  rw [isCompleted, isCompleted, c.behaviour_eq hsame]

namespace Follower

/-! ## One try -/

section Advance

variable {f : Follower} {h : Hub}

theorem advance_of_landed (hlanded : (f.cursor.move h.sources .next).2.outcome = .ok true) :
    (f.advance h).1 = { f with cursor := (f.cursor.move h.sources .next).1 } ∧
      (f.advance h).2.outcome = .ok (some true) := by
  simp only [advance, hlanded]
  exact ⟨trivial, trivial⟩

theorem advance_of_completed (hstuck : f.cursor.Stuck h.sources)
    (hcompleted : f.cursor.isCompleted h.sources = true) :
    (f.advance h).1 = f ∧ (f.advance h).2.outcome = .ok (some false) := by
  simp only [advance, hstuck.1, hstuck.2, hcompleted, if_true]
  exact ⟨trivial, rfl⟩

theorem advance_of_stuck (hstuck : f.cursor.Stuck h.sources)
    (hcompleted : f.cursor.isCompleted h.sources = false) :
    (f.advance h).1 = f ∧ (f.advance h).2.outcome = .ok none := by
  simp only [advance, hstuck.1, hstuck.2, hcompleted]
  exact ⟨rfl, rfl⟩

end Advance

/-! ## One round -/

section Round

variable {f : Follower} {h : Hub} {token : Nat}

/-- A follower is in its place also in a hub with the same data, if its account is kept there. -/
theorem Placed.of_sameData (hp : f.Placed h) {h' : Hub} (hsame : h.SameData h')
    {set : Subscriptions} (hwatching : h'.Watching f.waiter set)
    (hcovers : set = [] ∨ ∀ id ∈ f.cursor.tree.leaves, set.Covers id) :
    ({ f with subscriptions := set } : Follower).Placed h' where
  reachable := hp.reachable
  plain := hp.plain
  ready := (f.cursor.state_eq h.sources h'.sources).symm ▸ hp.ready
  leaves id hid := by
    rw [hsame.length]
    exact hp.leaves id hid
  watching := hwatching
  covers := hcovers

/-- A follower in its place is never refused. -/
theorem exists_watch (hp : f.Placed h) :
    ∃ set h', f.watch h = (.ok (), { f with subscriptions := set }, h') ∧ h.SameData h' ∧
      h'.Watching f.waiter set ∧ ∀ id ∈ f.cursor.tree.leaves, set.Covers id := by
  by_cases hempty : f.subscriptions.isEmpty = true
  · obtain ⟨set, h', heq, hwatching, hsame, -, hcovers⟩ :=
      Hub.exists_subscribe_tree hp.plain hp.watching hp.leaves
    refine ⟨set, h', ?_, hsame, hwatching, hcovers⟩
    rw [watch, if_pos hempty, heq]
  · refine ⟨f.subscriptions, h, ?_, .refl h, hp.watching, ?_⟩
    · rw [watch, if_neg hempty]
    · rcases hp.covers with hnone | hcovers
      · exact absurd (congrArg List.isEmpty hnone) hempty
      · exact hcovers

theorem round_of_cancelled (hcancelled : h.isCancelled token = true) :
    f.round token h = ⟨h, f, pure (some (.error .cancelled))⟩ := by
  rw [round, if_pos hcancelled]

theorem round_of_landed (hcancelled : h.isCancelled token = false)
    (hlanded : (f.cursor.move h.sources .next).2.outcome = .ok true) :
    (f.round token h).hub = h ∧
      (f.round token h).follower = { f with cursor := (f.cursor.move h.sources .next).1 } ∧
      (f.round token h).answer.outcome = .ok (some (.ok true)) := by
  obtain ⟨hfollower, hanswer⟩ := advance_of_landed hlanded
  simp only [round, hcancelled, hanswer]
  exact ⟨rfl, hfollower, rfl⟩

theorem round_of_completed (hcancelled : h.isCancelled token = false)
    (hstuck : f.cursor.Stuck h.sources) (hcompleted : f.cursor.isCompleted h.sources = true) :
    (f.round token h).hub = h ∧ (f.round token h).follower = f ∧
      (f.round token h).answer.outcome = .ok (some (.ok false)) := by
  obtain ⟨hfollower, hanswer⟩ := advance_of_completed hstuck hcompleted
  simp only [round, hcancelled, hanswer]
  exact ⟨rfl, hfollower, rfl⟩

/-- A round that has to sleep has asked every source, and changed no data. -/
theorem round_of_stuck (hp : f.Placed h) (hcancelled : h.isCancelled token = false)
    (hstuck : f.cursor.Stuck h.sources) (hcompleted : f.cursor.isCompleted h.sources = false) :
    ∃ set, (f.round token h).follower = { f with subscriptions := set } ∧
      (f.round token h).answer.outcome = .ok none ∧ h.SameData (f.round token h).hub ∧
      (f.round token h).follower.Placed (f.round token h).hub ∧
      (f.round token h).follower.Asked (f.round token h).hub := by
  obtain ⟨hfollower, hanswer⟩ := advance_of_stuck hstuck hcompleted
  obtain ⟨set, h', hwatch, hsame, hwatching, hcovers⟩ := exists_watch hp
  have hrequest := h'.sameData_requestAll set 1
  have hstuck' := hstuck.of_sameData (hsame.trans hrequest)
  have hcompleted' := (f.cursor.isCompleted_eq (hsame.trans hrequest)).trans hcompleted
  -- The second try finds what the first one found.
  obtain ⟨hfollower', hanswer'⟩ :=
    advance_of_stuck (f := { f with subscriptions := set }) hstuck' hcompleted'
  have hround : (f.round token h).hub = h'.requestAll set 1 ∧
      (f.round token h).follower = { f with subscriptions := set } ∧
      (f.round token h).answer.outcome = .ok none := by
    simp only [round, hcancelled, hanswer, hfollower, hwatch, hanswer', hfollower']
    exact ⟨rfl, rfl, rfl⟩
  obtain ⟨hhub, hf, hnone⟩ := hround
  refine ⟨set, hf, hnone, ?_, ?_, ?_⟩
  · rw [hhub]
    exact hsame.trans hrequest
  · rw [hhub, hf]
    exact hp.of_sameData (hsame.trans hrequest) (hwatching.requestAll set 1) (.inr hcovers)
  · rw [hhub, hf]
    intro id hid
    refine Hub.asks_requestAll_of_covers hwatching (fun _ hs => hs) Nat.one_pos ?_ (hcovers id hid)
    rw [hsame.length]
    exact hp.leaves id hid

/-- All that a round can come to, for a follower in any state. -/
inductive Round (f : Follower) (token : Nat) (h : Hub)
    (a : Attempt (Option (Except WaitError Bool))) : Prop where
  | cancelled (hub : a.hub = h) (follower : a.follower = f)
      (outcome : a.answer.outcome = .ok (some (.error .cancelled)))
  /-- The first try has the answer. -/
  | first (known : (f.advance h).2.outcome ≠ .ok none) (hub : a.hub = h)
      (follower : a.follower = (f.advance h).1)
      (outcome : a.answer.outcome = (f.advance h).2.outcome.map (Option.map .ok))
  /-- A series refused to be watched. -/
  | refused {e : SubscribeRefusal} {f' : Follower} {h' : Hub}
      (watch : (f.advance h).1.watch h = (.error e, f', h')) (hub : a.hub = h')
      (follower : a.follower = f')
      (outcome : a.answer.outcome = .ok (some (.error (.subscribe e))))
  /-- A second try has the last word. -/
  | second {f' : Follower} {h' : Hub} (watch : (f.advance h).1.watch h = (.ok (), f', h'))
      (hub : a.hub = h'.requestAll f'.subscriptions 1)
      (follower : a.follower = (f'.advance a.hub).1)
      (outcome : a.answer.outcome = (f'.advance a.hub).2.outcome.map (Option.map .ok))

theorem round_cases (f : Follower) (token : Nat) (h : Hub) :
    Round f token h (f.round token h) := by
  unfold round
  split
  · exact .cancelled rfl rfl rfl
  · cases hfirst : (f.advance h).2.outcome with
    | error e =>
        simp only [hfirst]
        exact .first (by rw [hfirst]; nofun) rfl rfl (by rw [hfirst]; rfl)
    | ok moved? =>
        cases moved? with
        | some moved =>
            simp only [hfirst]
            exact .first (by rw [hfirst]; nofun) rfl rfl (by rw [hfirst]; rfl)
        | none =>
            cases hwatch : (f.advance h).1.watch h with
            | mk watched rest =>
                obtain ⟨f', h'⟩ := rest
                simp only [hfirst, hwatch]
                cases watched with
                | error e => exact .refused hwatch rfl rfl rfl
                | ok _ => exact .second hwatch rfl rfl rfl

end Round

end Follower

end LiveSeries
