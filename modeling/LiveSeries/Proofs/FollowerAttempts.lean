import LiveSeries.Proofs.FollowerRounds

/-!
# The attempts of a follower

What one attempt of a follower comes to, told by the state in which it is made (`Attempt.Settles`).
A follower that rests may start, and one that is asleep may be polled: both move on, end, or fall
asleep again with all of their sources asked (`Follower.settles_start`, `Sleeper.settles_poll`).
-/

namespace LiveSeries

/-! ## The states of a follower -/

/-- A follower that may start: it is in its place, and nobody waits on its waiter. -/
structure Follower.Resting (f : Follower) (h : Hub) : Prop where
  placed : f.Placed h
  idle : (h.waiter f.waiter).Idle

/-- A follower asleep. It was woken since, or there is nothing to see and every source will wake
it. -/
structure Sleeper.Valid (s : Sleeper) (h : Hub) : Prop where
  placed : s.follower.Placed h
  awake : (h.waiter s.follower.waiter).Stirs s.ticket ∨
    (h.waiter s.follower.waiter).Sleeps s.ticket ∧ s.follower.cursor.Stuck h.sources ∧
      s.follower.cursor.isCompleted h.sources = false ∧ s.follower.Asked h

/-- A follower that may start, and that has to sleep. -/
structure Follower.Poised (f : Follower) (token : Nat) (h : Hub) : Prop where
  resting : f.Resting h
  uncancelled : h.isCancelled token = false
  stuck : f.cursor.Stuck h.sources
  incomplete : f.cursor.isCompleted h.sources = false

namespace Attempt

/-- The attempt ended asleep, with the cursor in its place, after every source was asked. -/
def FellAsleep (a : Attempt Progress) (token : Nat) (c : Cursor) : Prop :=
  ∃ s, a.answer.outcome = .ok (.asleep s) ∧ s.follower = a.follower ∧ s.token = token ∧
    a.follower.cursor = c ∧ s.Valid a.hub ∧ s.follower.Asked a.hub

/-- What came of an attempt is told by the state in which it was made. -/
structure Settles (a : Attempt Progress) (h : Hub) (token : Nat) (c : Cursor) : Prop where
  cancelled : h.isCancelled token = true →
    a.answer.outcome = .ok (.ended (.error .cancelled)) ∧ a.follower.cursor = c
  landed : h.isCancelled token = false → (c.move h.sources .next).2.outcome = .ok true →
    a.answer.outcome = .ok (.ended (.ok true)) ∧
      a.follower.cursor = (c.move h.sources .next).1
  completed : h.isCancelled token = false → (c.move h.sources .next).2.outcome ≠ .ok true →
    (∀ id ∈ c.tree.leaves, (h.sources id).isCompleted = true) →
      a.answer.outcome = .ok (.ended (.ok false)) ∧ a.follower.cursor = c
  pending : h.isCancelled token = false → (c.move h.sources .next).2.outcome ≠ .ok true →
    ¬ (∀ id ∈ c.tree.leaves, (h.sources id).isCompleted = true) →
      ∃ s, a.answer.outcome = .ok (.asleep s) ∧ s.follower = a.follower ∧ s.token = token ∧
        a.follower.cursor = c ∧ ∀ id ∈ c.tree.leaves, ∃ record,
          (a.hub.sources id).registry.records.filter (fun r => r.target == a.follower.waiter) =
            [record] ∧ 0 < record.requests

/-- An attempt leaves a follower that may start again, or one asleep. -/
def Valid (a : Attempt Progress) : Prop :=
  (∃ answer, a.answer.outcome = .ok (.ended answer) ∧ a.follower.Resting a.hub) ∨
    ∃ s, a.answer.outcome = .ok (.asleep s) ∧ s.Valid a.hub

end Attempt

namespace Follower

section Sleep

variable {f : Follower} {h : Hub} {token : Nat}

theorem orSleep_of_answer {a : Attempt (Option (Except WaitError Bool))}
    {answer : Except WaitError Bool} (ha : a.answer.outcome = .ok (some answer))
    (sleep : Follower → Hub → Attempt Progress) :
    (orSleep a sleep).hub = a.hub ∧ (orSleep a sleep).follower = a.follower ∧
      (orSleep a sleep).answer.outcome = .ok (.ended answer) := by
  simp only [orSleep, ha]
  exact ⟨trivial, trivial, trivial⟩

theorem orSleep_of_none {a : Attempt (Option (Except WaitError Bool))}
    (ha : a.answer.outcome = .ok none) (sleep : Follower → Hub → Attempt Progress) :
    (orSleep a sleep).hub = (sleep a.follower a.hub).hub ∧
      (orSleep a sleep).follower = (sleep a.follower a.hub).follower ∧
      (orSleep a sleep).answer.outcome = (sleep a.follower a.hub).answer.outcome := by
  simp only [orSleep, ha]
  exact ⟨trivial, trivial, trivial⟩

/-- What a follower does with its waiter does not move it. -/
theorem Placed.setWaiter (hp : f.Placed h) (x : Waiter) : f.Placed (h.setWaiter f.waiter x) where
  reachable := hp.reachable
  plain := hp.plain
  ready := hp.ready
  leaves := hp.leaves
  watching := hp.watching.setWaiter x
  covers := hp.covers

theorem Poised.fallAsleep (hp : f.Poised token h) (hasked : f.Asked h) :
    (f.fallAsleep token h).FellAsleep token f.cursor := by
  refine ⟨⟨f, token, (h.waiter f.waiter).queueUp.1⟩, rfl, rfl, rfl, rfl,
    ⟨hp.resting.placed.setWaiter _, .inr ⟨?_, hp.stuck, hp.incomplete, hasked⟩⟩, hasked⟩
  show ((h.setWaiter f.waiter (h.waiter f.waiter).queueUp.2).waiter f.waiter).Sleeps _
  rw [Hub.waiter_setWaiter_self hp.resting.placed.watching.waiter]
  exact hp.resting.idle.queueUp

theorem Poised.takePermit (hp : f.Poised token h) :
    f.Poised token (h.setWaiter f.waiter (h.waiter f.waiter).takePermit) where
  resting :=
    { placed := hp.resting.placed.setWaiter _
      idle := by
        rw [Hub.waiter_setWaiter_self hp.resting.placed.watching.waiter]
        exact hp.resting.idle.takePermit }
  uncancelled := hp.uncancelled
  stuck := hp.stuck
  incomplete := hp.incomplete

/-- After a round that has to sleep the follower still has to, and has asked every source. -/
theorem Poised.round (hp : f.Poised token h) :
    (f.round token h).answer.outcome = .ok none ∧
      (f.round token h).follower.cursor = f.cursor ∧
      (f.round token h).follower.Poised token (f.round token h).hub ∧
      (f.round token h).follower.Asked (f.round token h).hub := by
  obtain ⟨set, hf, hnone, hsame, hplaced, hasked⟩ :=
    round_of_stuck hp.resting.placed hp.uncancelled hp.stuck hp.incomplete
  refine ⟨hnone, by rw [hf], ⟨⟨hplaced, ?_⟩, ?_, ?_, ?_⟩, hasked⟩
  · rw [hf, hsame.waiter_eq]
    exact hp.resting.idle
  · rw [Hub.isCancelled, hsame.tokens]
    exact hp.uncancelled
  · rw [hf]
    exact hp.stuck.of_sameData hsame
  · rw [hf]
    exact (f.cursor.isCompleted_eq hsame).trans hp.incomplete

/-- A round that has to sleep, followed by whatever falls asleep in such a state. -/
theorem Poised.orSleep (hp : f.Poised token h) {sleep : Follower → Hub → Attempt Progress}
    (hsleep : ∀ f' h', f'.Poised token h' → f'.Asked h' →
      (sleep f' h').FellAsleep token f'.cursor) :
    (orSleep (f.round token h) sleep).FellAsleep token f.cursor := by
  obtain ⟨hnone, hcursor, hp', hasked⟩ := hp.round
  obtain ⟨s, hs, hfollower, htoken, hstays, hvalid, hasked'⟩ := hsleep _ _ hp' hasked
  obtain ⟨hhub, hf, hanswer⟩ := orSleep_of_none hnone sleep
  refine ⟨s, hanswer.trans hs, hfollower.trans hf.symm, htoken, ?_, ?_, ?_⟩
  · rw [hf, hstays, hcursor]
  · rw [hhub]
    exact hvalid
  · rw [hhub]
    exact hasked'

/-- A start that has to sleep does so after one round, or after two if there was a permit. -/
theorem Poised.start (hp : f.Poised token h) : (f.start token h).FellAsleep token f.cursor := by
  refine hp.orSleep ?_
  intro f' h' hp' hasked
  dsimp only
  split
  · exact hp'.takePermit.orSleep fun _ _ hp'' hasked' => hp''.fallAsleep hasked'
  · exact hp'.fallAsleep hasked

end Sleep

/-! ## What an attempt comes to -/

section Settles

variable {f : Follower} {h : Hub} {token : Nat}

/-- A start that ends in its first round. -/
theorem start_of_answer {answer : Except WaitError Bool}
    (hanswer : (f.round token h).answer.outcome = .ok (some answer)) :
    (f.start token h).hub = (f.round token h).hub ∧
      (f.start token h).follower = (f.round token h).follower ∧
      (f.start token h).answer.outcome = .ok (.ended answer) :=
  orSleep_of_answer hanswer _

theorem Resting.move (hr : f.Resting h) (sources : Sources) (m : Motion) :
    ({ f with cursor := (f.cursor.move sources m).1 } : Follower).Resting h where
  placed :=
    { reachable := .move sources m hr.placed.reachable
      plain := hr.placed.plain
      ready := by
        have hready : (f.cursor.state sources).isReady = true := by
          rw [f.cursor.state_eq h.sources]
          exact hr.placed.ready
        rw [Cursor.state_eq sources]
        exact (f.cursor.tree.steady sources).move_ready m f.cursor.position
          (Cursor.sound_of_reachable hr.placed.reachable) hready
      leaves := hr.placed.leaves
      watching := hr.placed.watching
      covers := hr.placed.covers }
  idle := hr.idle

theorem isCompleted_eq_true_iff (c : Cursor) (sources : Sources) :
    c.isCompleted sources = true ↔ ∀ id ∈ c.tree.leaves, (sources id).isCompleted = true :=
  c.tree.completed_behaviour sources

/-- An attempt that fell asleep has one request at least, under the one record of its waiter, on
each of its sources. -/
theorem exists_record {a : Attempt Progress} {s : Sleeper} (hs : s.Valid a.hub)
    (hfollower : s.follower = a.follower) (hasked : s.follower.Asked a.hub) {id : SourceId}
    (hid : id ∈ a.follower.cursor.tree.leaves) :
    ∃ record, (a.hub.sources id).registry.records.filter
        (fun r => r.target == a.follower.waiter) = [record] ∧ 0 < record.requests := by
  rw [← hfollower] at hid ⊢
  exact Registry.exists_filter_eq_singleton (hs.placed.watching.wellFormed.registries id)
    (hasked id hid)

/-- An attempt that fell asleep, in a state that left it nothing else to do. -/
theorem settles_of_fellAsleep {a : Attempt Progress} {c : Cursor}
    (ha : a.FellAsleep token c) (huncancelled : h.isCancelled token = false)
    (hstuck : c.Stuck h.sources) (hincomplete : c.isCompleted h.sources = false) :
    a.Settles h token c where
  cancelled hcancelled := by
    rw [huncancelled] at hcancelled
    cases hcancelled
  landed _ hlanded := absurd hlanded hstuck.outcome_ne
  completed _ _ hcompleted := by
    rw [(isCompleted_eq_true_iff c h.sources).mpr hcompleted] at hincomplete
    cases hincomplete
  pending _ _ _ := by
    obtain ⟨s, hs, hfollower, htoken, hcursor, hvalid, hasked⟩ := ha
    refine ⟨s, hs, hfollower, htoken, hcursor, ?_⟩
    intro id hid
    rw [← hcursor] at hid
    exact exists_record hvalid hfollower hasked hid

/-- What came of a start is told by the state in which it was made. -/
theorem settles_start (token : Nat) (hr : f.Resting h) (htotal : f.cursor.tree.Total h.sources) :
    (f.start token h).Settles h token f.cursor ∧ (f.start token h).Valid := by
  -- the cases are those of the first round, in the order in which it asks
  cases hcancelled : h.isCancelled token with
  | true =>
      have hround := round_of_cancelled (f := f) hcancelled
      obtain ⟨hhub, hfollower, hanswer⟩ := start_of_answer (by rw [hround]; rfl)
      rw [hround] at hhub hfollower
      refine ⟨⟨fun _ => ⟨hanswer, by rw [hfollower]⟩, ?_, ?_, ?_⟩, .inl ⟨_, hanswer, ?_⟩⟩
      · simp [hcancelled]
      · simp [hcancelled]
      · simp [hcancelled]
      · rw [hhub, hfollower]
        exact hr
  | false =>
      rcases Cursor.landed_or_stuck h.sources hr.placed.reachable hr.placed.ready htotal with
        hlanded | hstuck
      · obtain ⟨hhub₁, hfollower₁, hanswer₁⟩ := round_of_landed hcancelled hlanded
        obtain ⟨hhub, hfollower, hanswer⟩ := start_of_answer hanswer₁
        rw [hhub₁] at hhub
        rw [hfollower₁] at hfollower
        refine ⟨⟨?_, fun _ _ => ⟨hanswer, by rw [hfollower]⟩, ?_, ?_⟩, .inl ⟨_, hanswer, ?_⟩⟩
        · simp [hcancelled]
        · exact fun _ hne => absurd hlanded hne
        · exact fun _ hne => absurd hlanded hne
        · rw [hhub, hfollower]
          exact hr.move h.sources .next
      · cases hcompleted : f.cursor.isCompleted h.sources with
        | true =>
            -- nothing is left, and nothing can come
            have hall := (isCompleted_eq_true_iff f.cursor h.sources).mp hcompleted
            obtain ⟨hhub₁, hfollower₁, hanswer₁⟩ :=
              round_of_completed hcancelled hstuck hcompleted
            obtain ⟨hhub, hfollower, hanswer⟩ := start_of_answer hanswer₁
            rw [hhub₁] at hhub
            rw [hfollower₁] at hfollower
            refine ⟨⟨?_, ?_, fun _ _ _ => ⟨hanswer, by rw [hfollower]⟩, ?_⟩, .inl ⟨_, hanswer, ?_⟩⟩
            · simp [hcancelled]
            · exact fun _ hlanded => absurd hlanded hstuck.outcome_ne
            · exact fun _ _ hnot => absurd hall hnot
            · rw [hhub, hfollower]
              exact hr
        | false =>
            have hasleep : (f.start token h).FellAsleep token f.cursor :=
              Poised.start ⟨hr, hcancelled, hstuck, hcompleted⟩
            refine ⟨settles_of_fellAsleep hasleep hcancelled hstuck hcompleted, .inr ?_⟩
            obtain ⟨s, hs, -, -, -, hvalid, -⟩ := hasleep
            exact ⟨s, hs, hvalid⟩

end Settles

end Follower

namespace Sleeper

/-- Whoever leaves its place in the queue may start again. -/
theorem Valid.leave {s : Sleeper} {h : Hub} (hs : s.Valid h) : s.follower.Resting (s.leave h) where
  placed := hs.placed.setWaiter _
  idle := by
    rw [Sleeper.leave, Hub.waiter_setWaiter_self hs.placed.watching.waiter]
    rcases hs.awake with hstirs | ⟨hsleeps, -⟩
    · exact hstirs.leave
    · exact hsleeps.leave

/-- What came of a poll is told by the state in which it was made, whether or not the follower
was woken since it fell asleep. -/
theorem settles_poll {s : Sleeper} {h : Hub} (hs : s.Valid h)
    (htotal : s.follower.cursor.tree.Total h.sources) :
    (s.poll h).Settles h s.token s.follower.cursor ∧ (s.poll h).Valid := by
  cases hcancelled : h.isCancelled s.token with
  | true =>
      have hpoll : s.poll h = ⟨s.leave h, s.follower, pure (.ended (.error .cancelled))⟩ := by
        rw [poll, if_pos hcancelled]
      rw [hpoll]
      refine ⟨⟨fun _ => ⟨rfl, rfl⟩, ?_, ?_, ?_⟩, .inl ⟨_, rfl, hs.leave⟩⟩
      · simp [hcancelled]
      · simp [hcancelled]
      · simp [hcancelled]
  | false =>
      rcases hs.awake with hstirs | ⟨hsleeps, hstuck, hincomplete, hasked⟩
      · -- It was woken, and starts anew; the wake is used up.
        obtain ⟨hwoken, hidle⟩ := hstirs.poll
        generalize hx : (h.waiter s.follower.waiter).poll s.ticket = x at hwoken hidle
        have hpoll : s.poll h =
            s.follower.start s.token (h.setWaiter s.follower.waiter x.2) := by
          rw [poll, if_neg (by rw [hcancelled]; exact Bool.false_ne_true), hx,
            show x = (true, x.2) from Prod.ext hwoken rfl]
        have hresting : s.follower.Resting (h.setWaiter s.follower.waiter x.2) := by
          refine ⟨hs.placed.setWaiter _, ?_⟩
          rw [Hub.waiter_setWaiter_self hs.placed.watching.waiter]
          exact hidle
        rw [hpoll]
        obtain ⟨hsettles, hvalid⟩ := Follower.settles_start s.token hresting htotal
        exact ⟨⟨hsettles.cancelled, hsettles.landed, hsettles.completed, hsettles.pending⟩, hvalid⟩
      · -- It sleeps on, and there is nothing to see.
        have hpoll : s.poll h = ⟨h, s.follower, pure (.asleep s)⟩ := by
          rw [poll, if_neg (by rw [hcancelled]; exact Bool.false_ne_true), hsleeps.poll]
        rw [hpoll]
        have hasleep : Attempt.FellAsleep (⟨h, s.follower, pure (.asleep s)⟩ : Attempt Progress)
            s.token s.follower.cursor :=
          ⟨s, rfl, rfl, rfl, rfl, hs, hasked⟩
        exact ⟨Follower.settles_of_fellAsleep hasleep hcancelled hstuck hincomplete,
          .inr ⟨s, rfl, hs⟩⟩

end Sleeper

end LiveSeries
