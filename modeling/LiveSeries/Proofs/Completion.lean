import LiveSeries.Proofs.FaultedMoves
import LiveSeries.Proofs.Notifications
import LiveSeries.Proofs.SeriesEdits

/-!
# Completion is final

A completed series takes no mutation, and tells nobody of those that are tried
(`Series.refuses_edit`, `Series.refuses_command`). Wherever a session goes on from there it finds
the entries, the versions and the completion as they were (`Session.Continues.retains`).

A cursor sees nothing of its series but entries and completion. A wait that came to the end saw all
series of the cursor completed, and no entry to move to (`Reader.final_of_poll`). So it is never
again otherwise (`Session.completion_is_final`).
-/

namespace LiveSeries

/-! ## Completed series -/

namespace Series

section Completed

variable {s : Series} (h : s.isCompleted = true)

include h

theorem enter_of_completed : s.gate.enter = .error .readOnly :=
  Gate.enter_of_readOnly h

theorem result_write_of_completed {α : Type} (f : Store → Except Refusal (Change α)) :
    (s.write f).result = .error (.refused .completed) := by
  rw [write, enter_of_completed h]
  rfl

theorem result_writeAs_of_completed {α : Type} (version : Nat)
    (f : Store → Except Refusal (Change α)) :
    (s.writeAs version f).result = .error (.refused .completed) := by
  rw [writeAs, enter_of_completed h]
  rfl

/-- A completed series refuses every call; entries that do not increase are refused before it is
asked. -/
theorem refuses_edit (e : Edit) :
    (e.run s).result = .error (.refused .completed) ∨
      (∃ entries option, e = .append entries option ∧ increases entries = false) ∧
        (e.run s).result = .error (.refused .outOfOrder) := by
  cases e with
  | append entries option =>
      show (s.append entries option).result = _ ∨ _ ∧ (s.append entries option).result = _
      unfold append
      split
      · exact .inl (result_write_of_completed h _)
      · next hnot => exact .inr ⟨⟨entries, option, rfl, Bool.eq_false_iff.mpr hnot⟩, rfl⟩
  | _ => exact .inl (result_write_of_completed h _)

theorem result_perform_of_completed (version : Nat) {c : Command} (hc : c ≠ .complete) :
    ∃ r, (s.perform version c).result = .error (.refused r) := by
  have hversioned : ∀ {β : Type} (f : Store → Except Refusal (Change β)),
      (asApplied version (s.writeAs version f)).result = .error (.refused .completed) := fun f =>
    congrArg (Except.map fun _ => Outcome.applied version)
      (result_writeAs_of_completed h version f)
  cases c with
  | set k v => exact ⟨_, hversioned _⟩
  | append entries option =>
      rw [perform]
      split
      · exact ⟨_, hversioned _⟩
      · exact ⟨_, rfl⟩
  | remove k lookup => exact ⟨_, hversioned _⟩
  | complete => exact absurd rfl hc

/-- It skips the commands that it has seen, and refuses all others but completion. -/
theorem refuses_command {c : StampedCommand} (hc : c.command ≠ .complete) :
    c.version ≤ s.version ∧ (s.apply c).result = .ok .skipped ∨
      s.version < c.version ∧ ∃ e, (s.apply c).result = .error e := by
  by_cases hseen : c.version ≤ s.version
  · refine .inl ⟨hseen, ?_⟩
    simp only [apply, if_pos (And.intro hseen hc)]
  · refine .inr ⟨Nat.lt_of_not_le hseen, ?_⟩
    simp only [apply, if_neg fun h => hseen (And.left h)]
    split
    · exact ⟨_, rfl⟩
    · obtain ⟨r, hr⟩ := result_perform_of_completed h c.version hc
      exact ⟨_, hr⟩

end Completed

/-- The series takes no mutation, and tells nobody of those that are tried. -/
structure Refuses (s : Series) : Prop where
  edits : ∀ e : Edit, (e.run s).result = .error (.refused .completed) ∨
    (∃ entries option, e = .append entries option ∧ increases entries = false) ∧
      (e.run s).result = .error (.refused .outOfOrder)
  commands : ∀ c : StampedCommand, c.command ≠ .complete →
    c.version ≤ s.version ∧ (s.apply c).result = .ok .skipped ∨
      s.version < c.version ∧ ∃ e, (s.apply c).result = .error e
  void : ∀ m : Mutation, (m.write s).Void s

theorem refuses_of_completed {s : Series} (h : s.isCompleted = true) : s.Refuses where
  edits := refuses_edit h
  commands _ hc := refuses_command h hc
  void := Sealed.mutation (.inr h)

end Series

/-! ## The shared state goes on -/

namespace Hub

/-- What was completed is as it was. -/
structure Retains (h h' : Hub) : Prop where
  length : h.series.length ≤ h'.series.length
  completed : ∀ id, (h.sources id).isCompleted = true → (h'.sources id).isCompleted = true
  store : ∀ id, (h.sources id).isCompleted = true → (h'.sources id).store = (h.sources id).store
  version : ∀ id, (h.sources id).isCompleted = true →
    (h'.sources id).version = (h.sources id).version
  nextVersion : ∀ id, (h.sources id).isCompleted = true →
    (h'.sources id).nextVersion = (h.sources id).nextVersion

theorem Retains.refl (h : Hub) : h.Retains h :=
  ⟨Nat.le_refl _, fun _ hs => hs, fun _ _ => rfl, fun _ _ => rfl, fun _ _ => rfl⟩

theorem Retains.trans {h h' h'' : Hub} (a : h.Retains h') (b : h'.Retains h'') :
    h.Retains h'' where
  length := Nat.le_trans a.length b.length
  completed id hs := b.completed id (a.completed id hs)
  store id hs := (b.store id (a.completed id hs)).trans (a.store id hs)
  version id hs := (b.version id (a.completed id hs)).trans (a.version id hs)
  nextVersion id hs := (b.nextVersion id (a.completed id hs)).trans (a.nextVersion id hs)

/-- A place without a series has an incomplete one. -/
theorem lt_length_of_completed {h : Hub} {id : SourceId} (hs : (h.sources id).isCompleted = true) :
    id < h.series.length := by
  refine Nat.lt_of_not_le fun hle => ?_
  have hnone : h.series[id]? = none := List.getElem?_eq_none hle
  rw [sources, List.getD_eq_getElem?_getD, hnone] at hs
  cases hs

theorem Onward.retains {h h' : Hub} (a : h.Onward h') : h.Retains h' := by
  have hgate : ∀ id, (h.sources id).isCompleted = true →
      (h'.sources id).gate = (h.sources id).gate := fun id hs =>
    a.gate id (lt_length_of_completed hs) (.inr hs)
  exact
    { length := a.length
      completed := fun id hs => (congrArg Gate.readOnly (hgate id hs)).trans hs
      store := fun id hs => a.store id (lt_length_of_completed hs) (.inr hs)
      version := fun id hs => congrArg Gate.version (hgate id hs)
      nextVersion := fun id hs => congrArg Gate.nextVersion (hgate id hs) }

/-- A writer that leaves frees the gate and does nothing else. -/
theorem retains_leave (h : Hub) (id : SourceId) : h.Retains (h.leave id) := by
  have hsources : ∀ i, (h.leave id).sources i = h.sources i ∨
      (h.leave id).sources i = (h.sources i).settle := by
    intro i
    rw [leave, sources_setSeries]
    split
    · next hi => exact .inr (by rw [hi.1])
    · exact .inl rfl
  have hsame : ∀ {α : Type} (f : Series → α), (∀ s : Series, f s.settle = f s) → ∀ i,
      f ((h.leave id).sources i) = f (h.sources i) := by
    intro α f hf i
    rcases hsources i with heq | heq
    · rw [heq]
    · rw [heq, hf]
  exact
    { length := Nat.le_of_eq List.length_set.symm
      completed := fun i hs => (hsame Series.isCompleted (fun _ => rfl) i).trans hs
      store := fun i _ => hsame Series.store (fun _ => rfl) i
      version := fun i _ => hsame Series.version (fun _ => rfl) i
      nextVersion := fun i _ => hsame Series.nextVersion (fun _ => rfl) i }

end Hub

namespace Session

/-- The worlds to which a session goes on, from wherever it stands: also from the midst of a
notification, whose writer is still to leave. -/
inductive Continues (w : World) : World → Prop where
  | refl : Continues w w
  | leads {w' w'' : World} : Leads w' w'' → Continues w w' → Continues w w''
  | leave {w' : World} (id : SourceId) : Continues w w' →
      Continues w { w' with hub := w'.hub.leave id }

theorem Continues.retains {w w' : World} (h : Continues w w') : w.hub.Retains w'.hub := by
  induction h with
  | refl => exact .refl w.hub
  | leads h _ ih => exact ih.trans h.onward.retains
  | leave id _ ih => exact ih.trans (Hub.retains_leave _ id)

/-- Whatever mutation of a completed series is tried, nobody is told of it, and nothing changes. -/
theorem answer_of_completed {w : World} {id : SourceId} (hs : (w.hub.sources id).isCompleted = true)
    {step : Step} {name : String} {m : Mutation} (hstep : step.mutation? = some (name, m))
    (hname : w.object? name = some (.series id)) (notify : Notifier) :
    ∃ reports, (answer notify step w).2 = { w with hub := { w.hub with reports := reports } } := by
  have hsealed : (w.hub.sources id).Sealed := .inr hs
  have hvoid := hsealed.mutation m
  rw [answer_mutation hstep notify hname]
  exact World.settle_of_void notify hvoid.series hvoid.notice

end Session

/-! ## Cursors at the end -/

namespace Cursor

/-- There is no next entry now, and never will be. -/
structure Final (sources : Sources) (c : Cursor) : Prop where
  stuck : c.Stuck sources
  completed : ∀ id ∈ c.tree.leaves, (sources id).isCompleted = true

theorem Final.retained {h h' : Hub} {c : Cursor} (hc : c.Final h.sources) (hh : h.Retains h') :
    c.Final h'.sources where
  stuck := hc.stuck.congr <| Tree.behaviour_congr fun id hid =>
    ⟨hh.store id (hc.completed id hid),
      (hh.completed id (hc.completed id hid)).trans (hc.completed id hid).symm⟩
  completed id hid := hh.completed id (hc.completed id hid)

end Cursor

namespace Follower

variable {f : Follower} {h : Hub} {token : Nat}

/-- A try that comes to the end has looked at the sources twice: they gave no entry, were complete,
and gave none again. -/
theorem final_of_advance (hended : (f.advance h).2.outcome = .ok (some false)) :
    (f.advance h).1.cursor.Final h.sources := by
  have hnot : (f.cursor.move h.sources .next).2.outcome ≠ .ok true := fun hlanded => by
    rw [(advance_of_landed hlanded).2] at hended
    cases hended
  cases hfirst : (f.cursor.move h.sources .next).2.outcome with
  | error e =>
      simp only [advance, hfirst] at hended
      cases hended
  | ok landed =>
      obtain rfl : landed = false := Bool.eq_false_iff.mpr fun htrue => hnot (htrue ▸ hfirst)
      have hstuck : f.cursor.Stuck h.sources := ⟨hfirst, Cursor.move_of_not_landed hnot⟩
      cases hcompleted : f.cursor.isCompleted h.sources with
      | false =>
          rw [(advance_of_stuck hstuck hcompleted).2] at hended
          cases hended
      | true =>
          rw [(advance_of_completed hstuck hcompleted).1]
          exact ⟨hstuck, (isCompleted_eq_true_iff f.cursor h.sources).mp hcompleted⟩

/-- An answer of a try is the answer of its round. -/
theorem advance_of_map_outcome
    (hended : (f.advance h).2.outcome.map (Option.map .ok) =
      (.ok (some (.ok false)) : Except Fault (Option (Except WaitError Bool)))) :
    (f.advance h).2.outcome = .ok (some false) := by
  generalize (f.advance h).2.outcome = outcome at hended ⊢
  match outcome with
  | .error e => cases hended
  | .ok none => cases hended
  | .ok (some moved) =>
      cases hended
      rfl

theorem final_of_round (hended : (f.round token h).answer.outcome = .ok (some (.ok false))) :
    (f.round token h).follower.cursor.Final (f.round token h).hub.sources := by
  cases f.round_cases token h with
  | cancelled _ _ outcome | refused _ _ _ outcome =>
      rw [outcome] at hended
      cases hended
  | first known hub follower outcome =>
      rw [follower, hub]
      exact final_of_advance (advance_of_map_outcome (outcome.symm.trans hended))
  | second watch hub follower outcome =>
      -- the second try looked at the shared state that the round left
      rw [follower]
      exact final_of_advance (advance_of_map_outcome (outcome.symm.trans hended))

theorem final_of_orSleep {a : Attempt (Option (Except WaitError Bool))}
    {sleep : Follower → Hub → Attempt Progress}
    (hround : a.answer.outcome = .ok (some (.ok false)) → a.follower.cursor.Final a.hub.sources)
    (hsleep : (sleep a.follower a.hub).answer.outcome = .ok (.ended (.ok false)) →
      (sleep a.follower a.hub).follower.cursor.Final (sleep a.follower a.hub).hub.sources)
    (hended : (orSleep a sleep).answer.outcome = .ok (.ended (.ok false))) :
    (orSleep a sleep).follower.cursor.Final (orSleep a sleep).hub.sources := by
  cases ha : a.answer.outcome with
  | error e =>
      simp only [orSleep, ha] at hended
      cases hended
  | ok answer? =>
      cases answer? with
      | none =>
          simp only [orSleep, ha] at hended ⊢
          exact hsleep hended
      | some answer =>
          simp only [orSleep, ha] at hended ⊢
          cases hended
          exact hround ha

/-- A start makes one round, or two if there was a permit. -/
theorem final_of_start (hended : (f.start token h).answer.outcome = .ok (.ended (.ok false))) :
    (f.start token h).follower.cursor.Final (f.start token h).hub.sources := by
  refine final_of_orSleep final_of_round (fun hslept => ?_) hended
  dsimp only at hslept ⊢
  split at hslept
  · next hpermit =>
      rw [if_pos hpermit]
      exact final_of_orSleep final_of_round nofun hslept
  · cases hslept

end Follower

/-- A cursor at the end ends every wait that is not cancelled, and needs no subscription for it. -/
theorem Follower.start_of_final {f : Follower} {token : Nat} {h : Hub}
    (hfinal : f.cursor.Final h.sources) (huncancelled : h.isCancelled token = false) :
    (f.start token h).hub = h ∧ (f.start token h).follower = f ∧
      (f.start token h).answer.outcome = .ok (.ended (.ok false)) := by
  have hcompleted := (isCompleted_eq_true_iff f.cursor h.sources).mpr hfinal.completed
  obtain ⟨hhub, hfollower, hanswer⟩ := round_of_completed huncancelled hfinal.stuck hcompleted
  obtain ⟨hhub', hfollower', hanswer'⟩ := start_of_answer hanswer
  exact ⟨hhub'.trans hhub, hfollower'.trans hfollower, hanswer'⟩

theorem Sleeper.final_of_poll {s : Sleeper} {h : Hub}
    (hended : (s.poll h).answer.outcome = .ok (.ended (.ok false))) :
    (s.poll h).follower.cursor.Final (s.poll h).hub.sources := by
  cases hcancelled : h.isCancelled s.token with
  | true =>
      rw [poll, if_pos hcancelled] at hended
      cases hended
  | false =>
      have huncancelled : ¬ h.isCancelled s.token = true := Bool.eq_false_iff.mp hcancelled
      cases hwaiter : (h.waiter s.follower.waiter).poll s.ticket with
      | mk woken w =>
          simp only [poll, if_neg huncancelled, hwaiter] at hended ⊢
          cases woken with
          | true => exact Follower.final_of_start hended
          | false => cases hended

namespace Reader

/-- A wait that came to the end leaves a cursor at the end. -/
theorem final_of_poll {r : Reading} {reader : Reader} {token : Nat} {h : Hub}
    (hended : (reader.poll r token h).answer.outcome = .ok (.ended (.ok false))) :
    (reader.poll r token h).follower.cursor.Final (reader.poll r token h).hub.sources := by
  cases reader with
  | resting f => exact Follower.final_of_start hended
  | asleep s => exact Sleeper.final_of_poll hended

/-- It is at the end in the shared state that remains of the wait. -/
theorem final_of_settle {r : Reading} {reader : Reader} {token : Nat} {h : Hub}
    (hended : (reader.poll r token h).answer.outcome = .ok (.ended (.ok false))) :
    (r.settle (reader.poll r token h) (.ended (.ok false))).1.follower.cursor.Final
      (r.settle (reader.poll r token h) (.ended (.ok false))).2.sources := by
  obtain ⟨hcursor, hsame⟩ := cursor_settle r (reader.poll r token h) (.ended (.ok false)) nofun
  rw [hcursor]
  exact (final_of_poll hended).retained hsame.onward.retains

end Reader

/-- The first poll of another wait with a cursor at the end. -/
theorem Reading.start_of_final (r : Reading) {f : Follower} {token : Nat} {h : Hub}
    (hfinal : f.cursor.Final h.sources) (huncancelled : h.isCancelled token = false) :
    (r.start f token h).hub = (r.prepare f h).2 ∧
      (r.start f token h).follower = (r.prepare f h).1 ∧
      (r.start f token h).answer.outcome = .ok (.ended (.ok false)) := by
  cases r with
  | lasting => exact Follower.start_of_final hfinal huncancelled
  | once =>
      have hnew : h.Onward (h.newTarget (.waiter {})).2 := Hub.onward_of_series rfl
      exact Follower.start_of_final (hfinal.retained hnew.retains) huncancelled

namespace Session

/-- Completion is final. Wherever a session goes on, a completed series has the entries and the
versions that it had. It refuses every call and every command but those that it skips and
completions, and tells nobody of them: a step of the session that tries changes nothing, and the
notifier is not called. And a cursor whose wait came to the end stays there: it never moves on, and
another wait that is not cancelled ends so at once, with the subscriptions that there were. -/
theorem completion_is_final {w w' : World} (h : Continues w w') :
    (∀ id, (w.hub.sources id).isCompleted = true →
      ((w'.hub.sources id).store = (w.hub.sources id).store ∧
        (w'.hub.sources id).version = (w.hub.sources id).version ∧
        (w'.hub.sources id).nextVersion = (w.hub.sources id).nextVersion ∧
        (w'.hub.sources id).isCompleted = true) ∧
      (w'.hub.sources id).Refuses ∧
      ∀ (step : Step) (name : String) (m : Mutation), step.mutation? = some (name, m) →
        w'.object? name = some (.series id) → ∀ notify, ∃ reports,
          (answer notify step w').2 = { w' with hub := { w'.hub with reports := reports } }) ∧
    ∀ (r : Reading) (reader : Reader) (token : Nat) (hub : Hub),
      (reader.poll r token hub).answer.outcome = .ok (.ended (.ok false)) →
      w.hub = (r.settle (reader.poll r token hub) (.ended (.ok false))).2 →
      ∀ c, c = (r.settle (reader.poll r token hub) (.ended (.ok false))).1.follower.cursor →
        ((c.move w'.hub.sources .next).2.outcome = .ok false ∧
          (c.move w'.hub.sources .next).1 = c) ∧
        ∀ (r' : Reading) (f : Follower) (token' : Nat), f.cursor = c →
          w'.hub.isCancelled token' = false →
          (r'.start f token' w'.hub).answer.outcome = .ok (.ended (.ok false)) ∧
            (r'.start f token' w'.hub).follower = (r'.prepare f w'.hub).1 ∧
            (r'.start f token' w'.hub).hub = (r'.prepare f w'.hub).2 := by
  have hretains := h.retains
  constructor
  · intro id hs
    have hs' := hretains.completed id hs
    exact ⟨⟨hretains.store id hs, hretains.version id hs, hretains.nextVersion id hs, hs'⟩,
      Series.refuses_of_completed hs',
      fun step name m hstep hname notify => answer_of_completed hs' hstep hname notify⟩
  · -- the cursor was at the end when the wait was over, and what it saw is retained
    rintro r reader token hub hended hhub c rfl
    have hfinal := Reader.final_of_settle hended
    rw [← hhub] at hfinal
    have hfinal' := hfinal.retained hretains
    refine ⟨hfinal'.stuck, ?_⟩
    intro r' f token' hf huncancelled
    rw [← hf] at hfinal'
    obtain ⟨hhub', hfollower, hanswer⟩ := r'.start_of_final hfinal' huncancelled
    exact ⟨hanswer, hfollower, hhub'⟩

/-! A cursor over the pairs of two completed series waits at the last key that both of them have. Then
an entry is offered to the first series at a key which the second one has, and one to the second. -/

/-- A completed series with the entries. -/
def closedSeries (entries : List Entry) : Series := (Series.ofList entries).complete.settled

/-- The two series, and a waiter. -/
def closedPair : Hub :=
  { series := [closedSeries [(.int 2, .int 20), (.int 4, .int 40)],
      closedSeries [(.int 1, .int 100), (.int 4, .int 400), (.int 5, .int 500)]]
    targets := [.waiter {}]
    tokens := [false] }

/-- The cursor at the key 4. -/
def atLastPair : Cursor :=
  (((Cursor.ofSeries 0).zip closedPair.sources (.ofSeries 1)).move closedPair.sources .last).1

/-- Its follower. -/
def pairFollower : Follower := { cursor := atLastPair, waiter := 0 }

/-- The session in which it waited and came to the end. -/
def endedWorld : World :=
  { hub := (Reading.lasting.settle ((Reader.resting pairFollower).poll .lasting 0 closedPair)
      (.ended (.ok false))).2
    objects := [("left", .series 0), ("right", .series 1)] }

/-- The session after both offers. -/
def triedWorld : World :=
  (step (.series "right" (.append [(.int 6, .int 600)] .reject))
    (step (.series "left" (.set (.int 5) (.int 50))) endedWorld).2).2

theorem completion_is_final_closedPair :
    atLastPair.standpoint triedWorld.hub.sources = some (.int 4) ∧
      (atLastPair.move triedWorld.hub.sources .next).2.outcome = .ok false ∧
      (atLastPair.move triedWorld.hub.sources .next).1 = atLastPair ∧
      (Reading.once.start pairFollower 0 triedWorld.hub).answer.outcome =
        .ok (.ended (.ok false)) ∧
      (triedWorld.hub.sources 0).Refuses ∧ (triedWorld.hub.sources 1).Refuses := by
  have hended : ((Reader.resting pairFollower).poll .lasting 0 closedPair).answer.outcome =
      .ok (.ended (.ok false)) := rfl
  have hcontinues : Continues endedWorld triedWorld :=
    .leads ((Leads.refl.session_step (.series "left" (.set (.int 5) (.int 50)))).session_step
      (.series "right" (.append [(.int 6, .int 600)] .reject))) .refl
  obtain ⟨hseries, hcursors⟩ := completion_is_final hcontinues
  obtain ⟨⟨houtcome, hstays⟩, hwaits⟩ :=
    hcursors .lasting (.resting pairFollower) 0 closedPair hended rfl atLastPair rfl
  exact ⟨rfl, houtcome, hstays, (hwaits .once pairFollower 0 rfl rfl).1,
    (hseries 0 rfl).2.1, (hseries 1 rfl).2.1⟩

end Session

end LiveSeries
