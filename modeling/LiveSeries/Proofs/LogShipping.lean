import LiveSeries.Proofs.Mutation
import LiveSeries.Proofs.SeriesEdits

/-!
# Shipping a log

A producer changes its series by calls, and for each call that published it ships a command to a
replica. If both begin with the same entries under the same version, and the replica is not
completed before the producer, then the replica takes every command as the next one, and is like the
producer after each (`Series.lockstep_applies`).

The two make a change in different ways. The producer decides whether there is anything to publish
and takes the next version; the replica publishes always, under the version that it is told. One
call and its command therefore have to agree on the store (`Edit.act_command`) and on the version,
and the rest is an induction on the calls.
-/

namespace LiveSeries

/-- A call of a producer. -/
inductive ProducerCall where
  | edit (e : Edit)
  | complete

namespace ProducerCall

/-- The call on the series of the producer. -/
def write (p : Series) : ProducerCall → Write Unit
  | .edit e => (e.run p).discard
  | .complete => p.complete.discard

/-- The series of the producer after the call. -/
def after (p : Series) (call : ProducerCall) : Series := (call.write p).settled

/-- The call published something. -/
def Publishes (p : Series) (call : ProducerCall) : Prop := (call.write p).notice.isSome = true

instance (p : Series) (call : ProducerCall) : Decidable (call.Publishes p) :=
  inferInstanceAs (Decidable (_ = true))

/-- The command that is shipped for the call. An edit is shipped under the version that it
published. A completion publishes none, and may be shipped under any version that is not ahead of
the next one. -/
def shipped (id : Nat) (stamp : Nat → Nat) (p : Series) : ProducerCall → StampedCommand
  | .edit e => ⟨id, ((ProducerCall.edit e).after p).version, e.command⟩
  | .complete => ⟨id, stamp p.version, .complete⟩

/-- What a replica answers to the command of a call that left this version. -/
def outcome (version : Nat) : ProducerCall → Outcome
  | .edit _ => .applied version
  | .complete => .completed

/-- What a replica reports of the command of a call that left this version. -/
def event (version : Nat) : ProducerCall → Event
  | .edit _ => .published version
  | .complete => .completed version

end ProducerCall

namespace Series

/-- The series hold the same entries under the same version, and both or none are completed. -/
structure Alike (r p : Series) : Prop where
  store : r.store = p.store
  version : r.version = p.version
  next : r.nextVersion = p.nextVersion
  completed : r.isCompleted = p.isCompleted

/-! ## One call -/

theorem Alike.published {r p : Series} (h : r.Alike p) (store : Store) (version : Nat) :
    (r.published store version).Alike (p.published store version) :=
  ⟨rfl, rfl, rfl, h.completed⟩

theorem Alike.closed {r p : Series} (h : r.Alike p) : r.closed.Alike p.closed :=
  ⟨h.store, h.version, h.version, rfl⟩

/-- A replica that is like its producer takes writes if the producer does. -/
theorem Alike.writable {r p : Series} (h : r.Alike p) (hr : r.AtRest) (hp : p.Writable) :
    r.Writable where
  toAtRest := hr
  incomplete := h.completed.trans hp.incomplete
  below := h.version.symm ▸ hp.below

/-- The replica takes the command of an edit that published, and is like the producer again. -/
theorem Alike.apply_edit {r p : Series} (h : r.Alike p) (hr : r.AtRest) (hp : p.AtRest) {e : Edit}
    (hpublishes : (ProducerCall.edit e).Publishes p) (id : Nat) (stamp : Nat → Nat) :
    ∃ r', (r.apply ((ProducerCall.edit e).shipped id stamp p)).Publishes
        (.applied ((ProducerCall.edit e).after p).version)
        (.published ((ProducerCall.edit e).after p).version) r' ∧
      r'.AtRest ∧ r'.Alike ((ProducerCall.edit e).after p) := by
  rcases hp.run_cases e with ⟨hquiet, -⟩ | ⟨hwritable, a, store, hchange, hrun⟩
  · have hnotice : (e.run p).notice.isSome = true := hpublishes
    rw [hquiet] at hnotice
    cases hnotice
  · have hafter : (ProducerCall.edit e).after p = p.published store (p.version + 1) := hrun.settled
    have hact : e.command.act r.store = .ok store := by
      rw [h.store]
      exact Edit.act_command hchange
    have hversion : p.version + 1 = r.version + 1 := by rw [h.version]
    rw [ProducerCall.shipped, hafter]
    exact ⟨r.published store (p.version + 1),
      (h.writable hr hwritable).publishes_apply e.command_ne_complete hversion hact,
      hr.published _ _, h.published _ _⟩

/-- The replica takes the command of a completion, and is like the producer again. -/
theorem Alike.apply_complete {r p : Series} (h : r.Alike p) (hr : r.AtRest) (hp : p.AtRest)
    (hpublishes : ProducerCall.complete.Publishes p) (hbelow : p.version < Gate.lastVersion)
    (id : Nat) {stamp : Nat → Nat} (hstamp : ∀ v, stamp v ≤ v + 1) :
    ∃ r', (r.apply (ProducerCall.complete.shipped id stamp p)).Publishes .completed
        (.completed (ProducerCall.complete.after p).version) r' ∧
      r'.AtRest ∧ r'.Alike (ProducerCall.complete.after p) := by
  cases hcompleted : p.isCompleted with
  | true =>
      have hnotice : p.complete.notice.isSome = true := hpublishes
      rw [hp.complete_of_completed hcompleted] at hnotice
      cases hnotice
  | false =>
      have hafter : ProducerCall.complete.after p = p.closed :=
        (hp.publishes_complete hcompleted).settled
      have hwritable := h.writable hr ⟨hp, hcompleted, hbelow⟩
      have hversion : stamp p.version ≤ r.version + 1 := by
        rw [h.version]
        exact hstamp p.version
      have happly := hwritable.completes_apply
        (c := ProducerCall.complete.shipped id stamp p) rfl hversion
      rw [h.version] at happly
      rw [hafter]
      exact ⟨r.closed, happly, hr.closed, h.closed⟩

/-- The replica takes the command of a call that published, and is like the producer again. -/
theorem Alike.apply {r p : Series} (h : r.Alike p) (hr : r.AtRest) (hp : p.AtRest)
    {call : ProducerCall} (hpublishes : call.Publishes p) (hbelow : p.version < Gate.lastVersion)
    (id : Nat) {stamp : Nat → Nat} (hstamp : ∀ v, stamp v ≤ v + 1) :
    ∃ r', (r.apply (call.shipped id stamp p)).Publishes (call.outcome (call.after p).version)
        (call.event (call.after p).version) r' ∧ r'.AtRest ∧ r'.Alike (call.after p) := by
  cases call with
  | edit e => exact h.apply_edit hr hp hpublishes id stamp
  | complete => exact h.apply_complete hr hp hpublishes hbelow id hstamp

/-! ## A run of calls -/

/-- A call that does not publish leaves the series of the producer as it is. -/
theorem AtRest.after_of_quiet {p : Series} (hp : p.AtRest) {call : ProducerCall}
    (hquiet : ¬ call.Publishes p) : call.after p = p := by
  cases call with
  | edit e =>
      rcases hp.run_cases e with ⟨-, hsame⟩ | ⟨-, a, store, -, hrun⟩
      · exact hsame
      · exact absurd hrun.notice hquiet
  | complete =>
      cases hcompleted : p.isCompleted with
      | true =>
          show p.complete.settled = p
          rw [hp.complete_of_completed hcompleted]
          rfl
      | false => exact absurd (hp.publishes_complete hcompleted).notice hquiet

/-- No call on a completed series publishes. -/
theorem AtRest.quiet_of_completed {p : Series} (hp : p.AtRest) (hcompleted : p.isCompleted = true)
    (call : ProducerCall) : ¬ call.Publishes p := by
  intro hpublishes
  have hnone : (call.write p).notice = none := by
    cases call with
    | edit e =>
        rcases hp.run_cases e with ⟨hquiet, -⟩ | ⟨hwritable, -⟩
        · exact hquiet
        · rw [hwritable.incomplete] at hcompleted
          cases hcompleted
    | complete =>
        show p.complete.notice = none
        rw [hp.complete_of_completed hcompleted]
  rw [ProducerCall.Publishes, hnone] at hpublishes
  cases hpublishes

theorem AtRest.after {p : Series} (hp : p.AtRest) (call : ProducerCall) :
    (call.after p).AtRest := by
  by_cases hpublishes : call.Publishes p
  · cases call with
    | edit e => exact hp.settled_run e
    | complete =>
        have hopen : p.isCompleted = false :=
          Bool.eq_false_iff.mpr fun hcompleted => hp.quiet_of_completed hcompleted _ hpublishes
        show p.complete.settled.AtRest
        rw [(hp.publishes_complete hopen).settled]
        exact hp.closed
  · rw [hp.after_of_quiet hpublishes]
    exact hp

/-- The producer and the replica after calls, if every call that published was shipped. -/
def lockstep (id : Nat) (stamp : Nat → Nat) (p r : Series) (calls : List ProducerCall) :
    Series × Series :=
  calls.foldl (fun now call => (call.after now.1,
    if call.Publishes now.1 then (now.2.apply (call.shipped id stamp now.1)).settled
    else now.2)) (p, r)

/-- The invariant of a run: the replica is like the producer, or no command will be shipped any
more. -/
structure InStep (p r : Series) : Prop where
  producer : p.AtRest
  alike : p.isCompleted = true ∨ r.AtRest ∧ r.Alike p

theorem InStep.step {p r : Series} (h : InStep p r) (call : ProducerCall) (id : Nat)
    (stamp : Nat → Nat) :
    InStep (call.after p)
      (if call.Publishes p then (r.apply (call.shipped id stamp p)).settled else r) := by
  refine ⟨h.producer.after call, ?_⟩
  by_cases hpublishes : call.Publishes p
  · rw [if_pos hpublishes]
    rcases h.alike with hcompleted | ⟨hr, halike⟩
    · exact absurd hpublishes (h.producer.quiet_of_completed hcompleted call)
    · cases call with
      | edit e =>
          obtain ⟨r', happly, hrest, hlike⟩ :=
            halike.apply_edit hr h.producer hpublishes id stamp
          rw [happly.settled]
          exact .inr ⟨hrest, hlike⟩
      | complete =>
          -- after a completion nothing is shipped, whatever the replica made of it
          have hopen : p.isCompleted = false := Bool.eq_false_iff.mpr fun hcompleted =>
            h.producer.quiet_of_completed hcompleted _ hpublishes
          have hafter : ProducerCall.complete.after p = p.closed :=
            (h.producer.publishes_complete hopen).settled
          rw [hafter]
          exact .inl rfl
  · rw [if_neg hpublishes, h.producer.after_of_quiet hpublishes]
    exact h.alike

theorem InStep.lockstep {p r : Series} (h : InStep p r) (id : Nat) (stamp : Nat → Nat)
    (calls : List ProducerCall) :
    InStep (lockstep id stamp p r calls).1 (lockstep id stamp p r calls).2 := by
  induction calls generalizing p r with
  | nil => exact h
  | cons call rest ih => exact ih (h.step call id stamp)

/-- Whatever the producer did before, a replica that began like it takes the command of its next
publication, answers with its version, reports no more than the publication itself, and is like the
producer again. -/
theorem lockstep_applies {p r : Series} (hp : p.AtRest) (hr : r.AtRest)
    (hentries : r.store.entries = p.store.entries) (hversion : r.version = p.version)
    (hopen : r.isCompleted = true → p.isCompleted = true) (id : Nat) {stamp : Nat → Nat}
    (hstamp : ∀ v, stamp v ≤ v + 1) (calls : List ProducerCall) (call : ProducerCall)
    {p' r' : Series} (hnow : lockstep id stamp p r calls = (p', r'))
    (hbelow : p'.version < Gate.lastVersion) (hpublishes : call.Publishes p') :
    (r'.apply (call.shipped id stamp p')).result =
        .ok (call.outcome (call.after p').version) ∧
      (r'.apply (call.shipped id stamp p')).events = [call.event (call.after p').version] ∧
      ∃ r'', (r'.apply (call.shipped id stamp p')).settled = r'' ∧
        r''.store.entries = (call.after p').store.entries ∧
        r''.version = (call.after p').version ∧
        r''.nextVersion = (call.after p').nextVersion ∧
        r''.isCompleted = (call.after p').isCompleted := by
  -- a completed producer ships nothing, so its replica need not be like it
  have hbegin : InStep p r := by
    refine ⟨hp, ?_⟩
    cases hcompleted : p.isCompleted with
    | true => exact .inl rfl
    | false =>
        have hopen' : r.isCompleted = false := Bool.eq_false_iff.mpr fun hr' => by
          rw [hopen hr'] at hcompleted
          cases hcompleted
        exact .inr ⟨hr, Store.ext hentries, hversion,
          hr.next.trans (hversion.trans hp.next.symm), hopen'.trans hcompleted.symm⟩
  have hinstep := hbegin.lockstep id stamp calls
  rw [hnow] at hinstep
  rcases hinstep.alike with hcompleted | ⟨hr', halike⟩
  · exact absurd hpublishes (hinstep.producer.quiet_of_completed hcompleted call)
  · obtain ⟨r'', happly, -, hlike⟩ :=
      halike.apply hr' hinstep.producer hpublishes hbelow id hstamp
    exact ⟨happly.result, happly.events, r'', happly.settled, congrArg Store.entries hlike.store,
      hlike.version, hlike.next, hlike.completed⟩

/-- A producer at version two, and its replica. -/
def shippedTwice : Series × Series :=
  lockstep 7 id (ofList [(.int 1, .int 10)]) (ofList [(.int 1, .int 10)])
    [.edit (.remove (.int 1)), .edit (.tryAdd (.int 2) (.int 20)),
      .edit (.tryAdd (.int 2) (.int 21))]

/-- The producer appends one entry that it has and one that is new. -/
def appendTwo : ProducerCall := .edit (.append [(.int 2, .int 20), (.int 3, .int 30)] .acceptEqual)

theorem lockstep_applies_append :
    (shippedTwice.2.apply (appendTwo.shipped 7 id shippedTwice.1)).result = .ok (.applied 3) :=
  (lockstep_applies ⟨rfl, rfl, by decide⟩ ⟨rfl, rfl, by decide⟩ rfl rfl (fun h => h) 7
    (fun v => Nat.le_succ v)
    [.edit (.remove (.int 1)), .edit (.tryAdd (.int 2) (.int 20)),
      .edit (.tryAdd (.int 2) (.int 21))]
    appendTwo (rfl : shippedTwice = (shippedTwice.1, shippedTwice.2)) (by decide) (by decide)).1

/-- A replica that was completed before its producer refuses what the producer publishes, though it
has the same entries under the same version. -/
theorem completed_replica_refuses :
    ({} : Series).AtRest ∧ ({} : Series).closed.AtRest ∧
      ({} : Series).closed.store.entries = ({} : Series).store.entries ∧
      ({} : Series).closed.version = ({} : Series).version ∧
      (ProducerCall.edit (.set (.int 1) (.int 10))).Publishes {} ∧
      (({} : Series).closed.apply
        ((ProducerCall.edit (.set (.int 1) (.int 10))).shipped 7 id {})).result ≠
          .ok (.applied ((ProducerCall.edit (.set (.int 1) (.int 10))).after {}).version) :=
  ⟨⟨rfl, rfl, by decide⟩, ⟨rfl, rfl, by decide⟩, rfl, rfl, rfl, nofun⟩

end Series

end LiveSeries
