import LiveSeries.Proofs.HubWrites
import LiveSeries.Proofs.SortedMap
import LiveSeries.Session.World

/-!
# Failed mutations

A mutation can fail in many places: before it enters the gate, at the gate, on the store when the
next version is open already, and when it is to be published. Wherever it fails, it leaves the
series, the registry and the targets as they were, and the gate as free as it found it
(`Series.failed_changes_nothing`). The same holds of a command that is skipped.

Two facts carry this. A write is done as a whole, and then it answers, or else it hands the series
back as it is (`Series.Whole`). And to enter the gate and leave it again with nothing published
changes nothing, because no version is ever left open (`Series.Reachable.next`).
-/

namespace LiveSeries

/-- The mutation of a call. -/
def Edit.mutation : Edit → Mutation
  | .set k v => .set k v
  | .add k v => .add k v
  | .tryAdd k v => .tryAdd k v
  | .addFirst k v => .addFirst k v
  | .addLast k v => .addLast k v
  | .remove k => .remove k
  | .removeMany k lookup => .removeMany k lookup
  | .append entries option => .append entries option

theorem Edit.mutation_ne_command (e : Edit) (c : StampedCommand) : e.mutation ≠ .command c := by
  cases e <;> nofun

namespace Mutation

/-- The mutation gives an error or ends abruptly, or it is a command that is skipped. -/
inductive Fails (s : Series) : Mutation → Prop where
  | error {m : Mutation} {e : Failure} (result : (m.write s).result = .error e) : m.Fails s
  | skipped {c : StampedCommand} (result : (s.apply c).result = .ok .skipped) :
      (command c).Fails s

/-- Nothing in the entries of the series or in its version speaks against the mutation. -/
inductive Valid (s : Series) : Mutation → Prop where
  | edit {e : Edit} {change : e.Answer × Option (List Entry)}
      (accepted : e.onMap s.store.entries = .ok change) : e.mutation.Valid s
  | complete : Mutation.complete.Valid s
  /-- The command of a call that the entries accept, if it is ahead. -/
  | command {c : StampedCommand} {e : Edit} {change : e.Answer × Option (List Entry)}
      (stands : c.command = e.command) (ahead : s.version < c.version)
      (accepted : e.onMap s.store.entries = .ok change) : (Mutation.command c).Valid s
  | completion {c : StampedCommand} (stands : c.command = .complete) :
      (Mutation.command c).Valid s

theorem not_fails_of_result {s : Series} {m : Mutation} (hm : ∀ c, m ≠ command c)
    (h : (m.write s).result = .ok ()) : ¬ m.Fails s := by
  intro hfails
  cases hfails with
  | error hresult =>
      rw [h] at hresult
      cases hresult
  | skipped => exact hm _ rfl

theorem not_fails_of_outcome {s : Series} {c : StampedCommand} {o : Outcome} (ho : o ≠ .skipped)
    (h : (s.apply c).result = .ok o) : ¬ (command c).Fails s := by
  intro hfails
  cases hfails with
  | error hresult =>
      have herror : (s.apply c).result.map (fun _ => ()) = .error _ := hresult
      rw [h] at herror
      cases herror
  | skipped hresult =>
      rw [h] at hresult
      cases hresult
      exact ho rfl

end Mutation

namespace Series

/-! ## Reachable series -/

/-- The series that come about. Targets see a series while its writer holds the gate; they may
subscribe, and mutate it themselves. -/
inductive Reachable : Series → Prop where
  | make {changes : List (Setting × Nat)} {settings : Settings} {store : Store} {s : Series}
      (known : Settings.ofChanges changes = .ok settings) (made : make settings store = .ok s) :
      Reachable s
  | ofList (entries : List Entry) : Reachable (ofList entries)
  /-- The series as the targets of a mutation see it, or as the mutation left it if there are
  none. -/
  | write {s : Series} (m : Mutation) : Reachable s → Reachable (m.write s).series
  /-- The writer leaves the gate. -/
  | settle {s : Series} : Reachable s → Reachable s.settle
  /-- Subscriptions come, go, and ask for notifications. -/
  | registry {s : Series} (r : Registry) : Reachable s → Reachable { s with registry := r }

/-! ## Whole writes -/

/-- A write is done as a whole, and its answer says so, or it leaves the series as it is and
notifies nobody. -/
inductive Whole {α : Type} (Tells : α → Prop) (s : Series) (w : Write α) : Prop where
  | void (series : w.series = s) (notice : w.notice = none)
  | done (a : α) (tells : Tells a) (result : w.result = .ok a)
      (next : w.series.nextVersion = w.series.version)
      (settings : w.series.settings = s.settings)

section Whole

variable {α : Type} {s : Series}

theorem nextVersion_publishAs {g g' : Gate} {version : Nat} (h : g.publishAs version = .ok g') :
    g'.nextVersion = g'.version := by
  unfold Gate.publishAs at h
  split at h
  · cases h
    rfl
  · cases h

theorem whole_write (hs : s.nextVersion = s.version) (f : Store → Except Refusal (Change α)) :
    Whole (fun _ => True) s (s.write f) := by
  unfold write
  split
  · exact .void rfl rfl
  · next gate henter =>
      have hgive := giveUp_of_enter hs henter
      split
      · exact .void hgive rfl
      · exact .void hgive rfl
      · exact .done _ trivial rfl rfl rfl

theorem whole_writeAs (hs : s.nextVersion = s.version) (version : Nat)
    (f : Store → Except Refusal (Change α)) :
    Whole (fun _ => True) s (s.writeAs version f) := by
  unfold writeAs
  split
  · exact .void rfl rfl
  · next gate henter =>
      have hgive := giveUp_of_enter hs henter
      split
      · exact .void hgive rfl
      · split
        · exact .void hgive rfl
        · split
          · exact .void hgive rfl
          · next hpublish => exact .done _ trivial rfl (nextVersion_publishAs hpublish) rfl

/-- A completion is done by the call that answers true. -/
theorem whole_complete (s : Series) : Whole (· = true) s s.complete := by
  unfold complete
  split
  · exact .void rfl rfl
  · exact .void rfl rfl
  · next gate hcomplete =>
      refine .done true rfl rfl ?_ rfl
      unfold Gate.complete at hcomplete
      split at hcomplete
      · cases hcomplete
      · split at hcomplete
        · cases hcomplete
        · cases hcomplete
          rfl

/-- What a write comes to does not depend on how its answer is put, nor on what is reported. -/
theorem Whole.map {β : Type} {Tells : α → Prop} {Tells' : β → Prop} {w : Write α} {w' : Write β}
    (h : Whole Tells s w) {g : α → β} (hg : ∀ a, Tells a → Tells' (g a))
    (hresult : w'.result = w.result.map g) (hseries : w'.series = w.series)
    (hnotice : w'.notice = w.notice) : Whole Tells' s w' := by
  cases h with
  | void series notice => exact .void (hseries.trans series) (hnotice.trans notice)
  | done a tells result next settings =>
      refine .done (g a) (hg a tells) ?_ (hseries ▸ next) (hseries ▸ settings)
      rw [hresult, result]
      rfl

/-- A command that is done is not answered as skipped. -/
theorem whole_perform (hs : s.nextVersion = s.version) (version : Nat) (c : Command) :
    Whole (· ≠ .skipped) s (s.perform version c) := by
  have hversioned : ∀ {β : Type} (f : Store → Except Refusal (Change β)),
      Whole (· ≠ .skipped) s (asApplied version (s.writeAs version f)) := fun f =>
    (whole_writeAs hs version f).map (g := fun _ => .applied version) (fun _ _ => nofun) rfl rfl rfl
  cases c with
  | set k v => exact hversioned _
  | append entries option =>
      simp only [perform]
      split
      · exact hversioned _
      · exact .void rfl rfl
  | remove k lookup => exact hversioned _
  | complete =>
      refine (whole_complete s).map (g := fun first => if first then .completed else .skipped) ?_
        rfl rfl rfl
      rintro first rfl
      decide

theorem whole_apply (hs : s.nextVersion = s.version) (c : StampedCommand) :
    Whole (· ≠ .skipped) s (s.apply c) := by
  unfold apply
  dsimp only
  split
  · exact .void rfl rfl
  · split
    · exact .void rfl rfl
    · -- what is reported of the versions passed over is no part of the write
      cases whole_perform hs c.version c.command with
      | void series notice => exact .void series notice
      | done o tells result next settings => exact .done o tells result next settings

theorem Whole.discard {Tells : α → Prop} {w : Write α} (h : Whole Tells s w) :
    Whole (fun _ => True) s w.discard :=
  h.map (g := fun _ => ()) (fun _ _ => trivial) rfl rfl rfl

/-- Every mutation is whole. -/
theorem whole_mutation (hs : s.nextVersion = s.version) (m : Mutation) :
    Whole (fun _ => True) s (m.write s) := by
  cases m.kind s with
  | write f is =>
      rw [is]
      exact (whole_write hs f).discard
  | refused r is =>
      rw [is]
      exact .void rfl rfl
  | complete => exact (whole_complete s).discard
  | command c => exact (whole_apply hs c).discard

/-- A mutation that fails is not done. -/
theorem void_of_fails (hs : s.nextVersion = s.version) {m : Mutation} (hm : m.Fails s) :
    (m.write s).series = s ∧ (m.write s).notice = none := by
  cases hm with
  | error hresult =>
      cases whole_mutation hs m with
      | void series notice => exact ⟨series, notice⟩
      | done a _ result =>
          rw [hresult] at result
          cases result
  | @skipped c hresult =>
      cases whole_apply hs c with
      | void series notice => exact ⟨series, notice⟩
      | done a tells result =>
          rw [hresult] at result
          cases result
          exact absurd rfl tells

end Whole

/-! ## What all reachable series have in common -/

/-- No version is open where a series can be seen, and a snapshot can copy entries. -/
theorem Reachable.next_and_page {s : Series} (h : s.Reachable) :
    s.nextVersion = s.version ∧ 0 < s.settings.pageSize := by
  induction h with
  | make known made =>
      have hrest := atRest_make known made
      exact ⟨hrest.next, hrest.page⟩
  | ofList entries =>
      have hpage : 0 < ({} : Settings).pageSize := by decide
      exact ⟨rfl, hpage⟩
  | @write s m _ ih =>
      cases whole_mutation ih.1 m with
      | void series notice => rw [series]; exact ih
      | done _ _ _ next settings => rw [settings]; exact ⟨next, ih.2⟩
  | settle _ ih => exact ih
  | registry r _ ih => exact ih

/-- A reachable series whose gate is free takes writes, unless it is completed or has no version
left. -/
theorem Reachable.writable {s : Series} (h : s.Reachable) (hfree : s.gate.locked = false)
    (hopen : s.isCompleted = false) (hbelow : s.version < Gate.lastVersion) : s.Writable :=
  ⟨⟨hfree, h.next_and_page.1, h.next_and_page.2⟩, hopen, hbelow⟩

/-! ## Mutations that succeed -/

/-- A call that the entries accept is answered. -/
theorem Writable.result_run {s : Series} (h : s.Writable) {e : Edit}
    {change : e.Answer × Option (List Entry)} (haccepted : e.onMap s.store.entries = .ok change) :
    ∃ a, (e.run s).result = .ok a := by
  rw [← e.change_eq_onMap] at haccepted
  cases hchange : e.change s.store with
  | error r =>
      rw [hchange] at haccepted
      cases haccepted
  | ok made =>
      obtain ⟨a, changed⟩ := made
      cases changed with
      | none => exact ⟨a, congrArg Write.result (h.run_of_unchanged hchange)⟩
      | some store => exact ⟨a, (h.publishes_run hchange).result⟩

theorem result_mutation {s : Series} {e : Edit} {a : e.Answer} (h : (e.run s).result = .ok a) :
    (e.mutation.write s).result = .ok () := by
  cases e with
  | add | addFirst | addLast => exact h
  | set | tryAdd | remove | removeMany | append => exact congrArg (Except.map fun _ => ()) h

/-- The command of a call that the entries accept acts on the store. -/
theorem exists_act {store : Store} {e : Edit} {change : e.Answer × Option (List Entry)}
    (haccepted : e.onMap store.entries = .ok change) :
    ∃ store', e.command.act store = .ok store' := by
  rw [← e.change_eq_onMap] at haccepted
  cases e with
  | append entries option =>
      show ∃ store', (if increases entries then
        (store.append entries option).map fun change => change.2.getD store
        else .error .outOfOrder) = .ok store'
      change (if increases entries then store.append entries option else .error .outOfOrder).map
        Change.entries = .ok change at haccepted
      by_cases hincreases : increases entries = true
      · rw [if_pos hincreases] at haccepted ⊢
        cases happend : store.append entries option with
        | error r =>
            rw [happend] at haccepted
            cases haccepted
        | ok made => exact ⟨_, rfl⟩
      · rw [if_neg hincreases] at haccepted
        cases haccepted
  | _ => exact ⟨_, rfl⟩

/-- A command that is ahead is performed; that versions were passed over is only reported. -/
theorem Writable.result_apply {s : Series} (h : s.Writable) {c : StampedCommand}
    (hc : s.version < c.version ∨ c.command = .complete) :
    (s.apply c).result = (s.perform c.version c.command).result := by
  have hdue : ¬ (c.version ≤ s.version ∧ c.command ≠ .complete) := by
    rintro ⟨hle, hne⟩
    rcases hc with hlt | heq
    · exact Nat.not_le.mpr hlt hle
    · exact hne heq
  unfold apply
  dsimp only
  rw [if_neg hdue, if_neg (Nat.ne_of_lt h.below)]
  rfl

/-- A series that takes writes takes all that nothing speaks against. -/
theorem Writable.not_fails {s : Series} (h : s.Writable) {m : Mutation} (hm : m.Valid s) :
    ¬ m.Fails s := by
  cases hm with
  | @edit e _ haccepted =>
      obtain ⟨a, hrun⟩ := h.result_run haccepted
      exact Mutation.not_fails_of_result (e.mutation_ne_command) (result_mutation hrun)
  | complete =>
      have hcomplete := (h.publishes_complete h.incomplete).result
      exact Mutation.not_fails_of_result (fun _ => nofun)
        (congrArg (Except.map fun _ => ()) hcomplete)
  | @command c e _ stands ahead haccepted =>
      obtain ⟨store, hact⟩ := exists_act haccepted
      rw [← stands] at hact
      have hne : c.command ≠ .complete := stands ▸ e.command_ne_complete
      refine Mutation.not_fails_of_outcome (o := .applied c.version) nofun ?_
      rw [h.result_apply (.inl ahead)]
      exact (h.publishes_perform ahead hne hact).result
  | @completion c stands =>
      refine Mutation.not_fails_of_outcome (o := .completed) nofun ?_
      rw [h.result_apply (.inr stands), stands, perform, (h.publishes_complete h.incomplete).result]
      rfl

end Series

/-- A write that left its series as it was, and notifies nobody, is reported and no more. -/
theorem World.settle_of_void {α : Type} (notify : Notice → World → World) {id : SourceId}
    {w : World} {write : Write α} (hseries : write.series = w.hub.sources id)
    (hnotice : write.notice = none) :
    ∃ reports, w.settle notify id write = { w with hub := { w.hub with reports := reports } } := by
  refine ⟨write.events.reverse ++ w.hub.reports, ?_⟩
  have hsame : w.hub.setSeries id write.series = w.hub := by
    rw [hseries]
    exact Hub.setSeries_sources w.hub id
  rw [World.settle, hnotice, Hub.commit, hsame, Hub.foldl_report]

namespace Series

/-! ## Failed mutations -/

/-- A mutation that fails on a series leaves it as it is, with its versions and flags, the requests
of its subscriptions and its lock, and invokes no target. In a session, whatever it means to invoke
a target, nothing changes but what was reported. If the gate is free, and the series is not
completed and has a version left, then it takes the next mutation that nothing speaks against. -/
theorem failed_changes_nothing {s : Series} (hs : s.Reachable) {m : Mutation} (hm : m.Fails s) :
    (m.write s).series = s ∧ (m.write s).notice = none ∧
      (∀ (notify : Notice → World → World) (id : SourceId) (w : World), w.hub.sources id = s →
        ∃ reports, w.settle notify id (m.write s) =
          { w with hub := { w.hub with reports := reports } }) ∧
      (s.gate.locked = false → s.isCompleted = false → s.version < Gate.lastVersion →
        ∀ next : Mutation, next.Valid s → ¬ next.Fails (m.write s).settled) := by
  obtain ⟨hseries, hnotice⟩ := void_of_fails hs.next_and_page.1 hm
  -- all the rest follows from the series being as it was, and nobody being notified
  refine ⟨hseries, hnotice, ?_, ?_⟩
  · intro notify id w hw
    exact World.settle_of_void notify (hseries.trans hw.symm) hnotice
  · intro hfree hopen hbelow next hnext
    have hsettled : (m.write s).settled = s := by
      rw [Write.settled, hnotice]
      exact hseries
    rw [hsettled]
    exact (hs.writable hfree hopen hbelow).not_fails hnext

/-- A series of two entries. -/
def twoEntries : Series := ofList [(.int 1, .int 10), (.int 2, .int 20)]

/-- An append that repeats the first of the two entries and contradicts the second. -/
def contradiction : Mutation :=
  .append [(.int 1, .int 10), (.int 2, .int 21), (.int 3, .int 30)] .acceptEqual

theorem failed_changes_nothing_halfway :
    (contradiction.write twoEntries).result = .error (.refused .overlap) ∧
      (contradiction.write twoEntries).series = twoEntries ∧
      ¬ (Mutation.addLast (.int 3) (.int 30)).Fails (contradiction.write twoEntries).settled := by
  have hresult : (contradiction.write twoEntries).result = .error (.refused .overlap) := rfl
  have hnothing := failed_changes_nothing (.ofList _) (.error hresult)
  exact ⟨hresult, hnothing.1, hnothing.2.2.2 rfl rfl (by decide) _
    (.edit (e := .addLast (.int 3) (.int 30)) rfl)⟩

end Series

end LiveSeries
