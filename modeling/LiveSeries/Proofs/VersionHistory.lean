import LiveSeries.Proofs.Announcements

/-!
# The trace as a history of versions

The trace of a run is what its mutations report. It can be told from the states of the series alone
(`Series.history`): a turn that changes the version reports the new one, a turn that completes the
series reports that at the version it has then, and a command is noted in front of this for its
version, whatever becomes of it. Nothing else is reported (`Series.events_turn`).

So the trace has the published versions in their order, which increase, and after them at the most
one completion, at the last of them (`Series.trace_is_history`). That nothing is published after a
completion is due to the gate, which stays closed.
-/

namespace LiveSeries

/-- The event tells of a change of the series. -/
def Event.isMilestone : Event → Bool
  | .published _ | .completed _ => true
  | _ => false

namespace Series

/-! ## Reports from states -/

/-- The report of a completion between two states of a series. -/
def closing (s s' : Series) : List Event :=
  if s'.isCompleted = s.isCompleted then [] else [.completed s'.version]

/-- The reports of what changed between two states of a series. -/
def changes (s s' : Series) : List Event :=
  (if s'.version = s.version then [] else [.published s'.version]) ++ s.closing s'

/-- What is noted of a command at a version of the series: one that is not ahead is skipped, if it
has a version of its own, and one that is more than one version ahead leaves a gap. -/
def noteOf (version : Nat) (c : StampedCommand) : List Event :=
  if c.version ≤ version ∧ c.command ≠ .complete then
    [.commandSkipped c.series c.version version]
  else if version + 1 < c.version then [.commandGap c.series c.version version]
  else []

/-- What is noted of a turn. -/
def notesOf (s : Series) : Turn → List Event
  | .mutate (.command c) => noteOf s.version c
  | _ => []

/-- The trace of a run, told from the states that it goes through. -/
def history : Series → List Turn → List Event
  | _, [] => []
  | s, t :: rest => s.notesOf t ++ s.changes (s.turn t) ++ (s.turn t).history rest

theorem changes_self (s : Series) : s.changes s = [] := by
  rw [changes, closing, if_pos rfl, if_pos rfl]
  rfl

/-! ## Reports of mutations -/

/-- The write reports some notes, and then what it changed, and no more. -/
def Reports {α : Type} (s : Series) (notes : List Event) (w : Write α) : Prop :=
  w.events = notes ++ s.changes w.series

section Reports

variable {s : Series} {α : Type}

/-- A write that left the series as it was reports nothing. -/
theorem reports_of_same {s' : Series} (h : s' = s) (r : Except Failure α) :
    s.Reports [] { result := r, series := s' } := by
  rw [h]
  exact s.changes_self.symm

theorem reports_of_published {w : Write α} (hversion : s.version < w.series.version)
    (hsame : w.series.isCompleted = s.isCompleted)
    (hevents : w.events = [.published w.series.version]) : s.Reports [] w := by
  rw [Reports, changes, closing, if_neg (Nat.ne_of_gt hversion), if_pos hsame]
  exact hevents

theorem reports_of_closed {w : Write α} (hversion : w.series.version = s.version)
    (hclosed : w.series.isCompleted ≠ s.isCompleted)
    (hevents : w.events = [.completed w.series.version]) : s.Reports [] w := by
  rw [Reports, changes, closing, if_pos hversion, if_neg hclosed]
  exact hevents

theorem Reports.after {w : Write α} (h : s.Reports [] w) (notes : List Event) :
    s.Reports notes (after notes w) :=
  congrArg (notes.append ·) h

theorem reports_write (hs : s.nextVersion = s.version) (f : Store → Except Refusal (Change α)) :
    s.Reports [] (s.write f) := by
  unfold write
  split
  · exact reports_of_same rfl _
  · next gate henter =>
      have hgive := giveUp_of_enter hs henter
      obtain ⟨hopen, -, rfl⟩ := Gate.of_enter henter
      split
      · exact reports_of_same hgive _
      · exact reports_of_same hgive _
      · exact reports_of_published (Nat.lt_succ_self s.version) rfl rfl

theorem reports_writeAs (hs : s.nextVersion = s.version) (version : Nat)
    (f : Store → Except Refusal (Change α)) : s.Reports [] (s.writeAs version f) := by
  unfold writeAs
  split
  · exact reports_of_same rfl _
  · next gate henter =>
      have hgive := giveUp_of_enter hs henter
      obtain ⟨hopen, -, rfl⟩ := Gate.of_enter henter
      split
      · exact reports_of_same hgive _
      · split
        · exact reports_of_same hgive _
        · split
          · exact reports_of_same hgive _
          · next hpublish =>
              obtain ⟨hlt, rfl⟩ := Gate.of_publishAs hpublish
              exact reports_of_published hlt rfl rfl

theorem reports_complete (s : Series) : s.Reports [] s.complete := by
  unfold complete
  split
  · exact reports_of_same rfl _
  · exact reports_of_same rfl _
  · next gate hcomplete =>
      unfold Gate.complete at hcomplete
      split at hcomplete
      · cases hcomplete
      · split at hcomplete
        · cases hcomplete
        · next hopen =>
            cases hcomplete
            exact reports_of_closed rfl (fun hclosed => hopen hclosed.symm) rfl

theorem reports_perform (hs : s.nextVersion = s.version) (version : Nat) (c : Command) :
    s.Reports [] (s.perform version c) := by
  have hversioned : ∀ {β : Type} (f : Store → Except Refusal (Change β)),
      s.Reports [] (asApplied version (s.writeAs version f)) := reports_writeAs hs version
  cases c with
  | set k v => exact hversioned _
  | append entries option =>
      simp only [perform]
      split
      · exact hversioned _
      · exact reports_of_same rfl _
  | remove k lookup => exact hversioned _
  | complete => exact reports_complete s

/-- A command is noted for its version before anything comes of it. -/
theorem reports_apply (hs : s.nextVersion = s.version) {c : StampedCommand}
    (hstamp : c.version ≤ Gate.lastVersion) : s.Reports (noteOf s.version c) (s.apply c) := by
  unfold apply noteOf
  dsimp only
  by_cases hskip : c.version ≤ s.version ∧ c.command ≠ .complete
  · rw [if_pos hskip, if_pos hskip, Reports, s.changes_self]
    rfl
  · rw [if_neg hskip, if_neg hskip]
    by_cases hlast : s.version = Gate.lastVersion
    · -- nothing is ahead of the last version
      rw [if_pos hlast, if_neg (by omega)]
      exact reports_of_same rfl _
    · rw [if_neg hlast]
      exact (reports_perform hs c.version c.command).after _

theorem reports_mutation (hs : s.nextVersion = s.version) (m : Mutation)
    (hstamp : ∀ c, m = .command c → c.version ≤ Gate.lastVersion) :
    s.Reports (s.notesOf (.mutate m)) (m.write s) := by
  have hwrite : ∀ {β : Type} (f : Store → Except Refusal (Change β)),
      s.Reports [] (s.write f).discard := reports_write hs
  cases m with
  | complete => exact reports_complete s
  | command c => exact reports_apply hs (hstamp c rfl)
  | append entries option =>
      show s.Reports [] (s.append entries option).discard
      unfold append
      split
      · exact hwrite _
      · exact reports_of_same rfl _
  | set | tryAdd | remove | removeMany => exact hwrite _
  | add | addFirst | addLast => exact reports_write hs _

end Reports

/-! ## Reports of runs -/

/-- What a turn reports. -/
def eventsOf (s : Series) : Turn → List Event
  | .mutate m => (m.write s).events
  | .settle | .registry _ => []

/-- What a run reports. -/
def trace : Series → List Turn → List Event
  | _, [] => []
  | s, t :: rest => s.eventsOf t ++ (s.turn t).trace rest

/-- A turn reports what is noted of it and what it changes. -/
theorem events_turn {s : Series} (hs : s.nextVersion = s.version) {t : Turn}
    (hstamp : ∀ c, t = .mutate (.command c) → c.version ≤ Gate.lastVersion) :
    s.eventsOf t = s.notesOf t ++ s.changes (s.turn t) := by
  cases t with
  | mutate m => exact reports_mutation hs m fun c hc => hstamp c (congrArg Turn.mutate hc)
  | settle | registry r => exact s.changes_self.symm

theorem trace_eq_history {s : Series} (hs : s.Reachable) {turns : List Turn}
    (hstamps : ∀ c, .mutate (.command c) ∈ turns → c.version ≤ Gate.lastVersion) :
    s.trace turns = s.history turns := by
  induction turns generalizing s with
  | nil => rfl
  | cons t rest ih =>
      have hturn := events_turn hs.next_and_page.1 (t := t)
        fun c hc => hstamps c (hc ▸ List.mem_cons_self)
      rw [trace, history, hturn, ih (hs.turn t) fun c hc => hstamps c (List.mem_cons_of_mem t hc)]

/-! ## Milestones -/

theorem isMilestone_of_mem_changes {s s' : Series} {e : Event} (h : e ∈ s.changes s') :
    e.isMilestone = true := by
  rcases List.mem_append.mp h with h | h
  · split at h
    · cases h
    · rw [List.mem_singleton.mp h]
      rfl
  · unfold closing at h
    split at h
    · cases h
    · rw [List.mem_singleton.mp h]
      rfl

theorem not_isMilestone_of_mem_notesOf {s : Series} {t : Turn} {e : Event} (h : e ∈ s.notesOf t) :
    e.isMilestone = false := by
  unfold notesOf at h
  split at h
  · unfold noteOf at h
    split at h
    · rw [List.mem_singleton.mp h]
      rfl
    · split at h
      · rw [List.mem_singleton.mp h]
        rfl
      · cases h
  · cases h

/-- A completed series stays completed, at its version. -/
theorem turn_of_completed {s : Series} (hclosed : s.isCompleted = true) (t : Turn) :
    (s.turn t).version = s.version ∧ (s.turn t).isCompleted = true := by
  cases t with
  | mutate m =>
      have hsame : s.turn (.mutate m) = s := (Sealed.mutation (.inr hclosed) m).series
      rw [hsame]
      exact ⟨rfl, hclosed⟩
  | settle | registry r => exact ⟨rfl, hclosed⟩

theorem run_of_completed {s : Series} (hclosed : s.isCompleted = true) (turns : List Turn) :
    s.publications turns = [] ∧ (s.afterTurns turns).version = s.version ∧
      (s.afterTurns turns).isCompleted = true := by
  induction turns generalizing s with
  | nil => exact ⟨rfl, rfl, hclosed⟩
  | cons t rest ih =>
      obtain ⟨hversion, hstays⟩ := turn_of_completed hclosed t
      obtain ⟨hsilent, hlast, hend⟩ := ih hstays
      refine ⟨?_, hlast.trans hversion, hend⟩
      rw [publications, publicationsOf, if_pos hversion, hsilent]
      rfl

/-- The milestones of a run from those of its first turn and those of the others: a turn that
completes the series is the last one with any. -/
theorem closing_trans (s : Series) (t : Turn) (rest : List Turn) :
    s.closing (s.turn t) ++ (((s.turn t).publications rest).map .published ++
        (s.turn t).closing ((s.turn t).afterTurns rest)) =
      ((s.turn t).publications rest).map .published ++
        s.closing ((s.turn t).afterTurns rest) := by
  by_cases hsame : (s.turn t).isCompleted = s.isCompleted
  · rw [closing, if_pos hsame, closing, closing, hsame]
    rfl
  · have hclosed : (s.turn t).isCompleted = true := by
      cases hs : s.isCompleted with
      | true => exact absurd ((turn_of_completed hs t).2.trans hs.symm) hsame
      | false => exact eq_true_of_ne_false (hs ▸ hsame)
    obtain ⟨hsilent, hversion, hend⟩ := run_of_completed hclosed rest
    rw [hsilent, closing, if_neg hsame, closing, if_pos (hend.trans hclosed.symm), closing, hend,
      hversion, ← hclosed, if_neg hsame]
    rfl

theorem milestones_history (s : Series) (turns : List Turn) :
    (s.history turns).filter Event.isMilestone =
      (s.publications turns).map .published ++ s.closing (s.afterTurns turns) := by
  induction turns generalizing s with
  | nil =>
      rw [afterTurns, closing, if_pos rfl]
      rfl
  | cons t rest ih =>
      have hnotes : (s.notesOf t).filter Event.isMilestone = [] :=
        List.filter_eq_nil_iff.mpr fun e he => by
          rw [not_isMilestone_of_mem_notesOf he]
          exact Bool.false_ne_true
      have hchanges : (s.changes (s.turn t)).filter Event.isMilestone = s.changes (s.turn t) :=
        List.filter_eq_self.mpr fun e he => isMilestone_of_mem_changes he
      have hpublished : s.changes (s.turn t) =
          (s.publicationsOf t).map .published ++ s.closing (s.turn t) := by
        rw [changes, publicationsOf]
        split <;> rfl
      rw [history, List.filter_append, List.filter_append, hnotes, hchanges, ih, hpublished,
        List.nil_append, List.append_assoc, closing_trans, publications, List.map_append,
        List.append_assoc]
      rfl

/-! ## The trace -/

/-- The trace of a run is a history of its versions. -/
structure Chronicled (s : Series) (turns : List Turn) : Prop where
  /-- Every turn reports what is noted of it and what it changes. -/
  trace_eq : s.trace turns = s.history turns
  /-- The versions that were published come one after the other, and after them the completion if
  there was one, with the version that stays. -/
  milestones : (s.trace turns).filter Event.isMilestone =
    (s.publications turns).map .published ++ s.closing (s.afterTurns turns)
  increasing : (s.version :: s.publications turns).Pairwise (· < ·)
  latest : (s.version :: s.publications turns).getLast? = some (s.afterTurns turns).version

/-- The trace of every run of mutations, completions and commands is a history of the versions of
the series. -/
theorem trace_is_history {s : Series} (hs : s.Reachable) {turns : List Turn}
    (hstamps : ∀ c, .mutate (.command c) ∈ turns → c.version ≤ Gate.lastVersion) :
    s.Chronicled turns where
  trace_eq := trace_eq_history hs hstamps
  milestones := by
    rw [trace_eq_history hs hstamps]
    exact milestones_history s turns
  increasing := (announced_once hs turns).increasing
  latest := (announced_once hs turns).latest

/-- A run with a command that is refused after a gap, one that was seen before, one that is applied
after a gap, a completion, and a command that comes too late. -/
def eventfulRun : List Turn :=
  [.mutate (.set (.int 1) (.int 10)), .settle,
    .mutate (.command ⟨7, 5, .append [(.int 3, .int 30), (.int 2, .int 20)] .reject⟩),
    .mutate (.command ⟨7, 1, .set (.int 1) (.int 11)⟩),
    .mutate (.command ⟨7, 4, .set (.int 2) (.int 20)⟩), .settle,
    .mutate .complete, .settle,
    .mutate (.command ⟨7, 9, .set (.int 3) (.int 30)⟩)]

theorem trace_is_history_eventfulRun :
    ({} : Series).trace eventfulRun =
        [.published 1, .commandGap 7 5 1, .commandSkipped 7 1 1, .commandGap 7 4 1, .published 4,
          .completed 4, .commandGap 7 9 4] ∧
      ({} : Series).publications eventfulRun = [1, 4] ∧
      ({} : Series).Chronicled eventfulRun := by
  have hstamps : ∀ c, .mutate (.command c) ∈ eventfulRun → c.version ≤ Gate.lastVersion := by
    intro c hc
    simp [eventfulRun] at hc
    rcases hc with rfl | rfl | rfl | rfl <;> decide
  exact ⟨by decide, by decide, trace_is_history (.ofList []) hstamps⟩

end Series

end LiveSeries
