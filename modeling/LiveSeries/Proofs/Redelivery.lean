import LiveSeries.Proofs.Announcements

/-!
# Redelivered commands

A command that was answered without an error is skipped when it comes again, however much later, and
to skip it does nothing (`Series.redelivery_is_void`). What a series keeps of the commands that it
has seen is no list of them. A versioned command is known by its version: none is published twice,
and no version is taken back, though direct mutations move it on and commands may leave gaps.
Completion has no version of its own, and is known by the flag that it left, which stands as long as
the series. Both are one property of a command and a series (`Series.Seen`), which an answer brings
about (`Series.seen_apply`) and every turn keeps (`Series.Seen.turn`).
-/

namespace LiveSeries

namespace Series

/-! ## Commands that were seen -/

/-- The series has nothing to do for the command. -/
inductive Seen (s : Series) (c : StampedCommand) : Prop where
  /-- It is at the command's version, or above. -/
  | passed (versioned : c.command ≠ .complete) (reached : c.version ≤ s.version)
  /-- It is completed. Nobody holds its gate, and there is a next version to compare with. -/
  | ended (completes : c.command = .complete) (closed : s.isCompleted = true)
      (free : s.gate.locked = false) (below : s.version ≠ Gate.lastVersion)

/-- The series skips the command, and all that comes of it is a report. -/
structure Skips (s : Series) (c : StampedCommand) : Prop where
  result : (s.apply c).result = .ok .skipped
  /-- The entries, the versions, the flags and the requests are as they were, and nobody is
  notified. -/
  void : (s.apply c).Void s
  session : ∀ (notify : Notice → World → World) (id : SourceId) (w : World), w.hub.sources id = s →
    ∃ reports, World.seriesConsumer notify id c w =
      (.ok .skipped, { w with hub := { w.hub with reports := reports } })

section Seen

variable {s : Series} {c : StampedCommand}

theorem apply_of_passed (h : c.version ≤ s.version ∧ c.command ≠ .complete) :
    s.apply c = { result := .ok .skipped
                  series := s
                  events := [.commandSkipped c.series c.version s.version] } :=
  if_pos h

/-- A command that is due is performed; that versions were passed over is only reported. -/
theorem exists_apply_eq_after (hdue : ¬ (c.version ≤ s.version ∧ c.command ≠ .complete))
    (hlast : s.version ≠ Gate.lastVersion) :
    ∃ gap, s.apply c = after gap (s.perform c.version c.command) :=
  ⟨_, (if_neg hdue).trans (if_neg hlast)⟩

/-- A series that is completed answers so. -/
theorem complete_of_ended (hclosed : s.isCompleted = true) (hfree : s.gate.locked = false) :
    s.complete = { result := .ok false, series := s } := by
  have hreadOnly : s.gate.readOnly = true := hclosed
  have hunlocked : ¬ s.gate.locked = true := Bool.eq_false_iff.mp hfree
  rw [complete, Gate.complete, if_neg hunlocked, if_pos hreadOnly]

theorem Seen.result_and_void (h : s.Seen c) :
    (s.apply c).result = .ok .skipped ∧ (s.apply c).Void s := by
  cases h with
  | passed versioned reached =>
      rw [apply_of_passed ⟨reached, versioned⟩]
      exact ⟨rfl, rfl, rfl⟩
  | ended completes closed free below =>
      obtain ⟨gap, happly⟩ := exists_apply_eq_after (fun h => h.2 completes) below
      have hdone : s.perform c.version c.command = { result := .ok .skipped, series := s } := by
        rw [completes, perform, complete_of_ended closed free]
        rfl
      rw [happly, hdone]
      exact ⟨rfl, rfl, rfl⟩

theorem Seen.skips (h : s.Seen c) : s.Skips c where
  result := h.result_and_void.1
  void := h.result_and_void.2
  session notify id w hw := by
    obtain ⟨hresult, hvoid⟩ := h.result_and_void
    obtain ⟨reports, hsettle⟩ :=
      World.settle_of_void notify (hvoid.series.trans hw.symm) hvoid.notice
    refine ⟨reports, ?_⟩
    rw [World.seriesConsumer, hw, hresult, hsettle]

/-- No turn takes a version back. -/
theorem version_le_turn (hs : s.Reachable) (t : Turn) : s.version ≤ (s.turn t).version := by
  cases t with
  | settle | registry r => exact Nat.le_refl _
  | mutate m =>
      have htold := told_mutation hs.next_and_page.1 m
      generalize m.completes = completes at htold
      cases htold with
      | void void => exact Nat.le_of_eq (congrArg version void.series).symm
      | published _ version => exact Nat.le_of_lt version
      | closed _ _ version => exact Nat.le_of_eq version.symm

theorem Seen.turn (h : s.Seen c) (hs : s.Reachable) (t : Turn) : (s.turn t).Seen c := by
  cases h with
  | passed versioned reached =>
      exact .passed versioned (Nat.le_trans reached (version_le_turn hs t))
  | ended completes closed free below =>
      cases t with
      | mutate m =>
          -- nobody writes to a completed series
          have hvoid := Sealed.mutation (.inr closed) m
          have hsame : s.turn (.mutate m) = s := hvoid.series
          rw [hsame]
          exact .ended completes closed free below
      | settle => exact .ended completes closed rfl below
      | registry r => exact .ended completes closed free below

theorem Seen.afterTurns (h : s.Seen c) (hs : s.Reachable) (turns : List Turn) :
    (s.afterTurns turns).Seen c := by
  induction turns generalizing s with
  | nil => exact h
  | cons t rest ih => exact ih (h.turn hs t) (hs.turn t)

end Seen

/-! ## Answers -/

/-- A writer that leaves after it has published takes no version along. -/
theorem version_settled {α : Type} (w : Write α) :
    w.settled.version = w.series.version ∧ w.settled.nextVersion = w.series.nextVersion := by
  unfold Write.settled
  split <;> exact ⟨rfl, rfl⟩

/-- A write brought the series to a version, which is above the one before. -/
structure Reaches {α : Type} (s : Series) (w : Write α) (version : Nat) : Prop where
  later : s.version < version
  current : w.series.version = version
  next : w.series.nextVersion = version

section Answers

variable {s : Series} {c : StampedCommand} {version : Nat} {o : Outcome}

theorem reaches_writeAs {α : Type} (f : Store → Except Refusal (Change α)) {a : α} :
    (s.writeAs version f).result = .ok a → Reaches s (s.writeAs version f) version := by
  unfold writeAs
  split
  · nofun
  · next gate henter =>
      obtain ⟨-, -, rfl⟩ := Gate.of_enter henter
      split
      · nofun
      · split
        · nofun
        · split
          · nofun
          · next hpublish =>
              obtain ⟨hlater, rfl⟩ := Gate.of_publishAs hpublish
              exact fun _ => ⟨hlater, rfl, rfl⟩

theorem result_asApplied {α : Type} {w : Write α} (h : (asApplied version w).result = .ok o) :
    o = .applied version ∧ ∃ a, w.result = .ok a := by
  cases hw : w.result with
  | error e =>
      rw [asApplied, hw] at h
      cases h
  | ok a =>
      rw [asApplied, hw] at h
      cases h
      exact ⟨rfl, a, rfl⟩

/-- A versioned command that is performed without an error is published under its version. -/
theorem reaches_perform {command : Command} (hc : command ≠ .complete)
    (h : (s.perform version command).result = .ok o) :
    o = .applied version ∧ Reaches s (s.perform version command) version := by
  have hversioned : ∀ {α : Type} (f : Store → Except Refusal (Change α)),
      (asApplied version (s.writeAs version f)).result = .ok o →
      o = .applied version ∧ Reaches s (asApplied version (s.writeAs version f)) version := by
    intro α f hf
    obtain ⟨ho, a, ha⟩ := result_asApplied hf
    obtain ⟨later, current, next⟩ := reaches_writeAs f ha
    exact ⟨ho, later, current, next⟩
  cases command with
  | set k v => exact hversioned _ h
  | append entries option =>
      simp only [perform] at h ⊢
      by_cases hincreases : increases entries = true
      · rw [if_pos hincreases] at h ⊢
        exact hversioned _ h
      · rw [if_neg hincreases] at h
        cases h
  | remove k lookup => exact hversioned _ h
  | complete => exact absurd rfl hc

/-- Completion is not answered with a version. -/
theorem complete_of_perform (h : (s.perform version .complete).result = .ok o) :
    ∃ first, s.complete.result = .ok first ∧ o = if first then .completed else .skipped := by
  have hmap : s.complete.result.map (fun first => if first then .completed else .skipped) =
      .ok o := h
  cases hresult : s.complete.result with
  | error e =>
      rw [hresult] at hmap
      cases hmap
  | ok first =>
      rw [hresult] at hmap
      cases hmap
      exact ⟨first, rfl, rfl⟩

/-- A completion that is answered leaves a completed series at the version that it had. -/
theorem ended_complete {first : Bool} : s.complete.result = .ok first →
    s.complete.series.isCompleted = true ∧ s.complete.series.gate.locked = false ∧
      s.complete.series.version = s.version := by
  unfold complete Gate.complete
  by_cases hlocked : s.gate.locked = true
  · rw [if_pos hlocked]
    nofun
  · rw [if_neg hlocked]
    by_cases hclosed : s.gate.readOnly = true
    · rw [if_pos hclosed]
      exact fun _ => ⟨hclosed, Bool.eq_false_iff.mpr hlocked, rfl⟩
    · rw [if_neg hclosed]
      exact fun _ => ⟨rfl, Bool.eq_false_iff.mpr hlocked, rfl⟩

/-- A command that is answered was seen before, or it was performed. -/
theorem skipped_or_performed (h : (s.apply c).result = .ok o) :
    o = .skipped ∧ (s.apply c).series = s ∧ s.Seen c ∨
      s.version ≠ Gate.lastVersion ∧ (s.perform c.version c.command).result = .ok o ∧
        (s.apply c).series = (s.perform c.version c.command).series := by
  by_cases hseen : c.version ≤ s.version ∧ c.command ≠ .complete
  · rw [apply_of_passed hseen] at h ⊢
    cases h
    exact .inl ⟨rfl, rfl, .passed hseen.2 hseen.1⟩
  · by_cases hlast : s.version = Gate.lastVersion
    · have hfault : s.apply c = { result := .error (.fault .addOverflow), series := s } :=
        (if_neg hseen).trans (if_pos hlast)
      rw [hfault] at h
      cases h
    · obtain ⟨gap, happly⟩ := exists_apply_eq_after hseen hlast
      rw [happly] at h ⊢
      exact .inr ⟨hlast, h, rfl⟩

/-- Whatever a command is answered, if it is no error, the series has seen it. -/
theorem seen_apply (h : (s.apply c).result = .ok o) : (s.apply c).series.Seen c := by
  rcases skipped_or_performed h with ⟨-, hsame, hseen⟩ | ⟨hlast, hperformed, hseries⟩
  · rw [hsame]
    exact hseen
  · rw [hseries]
    by_cases hc : c.command = .complete
    · rw [hc] at hperformed ⊢
      obtain ⟨first, hfirst, -⟩ := complete_of_perform hperformed
      obtain ⟨hclosed, hfree, hversion⟩ := ended_complete hfirst
      exact .ended hc hclosed hfree (hversion ▸ hlast)
    · have hreaches := (reaches_perform hc hperformed).2
      exact .passed hc (Nat.le_of_eq hreaches.current.symm)

/-- A command that is applied brings the series to its own version. -/
theorem reaches_apply {v : Nat} (h : (s.apply c).result = .ok (.applied v)) :
    v = c.version ∧ Reaches s (s.apply c) v := by
  rcases skipped_or_performed h with ⟨hskipped, -, -⟩ | ⟨-, hperformed, hseries⟩
  · cases hskipped
  · by_cases hc : c.command = .complete
    · rw [hc] at hperformed
      obtain ⟨first, -, hanswer⟩ := complete_of_perform hperformed
      cases first <;> cases hanswer
    · obtain ⟨hv, later, current, next⟩ := reaches_perform hc hperformed
      cases hv
      rw [← hseries] at current next
      exact ⟨rfl, later, current, next⟩

end Answers

/-- A command that is applied brings a series to its own version, which is a new one. A command that
is answered without an error is skipped whenever it comes again, after whatever mutations, and that
leaves the series as it is and invokes no target. -/
theorem redelivery_is_void {s : Series} (hs : s.Reachable) (c : StampedCommand) :
    (∀ v, (s.apply c).result = .ok (.applied v) →
      v = c.version ∧ Reaches s (s.apply c) v ∧ (s.apply c).settled.version = v ∧
        (s.apply c).settled.nextVersion = v) ∧
      ∀ o, (s.apply c).result = .ok o → ∀ turns : List Turn,
        ((s.apply c).series.afterTurns turns).Skips c := by
  constructor
  · intro v hv
    obtain ⟨hversion, hreaches⟩ := reaches_apply hv
    obtain ⟨hcurrent, hnext⟩ := version_settled (s.apply c)
    exact ⟨hversion, hreaches, hcurrent.trans hreaches.current, hnext.trans hreaches.next⟩
  · intro o ho turns
    have hreachable : (s.apply c).series.Reachable := .write (.command c) hs
    exact ((seen_apply ho).afterTurns hreachable turns).skips

/-- A command that leaves versions out. -/
def gapCommand : StampedCommand := ⟨7, 5, .set (.int 3) (.int 30)⟩

/-- The writer leaves, an entry is taken away directly, and a command completes the series. -/
def overtakingTurns : List Turn :=
  [.settle, .mutate (.remove (.int 1)), .settle, .mutate (.command ⟨7, 2, .complete⟩)]

theorem redelivery_is_void_overtaken :
    ((ofList [(.int 1, .int 10)]).apply gapCommand).result = .ok (.applied 5) ∧
      (((ofList [(.int 1, .int 10)]).apply gapCommand).series.afterTurns overtakingTurns).version =
        6 ∧
      ((ofList [(.int 1, .int 10)]).apply gapCommand).settled.version = 5 ∧
      (((ofList [(.int 1, .int 10)]).apply gapCommand).series.afterTurns overtakingTurns).Skips
        gapCommand := by
  have happlied : ((ofList [(.int 1, .int 10)]).apply gapCommand).result = .ok (.applied 5) := rfl
  have hredelivery := redelivery_is_void (.ofList [(.int 1, .int 10)]) gapCommand
  obtain ⟨-, -, hversion, -⟩ := hredelivery.1 5 happlied
  exact ⟨happlied, rfl, hversion, hredelivery.2 _ happlied overtakingTurns⟩

end Series

end LiveSeries
