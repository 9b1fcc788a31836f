import LiveSeries.Command
import LiveSeries.Proofs.PositiveSettings

/-!
# Writes to a series at rest

A series at rest has no writer (`Series.AtRest`); it takes writes unless it is completed or has no
version left (`Series.Writable`). What a write comes to is then told by its function on the store:
a refusal and an answer without another store change nothing at all, and an answer with another
store is published (`Series.Writable.publishes_write`), under the version of a command if there is
one (`Series.Writable.publishes_writeAs`).
-/

namespace LiveSeries

/-- The write answers, publishes, and leaves the given series. -/
structure Write.Publishes {α : Type} (w : Write α) (a : α) (event : Event) (s : Series) : Prop where
  result : w.result = .ok a
  events : w.events = [event]
  notice : w.notice.isSome = true
  settled : w.settled = s

namespace Series

/-! ## Series that take writes -/

/-- Nobody is writing to the series, and its settings let a snapshot copy entries. -/
structure AtRest (s : Series) : Prop where
  unlocked : s.gate.locked = false
  next : s.nextVersion = s.version
  page : 0 < s.settings.pageSize

/-- The series takes a write: it is not completed, and has a version left. -/
structure Writable (s : Series) : Prop extends AtRest s where
  incomplete : s.isCompleted = false
  below : s.version < Gate.lastVersion

/-- A series is made at rest. -/
theorem atRest_make {changes : List (Setting × Nat)} {settings : Settings} {store : Store}
    {s : Series} (hsettings : Settings.ofChanges changes = .ok settings)
    (h : make settings store = .ok s) : s.AtRest := by
  unfold make Gate.make at h
  split at h
  · cases h
  · cases h
    exact ⟨rfl, rfl, (Settings.obtainable_ofChanges hsettings).positive.pageSize⟩

/-! ## Writes -/

/-- The series after a version was published with a store. -/
def published (s : Series) (store : Store) (version : Nat) : Series :=
  { s with
    store := store
    gate := { s.gate with version := version, nextVersion := version, locked := false }
    registry := (s.registry.notify false).2 }

theorem AtRest.published {s : Series} (h : s.AtRest) (store : Store) (version : Nat) :
    (s.published store version).AtRest :=
  ⟨rfl, rfl, h.page⟩

/-- A gate that is left with nothing published is left as it was entered. -/
theorem giveUp_of_enter {s : Series} (hs : s.nextVersion = s.version) {g : Gate}
    (h : s.gate.enter = .ok g) : s.giveUp g = s := by
  obtain ⟨-, hunlocked, rfl⟩ := Gate.of_enter h
  obtain ⟨store, ⟨version, nextVersion, locked, readOnly, synchronized, readTries⟩,
    registry, settings⟩ := s
  obtain rfl : locked = false := hunlocked
  obtain rfl : nextVersion = version := hs
  rfl

section Writable

variable {α : Type} {s : Series}

theorem Writable.enter (h : s.Writable) :
    s.gate.enter = .ok { s.gate with locked := true, nextVersion := s.version + 1 } := by
  have hincomplete : ¬ s.gate.readOnly = true := Bool.eq_false_iff.mp h.incomplete
  have hunlocked : ¬ s.gate.locked = true := Bool.eq_false_iff.mp h.unlocked
  have hbelow : s.gate.version < Gate.lastVersion := h.below
  rw [Gate.enter, if_neg hincomplete, if_neg hunlocked, if_pos hbelow]
  rfl

variable {f : Store → Except Refusal (Change α)}

theorem Writable.write_of_refused (h : s.Writable) {r : Refusal} (hf : f s.store = .error r) :
    s.write f = { result := .error (.refused r), series := s } := by
  simp only [write, h.enter, hf, giveUp_of_enter h.next h.enter]

theorem Writable.write_of_unchanged (h : s.Writable) {a : α} (hf : f s.store = .ok (a, none)) :
    s.write f = { result := .ok a, series := s } := by
  simp only [write, h.enter, hf, giveUp_of_enter h.next h.enter]

/-- A write that leaves another store publishes the next version. -/
theorem Writable.publishes_write (h : s.Writable) {a : α} {store : Store}
    (hf : f s.store = .ok (a, some store)) :
    (s.write f).Publishes a (.published (s.version + 1)) (s.published store (s.version + 1)) := by
  simp only [write, h.enter, hf]
  exact ⟨rfl, rfl, rfl, rfl⟩

theorem Writable.writeAs_of_refused (h : s.Writable) {version : Nat} (hdue : s.version < version)
    {r : Refusal} (hf : f s.store = .error r) :
    s.writeAs version f = { result := .error (.refused r), series := s } := by
  have hahead : ¬ version ≤ s.gate.version := Nat.not_le.mpr hdue
  simp only [writeAs, h.enter, hf, if_neg hahead, giveUp_of_enter h.next h.enter]

/-- A write under the version of a command publishes that version. -/
theorem Writable.publishes_writeAs (h : s.Writable) {version : Nat} (hdue : s.version < version)
    (f : Store → Except Refusal (Change α)) {change : Change α} (hf : f s.store = .ok change) :
    (s.writeAs version f).Publishes change.1 (.published version)
      (s.published (change.2.getD s.store) version) := by
  have hpublish : Gate.publishAs { s.gate with locked := true, nextVersion := s.version + 1 }
      version = .ok { s.gate with version := version, nextVersion := version, locked := true } :=
    if_pos hdue
  have hahead : ¬ version ≤ s.gate.version := Nat.not_le.mpr hdue
  simp only [writeAs, h.enter, hf, hpublish, if_neg hahead]
  exact ⟨rfl, rfl, rfl, rfl⟩

end Writable

theorem publishes_asApplied {α : Type} {w : Write α} {a : α} {version : Nat} {event : Event}
    {s : Series} (h : w.Publishes a event s) :
    (asApplied version w).Publishes (.applied version) event s where
  result := by
    rw [asApplied, h.result]
    rfl
  events := h.events
  notice := h.notice
  settled := h.settled

/-! ## Completion -/

/-- The series after it was completed. -/
def closed (s : Series) : Series :=
  { s with
    gate := { s.gate with
      nextVersion := s.version, locked := false, readOnly := true, synchronized := false }
    registry := (s.registry.notify true).2 }

theorem AtRest.closed {s : Series} (h : s.AtRest) : s.closed.AtRest := ⟨rfl, rfl, h.page⟩

theorem AtRest.publishes_complete {s : Series} (h : s.AtRest) (hopen : s.isCompleted = false) :
    s.complete.Publishes true (.completed s.version) s.closed := by
  have hunlocked : ¬ s.gate.locked = true := Bool.eq_false_iff.mp h.unlocked
  have hincomplete : ¬ s.gate.readOnly = true := Bool.eq_false_iff.mp hopen
  have hcomplete : s.gate.complete = .ok (true, { s.gate with
      nextVersion := s.gate.version, readOnly := true, synchronized := false }) := by
    rw [Gate.complete, if_neg hunlocked, if_neg hincomplete]
  simp only [complete, hcomplete]
  exact ⟨rfl, rfl, rfl, rfl⟩

theorem AtRest.complete_of_completed {s : Series} (h : s.AtRest)
    (hcompleted : s.isCompleted = true) :
    s.complete = { result := .ok false, series := s } := by
  have hunlocked : ¬ s.gate.locked = true := Bool.eq_false_iff.mp h.unlocked
  have hreadOnly : s.gate.readOnly = true := hcompleted
  have hcomplete : s.gate.complete = .ok (false, s.gate) := by
    rw [Gate.complete, if_neg hunlocked, if_pos hreadOnly]
  simp only [complete, hcomplete]

end Series

end LiveSeries
