import LiveSeries.Proofs.SeriesWrites
import LiveSeries.Proofs.StoredSeries

/-!
# Edits of a series

The calls that change the entries of a series have one shape (`Edit`): each is a function of the
store, which refuses, or answers and perhaps leaves another store. A series that takes writes
refuses or answers just as the function does, and publishes the next version where there is another
store (`Series.Writable.publishes_run`).

The command that stands for an edit makes the same store of the same store (`Edit.act_command`), and
a series publishes it under the version that it brings (`Series.Writable.publishes_apply`).
-/

namespace LiveSeries

/-- A call that may change the entries of a series. -/
inductive Edit where
  | set (k : Key) (v : Value)
  | add (k : Key) (v : Value)
  | tryAdd (k : Key) (v : Value)
  | addFirst (k : Key) (v : Value)
  | addLast (k : Key) (v : Value)
  | remove (k : Key)
  | removeMany (k : Key) (lookup : Lookup)
  | append (entries : List Entry) (option : OverlapRule)

namespace Edit

/-- What the call answers. -/
def Answer : Edit → Type
  | .set _ _ | .remove _ => Option Value
  | .add _ _ | .addFirst _ _ | .addLast _ _ => Unit
  | .tryAdd _ _ => Bool
  | .removeMany _ _ | .append _ _ => Nat

/-- The call on a series. -/
def run (s : Series) : (e : Edit) → Write e.Answer
  | .set k v => s.set k v
  | .add k v => s.add k v
  | .tryAdd k v => s.tryAdd k v
  | .addFirst k v => s.addFirst k v
  | .addLast k v => s.addLast k v
  | .remove k => s.remove k
  | .removeMany k lookup => s.removeMany k lookup
  | .append entries option => s.append entries option

/-- What the call makes of a store. -/
def change (store : Store) : (e : Edit) → Except Refusal (Change e.Answer)
  | .set k v => .ok (store.get? k, some (store.insert k v).2)
  | .add k v =>
    if (store.get? k).isSome then .error .keyExists else .ok ((), some (store.insert k v).2)
  | .tryAdd k v =>
    if (store.get? k).isSome then .ok (false, none) else .ok (true, some (store.insert k v).2)
  | .addFirst k v =>
    match store.first? with
    | some first =>
      if k < first.1 then .ok ((), some (store.insert k v).2) else .error .outOfOrder
    | none => .ok ((), some (store.insert k v).2)
  | .addLast k v =>
    if store.reaches k then .error .outOfOrder else .ok ((), some (store.insert k v).2)
  | .remove k =>
    .ok (store.get? k, if (store.get? k).isSome then some (store.erase k).2 else none)
  | .removeMany k lookup =>
    .ok ((store.removeMany k lookup).1,
      if 0 < (store.removeMany k lookup).1 then some (store.removeMany k lookup).2 else none)
  | .append entries option =>
    if increases entries then store.append entries option else .error .outOfOrder

/-- The command that stands for the call where the series is replicated. -/
def command : Edit → Command
  | .set k v | .add k v | .tryAdd k v | .addFirst k v | .addLast k v => .set k v
  | .remove k => .remove k .eq
  | .removeMany k lookup => .remove k lookup
  | .append entries option => .append entries option

theorem command_ne_complete (e : Edit) : e.command ≠ .complete := by
  cases e <;> nofun

/-- The command of a call makes of a store what the call made of it. -/
theorem act_command {e : Edit} {store store' : Store} {a : e.Answer}
    (h : e.change store = .ok (a, some store')) : e.command.act store = .ok store' := by
  cases e with
  | set k v =>
      cases h
      rfl
  | add k v =>
      simp only [change] at h
      split at h
      · cases h
      · cases h
        rfl
  | tryAdd k v =>
      simp only [change] at h
      split at h
      · cases h
      · cases h
        rfl
  | addFirst k v =>
      simp only [change] at h
      split at h
      · split at h
        · cases h
          rfl
        · cases h
      · cases h
        rfl
  | addLast k v =>
      simp only [change] at h
      split at h
      · cases h
      · cases h
        rfl
  | remove k =>
      simp only [change] at h
      split at h
      · cases h
        rfl
      · cases h
  | removeMany k lookup =>
      simp only [change] at h
      split at h
      · cases h
        rfl
      · cases h
  | append entries option =>
      simp only [command, Command.act]
      change (if increases entries then store.append entries option else .error .outOfOrder) =
        (.ok (a, some store') : Except Refusal (Change Nat)) at h
      split at h
      · next hincreases =>
          rw [if_pos hincreases, h]
          rfl
      · cases h

end Edit

namespace Series

variable {s : Series}

/-! ## Calls -/

/-- A call is a write of what it makes of the store. An append that does not increase is refused
before the gate is entered. -/
theorem run_eq_write_or (s : Series) (e : Edit) :
    (e.run s = s.write fun store => e.change store) ∨
      e.change s.store = .error .outOfOrder ∧
        e.run s = { result := .error (.refused .outOfOrder), series := s } := by
  cases e with
  | append entries option =>
      show (s.append entries option = s.write fun store =>
          if increases entries then store.append entries option else .error .outOfOrder) ∨
        (if increases entries then s.store.append entries option else .error .outOfOrder) = _ ∧
          s.append entries option = _
      unfold append
      by_cases hincreases : increases entries = true
      · simp only [if_pos hincreases, true_or]
      · simp only [if_neg hincreases]
        exact .inr ⟨rfl, rfl⟩
  | _ => exact .inl rfl

/-- A series that takes no writes refuses every call, and stays as it is. -/
theorem AtRest.run_of_not_writable (h : s.AtRest) (hnot : ¬ s.Writable) (e : Edit) :
    ∃ failure, e.run s = { result := .error failure, series := s } := by
  have hunlocked : ¬ s.gate.locked = true := Bool.eq_false_iff.mp h.unlocked
  have henter : ∃ r, s.gate.enter = .error r := by
    rw [Gate.enter]
    by_cases hreadOnly : s.gate.readOnly = true
    · exact ⟨_, if_pos hreadOnly⟩
    · rw [if_neg hreadOnly, if_neg hunlocked, if_neg]
      · exact ⟨_, rfl⟩
      · exact fun hbelow => hnot ⟨h, Bool.eq_false_iff.mpr hreadOnly, hbelow⟩
  obtain ⟨r, hr⟩ := henter
  rcases run_eq_write_or s e with hrun | ⟨-, hrun⟩
  · refine ⟨failureOf r, ?_⟩
    rw [hrun]
    simp only [write, hr]
  · exact ⟨_, hrun⟩

/-- A series that takes writes treats every call as a write. -/
theorem Writable.run_eq (h : s.Writable) (e : Edit) :
    e.run s = s.write fun store => e.change store := by
  rcases run_eq_write_or s e with hrun | ⟨hchange, hrun⟩
  · exact hrun
  · rw [hrun, h.write_of_refused hchange]

theorem Writable.run_of_refused (h : s.Writable) {e : Edit} {r : Refusal}
    (he : e.change s.store = .error r) :
    e.run s = { result := .error (.refused r), series := s } := by
  rw [h.run_eq, h.write_of_refused he]

theorem Writable.run_of_unchanged (h : s.Writable) {e : Edit} {a : e.Answer}
    (he : e.change s.store = .ok (a, none)) : e.run s = { result := .ok a, series := s } := by
  rw [h.run_eq, h.write_of_unchanged he]

theorem Writable.publishes_run (h : s.Writable) {e : Edit} {a : e.Answer} {store : Store}
    (he : e.change s.store = .ok (a, some store)) :
    (e.run s).Publishes a (.published (s.version + 1)) (s.published store (s.version + 1)) := by
  rw [h.run_eq]
  exact h.publishes_write he

/-- A call leaves the series as it is, or publishes what it makes of the store. -/
theorem AtRest.run_cases (h : s.AtRest) (e : Edit) :
    (e.run s).notice = none ∧ (e.run s).settled = s ∨
      s.Writable ∧ ∃ a store, e.change s.store = .ok (a, some store) ∧
        (e.run s).Publishes a (.published (s.version + 1))
          (s.published store (s.version + 1)) := by
  by_cases hwritable : s.Writable
  · cases he : e.change s.store with
    | error r =>
        rw [hwritable.run_of_refused he]
        exact .inl ⟨rfl, rfl⟩
    | ok change =>
        obtain ⟨a, changed⟩ := change
        cases changed with
        | none =>
            rw [hwritable.run_of_unchanged he]
            exact .inl ⟨rfl, rfl⟩
        | some store => exact .inr ⟨hwritable, a, store, rfl, hwritable.publishes_run he⟩
  · obtain ⟨failure, hrun⟩ := h.run_of_not_writable hwritable e
    rw [hrun]
    exact .inl ⟨rfl, rfl⟩

/-- A call leaves a series at rest. -/
theorem AtRest.settled_run (h : s.AtRest) (e : Edit) : (e.run s).settled.AtRest := by
  rcases h.run_cases e with ⟨-, hsame⟩ | ⟨-, a, store, -, hrun⟩
  · rw [hsame]
    exact h
  · rw [hrun.settled]
    exact h.published _ _

/-! ## Commands -/

/-- A command that comes next and acts on the store is published under its version, with nothing
reported besides. -/
theorem Writable.publishes_apply (h : s.Writable) {c : StampedCommand}
    (hcommand : c.command ≠ .complete) (hversion : c.version = s.version + 1) {store : Store}
    (hact : c.command.act s.store = .ok store) :
    (s.apply c).Publishes (.applied c.version) (.published c.version)
      (s.published store c.version) := by
  have hdue : s.version < c.version := hversion ▸ Nat.lt_succ_self s.version
  have happly : s.apply c = s.perform c.version c.command := by
    unfold apply
    dsimp only
    rw [if_neg fun hold => Nat.not_le.mpr hdue hold.1, if_neg (Nat.ne_of_lt h.below),
      if_neg (Nat.not_lt.mpr (Nat.le_of_eq hversion))]
    rfl
  rw [happly]
  exact h.publishes_perform hdue hcommand hact

/-- A completion that is not ahead of the next version completes the series, with nothing reported
besides. -/
theorem Writable.completes_apply (h : s.Writable) {c : StampedCommand}
    (hcommand : c.command = .complete) (hversion : c.version ≤ s.version + 1) :
    (s.apply c).Publishes .completed (.completed s.version) s.closed := by
  have hcomplete := h.publishes_complete h.incomplete
  have happly : s.apply c = s.perform c.version .complete := by
    unfold apply
    dsimp only
    rw [if_neg fun hold => hold.2 hcommand, if_neg (Nat.ne_of_lt h.below),
      if_neg (Nat.not_lt.mpr hversion), hcommand]
    rfl
  rw [happly]
  constructor
  · rw [perform, hcomplete.result]
    rfl
  · exact hcomplete.events
  · exact hcomplete.notice
  · exact hcomplete.settled

end Series

end LiveSeries
