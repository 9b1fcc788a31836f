import LiveSeries.Fault

/-!
# The write gate

A gate admits one writer at a time and counts what writers publish. A writer that enters opens
the next version; publishing makes it the current one, and leaving without publishing takes it
back. So `nextVersion = version` exactly when no write is open. A completed gate admits no
writer again.

Readers do not lock. They run between two looks at the versions and try again if a write came
in between; after a fixed number of tries they run once more under the lock.
-/

namespace LiveSeries

/-- The lock of a container and its versions. -/
structure Gate where
  /-- The last published version. -/
  version : Nat := 0
  /-- The version of the open write, or `version` if there is none. -/
  nextVersion : Nat := 0
  locked : Bool := false
  /-- No writer is admitted any more. -/
  readOnly : Bool := false
  /-- Reads look at the versions. -/
  synchronized : Bool := true
  readTries : Nat := 1024
  deriving DecidableEq, Repr, Inhabited

/-- Why a gate did not let a caller in. -/
inductive GateRefusal where
  | readOnly
  /-- The caller would wait for the lock. -/
  | busy
  | fault (f : Fault)
  deriving DecidableEq, Repr

/-- The text shown for a gate that is closed for good. -/
def GateRefusal.message : GateRefusal → String
  | .readOnly => "container is read-only"
  | .busy => "busy"
  | .fault f => f.message

namespace Gate

/-- The greatest version. -/
def lastVersion : Nat := 0xffffffffffffffff

/-- An open gate at version zero. -/
def make (readTries : Nat) : Except Fault Gate :=
  if readTries = 0 then .error .gateWithoutTries
  else .ok { readTries := readTries }

/-! ## Writers -/

/-- Enters: takes the lock and opens the next version. After the last version there is no next
one; the lock is then free again. -/
def enter (g : Gate) : Except GateRefusal Gate :=
  if g.readOnly then .error .readOnly
  else if g.locked then .error .busy
  else if g.version < lastVersion then
    .ok { g with locked := true, nextVersion := g.version + 1 }
  else .error (.fault .addOverflow)

/-- Publishes the open version. -/
def publish (g : Gate) : Gate := { g with version := g.nextVersion }

/-- Publishes a version assigned elsewhere, which must be above the current one. -/
def publishAs (g : Gate) (v : Nat) : Except Fault Gate :=
  if g.version < v then .ok { g with version := v, nextVersion := v }
  else .error .versionNotIncreasing

/-- Leaves: takes the open version back unless it was published, and frees the lock. -/
def leave (g : Gate) (published : Bool) : Gate :=
  { g with nextVersion := if published then g.nextVersion else g.version, locked := false }

/-- Closes the gate for good. The answer is true for the call that closed it. -/
def complete (g : Gate) : Except GateRefusal (Bool × Gate) :=
  if g.locked then .error .busy
  else if g.readOnly then .ok (false, g)
  else .ok (true, { g with nextVersion := g.version, readOnly := true, synchronized := false })

section Writers

variable {g g' : Gate}

/-- A completed gate refuses at once, whoever has the lock. -/
theorem enter_of_readOnly (h : g.readOnly = true) : g.enter = .error .readOnly := by
  rw [enter, if_pos h]

/-- A writer that enters found the gate free and open, and opens the next version. -/
theorem of_enter (h : g.enter = .ok g') :
    g.readOnly = false ∧ g.locked = false ∧
      g' = { g with locked := true, nextVersion := g.version + 1 } := by
  unfold enter at h
  split at h
  · cases h
  · next hopen =>
      split at h
      · cases h
      · next hfree =>
          split at h
          · cases h
            exact ⟨Bool.eq_false_iff.mpr hopen, Bool.eq_false_iff.mpr hfree, rfl⟩
          · cases h

theorem of_publishAs {v : Nat} (h : g.publishAs v = .ok g') :
    g.version < v ∧ g' = { g with version := v, nextVersion := v } := by
  unfold publishAs at h
  split at h
  · next hlt =>
      cases h
      exact ⟨hlt, rfl⟩
  · cases h

end Writers

/-! ## Readers -/

/-- What a read came to. -/
structure Read (σ α : Type) where
  state : σ
  value : α
  /-- How often the reader ran. -/
  runs : Nat
  /-- The last run was the one under the lock. -/
  fellBack : Bool
  deriving Repr

variable {σ α : Type}

/-- One undisturbed run after the other until one counts: a run counts if the version before it
is the open version after it. Without such a run there is no value. -/
def tryRead (gate : σ → Gate) (run : Nat → σ → α × σ) : Nat → Nat → σ → Option (α × Nat) × σ
  | 0, _, s => (none, s)
  | tries + 1, done, s =>
    let (value, s') := run done s
    if (gate s).version = (gate s').nextVersion then (some (value, done + 1), s')
    else tryRead gate run tries (done + 1) s'

/-- Runs a reader on a state that holds a gate. The reader is told how often it ran before, and
may change the state. On a completed gate it runs once; else it is tried up to the limit, and
then runs once more with the lock held. -/
def read (gate : σ → Gate) (setLocked : Bool → σ → σ) (run : Nat → σ → α × σ) (s : σ) :
    Read σ α :=
  if (gate s).synchronized then
    let limit := (gate s).readTries
    match tryRead gate run limit 0 s with
    | (some (value, runs), s') => ⟨s', value, runs, false⟩
    | (none, s') =>
      let (value, s'') := run limit (setLocked true s')
      ⟨setLocked false s'', value, limit + 1, true⟩
  else
    let (value, s') := run 0 s
    ⟨s', value, 1, false⟩

/-- A read that leaves the gate alone has the value of its reader. -/
theorem read_quiet (g : Gate) (a : α) :
    (read id (fun locked g => { g with locked := locked }) (fun _ g => (a, g)) g).value = a := by
  have quiet : ∀ tries done : Nat, ∀ v n,
      (tryRead id (fun _ g => (a, g)) tries done g).1 = some (v, n) → v = a := by
    intro tries
    induction tries with
    | zero => intro done v n h; simp [tryRead] at h
    | succ tries ih =>
      intro done v n h
      unfold tryRead at h
      dsimp only at h
      split at h
      · simp at h
        exact h.1.symm
      · exact ih _ _ _ h
  unfold read
  split
  · dsimp only
    split
    · next v n s' h => exact quiet _ _ v n (by rw [h])
    · rfl
  · rfl

end Gate

end LiveSeries
