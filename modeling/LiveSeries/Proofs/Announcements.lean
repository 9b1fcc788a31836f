import Mathlib.Data.List.Chain
import LiveSeries.Proofs.FailedMutations
import LiveSeries.Proofs.SealedSeries

/-!
# What is announced of mutations

A mutation is void and tells nobody, or it publishes a version and notifies, or it completes the
series and notifies by force (`Series.told_mutation`). So in a run of mutations there is one
notification for each version that was published, and a forced one if the series was completed on
the way (`Series.announced_once`).

The targets find a series at its last version with no other one open, though its writer still holds
the gate. A reader that starts there is not disturbed (`Series.reading_of_settled`).
-/

namespace LiveSeries

/-- The mutation means to complete the series. -/
def Mutation.completes : Mutation → Bool
  | .complete => true
  | .command c => decide (c.command = .complete)
  | _ => false

namespace Series

/-! ## Single mutations -/

/-- What a mutation did, and whom it told. -/
inductive Told {α : Type} (s : Series) (w : Write α) : Bool → Prop where
  | void {completes : Bool} (void : w.Void s) : Told s w completes
  /-- It published a version, and notified once. -/
  | published (was : s.isCompleted = false) (version : s.version < w.series.version)
      (next : w.series.nextVersion = w.series.version) (writing : w.series.gate.locked = true)
      (incomplete : w.series.isCompleted = false)
      (tries : w.series.gate.readTries = s.gate.readTries)
      (reported : .published w.series.version ∈ w.events)
      (registry : w.series.registry = (s.registry.notify false).2)
      (notice : w.notice = some (s.registry.notify false).1) : Told s w false
  /-- It completed the series, and notified once by force. -/
  | closed (was : s.isCompleted = false) (store : w.series.store = s.store)
      (version : w.series.version = s.version) (next : w.series.nextVersion = w.series.version)
      (completed : w.series.isCompleted = true)
      (tries : w.series.gate.readTries = s.gate.readTries)
      (reported : .completed s.version ∈ w.events)
      (registry : w.series.registry = (s.registry.notify true).2)
      (notice : w.notice = some (s.registry.notify true).1) : Told s w true

section Told

variable {s : Series} {α : Type}

theorem told_write (hs : s.nextVersion = s.version) (f : Store → Except Refusal (Change α)) :
    Told s (s.write f) false := by
  unfold write
  split
  · exact .void ⟨rfl, rfl⟩
  · next gate henter =>
      have hgive := giveUp_of_enter hs henter
      obtain ⟨hopen, -, rfl⟩ := Gate.of_enter henter
      split
      -- without a change the version that was opened is taken back
      · exact .void ⟨hgive, rfl⟩
      · exact .void ⟨hgive, rfl⟩
      · exact .published hopen (Nat.lt_succ_self _) rfl rfl hopen rfl List.mem_cons_self rfl rfl

theorem told_writeAs (hs : s.nextVersion = s.version) (version : Nat)
    (f : Store → Except Refusal (Change α)) : Told s (s.writeAs version f) false := by
  unfold writeAs
  split
  · exact .void ⟨rfl, rfl⟩
  · next gate henter =>
      have hgive := giveUp_of_enter hs henter
      obtain ⟨hopen, -, rfl⟩ := Gate.of_enter henter
      split
      · exact .void ⟨hgive, rfl⟩
      · split
        · exact .void ⟨hgive, rfl⟩
        · split
          · exact .void ⟨hgive, rfl⟩
          · next hpublish =>
              obtain ⟨hlt, rfl⟩ := Gate.of_publishAs hpublish
              exact .published hopen hlt rfl rfl hopen rfl List.mem_cons_self rfl rfl

theorem told_complete (s : Series) : Told s s.complete true := by
  unfold complete
  split
  · exact .void ⟨rfl, rfl⟩
  · exact .void ⟨rfl, rfl⟩
  · next gate hcomplete =>
      unfold Gate.complete at hcomplete
      split at hcomplete
      · cases hcomplete
      · split at hcomplete
        · cases hcomplete
        · next hopen =>
            cases hcomplete
            exact .closed (Bool.eq_false_iff.mpr hopen) rfl rfl rfl rfl rfl List.mem_cons_self
              rfl rfl

/-- Whom a write tells does not depend on its answer, nor on what else it reports. -/
theorem Told.congr {β : Type} {w : Write α} {w' : Write β} {completes : Bool}
    (h : Told s w completes) (hseries : w'.series = w.series) (hnotice : w'.notice = w.notice)
    (hevents : w.events ⊆ w'.events) : Told s w' completes := by
  cases h with
  | void void => exact .void ⟨hseries.trans void.series, hnotice.trans void.notice⟩
  | published was version next writing incomplete tries reported registry notice =>
      rw [← hseries] at version next writing incomplete tries registry reported
      exact .published was version next writing incomplete tries (hevents reported) registry
        (hnotice.trans notice)
  | closed was store version next completed tries reported registry notice =>
      rw [← hseries] at store version next completed tries registry
      exact .closed was store version next completed tries (hevents reported) registry
        (hnotice.trans notice)

theorem Told.discard {w : Write α} {completes : Bool} (h : Told s w completes) :
    Told s w.discard completes :=
  h.congr rfl rfl (List.Subset.refl w.events)

/-- No mutation changes how often readers try. -/
theorem Told.tries_eq {w : Write α} {completes : Bool} (h : Told s w completes) :
    w.series.gate.readTries = s.gate.readTries := by
  cases h with
  | void void => rw [void.series]
  | published _ _ _ _ _ tries => exact tries
  | closed _ _ _ _ _ tries => exact tries

theorem told_perform (hs : s.nextVersion = s.version) (version : Nat) (c : Command) :
    Told s (s.perform version c) (decide (c = .complete)) := by
  have hversioned : ∀ {β : Type} (f : Store → Except Refusal (Change β)),
      Told s (asApplied version (s.writeAs version f)) false := fun f =>
    (told_writeAs hs version f).congr rfl rfl (List.Subset.refl _)
  cases c with
  | set k v => exact hversioned _
  | append entries option =>
      simp only [perform]
      split
      · exact hversioned _
      · exact .void ⟨rfl, rfl⟩
  | remove k lookup => exact hversioned _
  | complete => exact (told_complete s).congr rfl rfl (List.Subset.refl _)

theorem told_apply (hs : s.nextVersion = s.version) (c : StampedCommand) :
    Told s (s.apply c) (decide (c.command = .complete)) := by
  unfold apply
  dsimp only
  split
  · exact .void ⟨rfl, rfl⟩
  · split
    · exact .void ⟨rfl, rfl⟩
    · exact (told_perform hs c.version c.command).congr rfl rfl (List.subset_append_right _ _)

/-- Every mutation is void, or publishes, or completes. -/
theorem told_mutation (hs : s.nextVersion = s.version) (m : Mutation) :
    Told s (m.write s) m.completes := by
  cases m with
  | complete => exact (told_complete s).discard
  | command c => exact (told_apply hs c).discard
  | append entries option =>
      show Told s (s.append entries option).discard false
      unfold append
      split
      · exact (told_write hs _).discard
      · exact .void ⟨rfl, rfl⟩
  | set | tryAdd | remove | removeMany => exact (told_write hs _).discard
  | add k v => exact (told_write hs _ : Told s (s.add k v) false)
  | addFirst k v => exact (told_write hs _ : Told s (s.addFirst k v) false)
  | addLast k v => exact (told_write hs _ : Told s (s.addLast k v) false)

/-- The first completion is not void, if nobody holds the gate. Commands are not taken after the
last version, and so not a completion that is one. -/
theorem notice_of_completes {m : Mutation} (hm : m.completes = true)
    (hfree : s.gate.locked = false) (hopen : s.isCompleted = false)
    (hbelow : m = .complete ∨ s.version ≠ Gate.lastVersion) :
    (m.write s).notice = some (s.registry.notify true).1 := by
  have hunlocked : ¬ s.gate.locked = true := Bool.eq_false_iff.mp hfree
  have hincomplete : ¬ s.gate.readOnly = true := Bool.eq_false_iff.mp hopen
  have hcomplete : s.complete.notice = some (s.registry.notify true).1 := by
    simp only [complete, Gate.complete, if_neg hunlocked, if_neg hincomplete]
    rfl
  cases m with
  | complete => exact hcomplete
  | command c =>
      have hc : c.command = .complete := of_decide_eq_true hm
      show (s.apply c).notice = _
      unfold apply
      dsimp only
      rw [if_neg fun h => h.2 hc, if_neg (hbelow.resolve_left (by rintro ⟨⟩)), hc]
      exact hcomplete
  | _ => cases hm

end Told

/-! ## Reading -/

/-- All that can be told of a read through the gate. -/
def reading {α : Type} (s : Series) (f : Store → α) : Gate.Read Gate α :=
  Gate.read id (fun locked g => { g with locked := locked }) (fun _ g => (f s.store, g)) s.gate

theorem read_eq_reading {α : Type} (s : Series) (f : Store → α) :
    s.read f = (s.reading f).value :=
  rfl

/-- While no version is open the first run of a reader counts. -/
theorem reading_of_settled {α : Type} {s : Series} (hnext : s.nextVersion = s.version)
    (htries : 0 < s.gate.readTries) (f : Store → α) :
    s.reading f = ⟨s.gate, f s.store, 1, false⟩ := by
  unfold reading Gate.read
  simp only [id_eq]
  split
  · obtain ⟨tries, heq⟩ := Nat.exists_eq_succ_of_ne_zero (Nat.ne_of_gt htries)
    have hquiet : s.gate.version = s.gate.nextVersion := hnext.symm
    rw [heq, Gate.tryRead]
    simp only [id_eq, if_pos hquiet, Nat.zero_add]
  · rfl

/-- A reachable series lets readers try. -/
theorem Reachable.tries {s : Series} (h : s.Reachable) : 0 < s.gate.readTries := by
  induction h with
  | make known made =>
      unfold Series.make Gate.make at made
      split at made
      · cases made
      · next hne =>
          cases made
          exact Nat.pos_of_ne_zero hne
  | ofList entries => exact Nat.succ_pos 1023
  | write m hs ih =>
      rw [(told_mutation hs.next_and_page.1 m).tries_eq]
      exact ih
  | settle _ ih => exact ih
  | registry r _ ih => exact ih

/-! ## Runs -/

/-- What happens to a series in a run. -/
inductive Turn where
  | mutate (m : Mutation)
  /-- The writer leaves the gate. -/
  | settle
  /-- Subscriptions come, go, and ask for notifications. -/
  | registry (r : Registry)

/-- The series after a turn. -/
def turn (s : Series) : Turn → Series
  | .mutate m => (m.write s).series
  | .settle => s.settle
  | .registry r => { s with registry := r }

/-- The notifications of a turn. -/
def noticesOf (s : Series) : Turn → List Notice
  | .mutate m => (m.write s).notice.toList
  | .settle | .registry _ => []

/-- The versions that a turn published. -/
def publicationsOf (s : Series) (t : Turn) : List Nat :=
  if (s.turn t).version = s.version then [] else [(s.turn t).version]

/-- The series after a run. -/
def afterTurns : Series → List Turn → Series
  | s, [] => s
  | s, t :: rest => (s.turn t).afterTurns rest

/-- The notifications of a run. -/
def notices : Series → List Turn → List Notice
  | _, [] => []
  | s, t :: rest => s.noticesOf t ++ (s.turn t).notices rest

/-- The versions that a run published. -/
def publications : Series → List Turn → List Nat
  | _, [] => []
  | s, t :: rest => s.publicationsOf t ++ (s.turn t).publications rest

/-- Forced notifications go with completions, and the others with versions. -/
structure Tally (s s' : Series) (notices : List Notice) (publications : List Nat) : Prop where
  unforced : notices.countP (fun n => !n.force) = publications.length
  forced : notices.countP (·.force) + s.isCompleted.toNat = s'.isCompleted.toNat
  increasing : (s.version :: publications).Pairwise (· < ·)
  latest : (s.version :: publications).getLast? = some s'.version

theorem force_notify (r : Registry) (force : Bool) : (r.notify force).1.force = force := by
  unfold Registry.notify
  split <;> rfl

theorem Reachable.turn {s : Series} (hs : s.Reachable) (t : Turn) : (s.turn t).Reachable := by
  cases t with
  | mutate m => exact .write m hs
  | settle => exact .settle hs
  | registry r => exact .registry r hs

theorem Reachable.afterTurns {s : Series} (h : s.Reachable) (turns : List Turn) :
    (s.afterTurns turns).Reachable := by
  induction turns generalizing s with
  | nil => exact h
  | cons t rest ih => exact ih (h.turn t)

/-- A turn that leaves the version and the completion as they are, and notifies nobody. -/
theorem tally_of_same {s s' : Series} (hversion : s'.version = s.version)
    (hcompleted : s'.isCompleted = s.isCompleted) : Tally s s' [] [] where
  unforced := rfl
  forced := by rw [hcompleted]; exact Nat.zero_add _
  increasing := List.pairwise_singleton _ _
  latest := congrArg some hversion.symm

theorem tally_turn {s : Series} (hs : s.Reachable) (t : Turn) :
    Tally s (s.turn t) (s.noticesOf t) (s.publicationsOf t) := by
  have hquiet : ∀ t, (s.turn t).version = s.version → (s.turn t).isCompleted = s.isCompleted →
      s.noticesOf t = [] → Tally s (s.turn t) (s.noticesOf t) (s.publicationsOf t) := by
    intro t hversion hcompleted hnotices
    rw [hnotices, publicationsOf, if_pos hversion]
    exact tally_of_same hversion hcompleted
  cases t with
  | settle => exact hquiet _ rfl rfl rfl
  | registry r => exact hquiet _ rfl rfl rfl
  | mutate m =>
      have htold := told_mutation hs.next_and_page.1 m
      generalize m.completes = completes at htold
      cases htold with
      | void void =>
          refine hquiet _ (congrArg version void.series) (congrArg isCompleted void.series) ?_
          rw [noticesOf, void.notice]
          rfl
      | published was version next writing incomplete tries reported registry notice =>
          have hne : (s.turn (.mutate m)).version ≠ s.version := Nat.ne_of_gt version
          rw [noticesOf, notice, publicationsOf, if_neg hne]
          refine ⟨?_, ?_, List.pairwise_pair.mpr version, rfl⟩
          · simp [force_notify]
          · have hsame : (s.turn (.mutate m)).isCompleted = s.isCompleted := incomplete.trans was.symm
            simp [force_notify, hsame]
      | closed was store version next completed tries reported registry notice =>
          have hversion : (s.turn (.mutate m)).version = s.version := version
          have hcompleted : (s.turn (.mutate m)).isCompleted = true := completed
          rw [noticesOf, notice, publicationsOf, if_pos hversion]
          refine ⟨?_, ?_, List.pairwise_singleton _ _, congrArg some hversion.symm⟩
          · simp [force_notify]
          · simp [force_notify, hcompleted, was]

theorem Tally.append {s s' s'' : Series} {notices notices' : List Notice}
    {publications publications' : List Nat} (h : Tally s s' notices publications)
    (h' : Tally s' s'' notices' publications') :
    Tally s s'' (notices ++ notices') (publications ++ publications') where
  unforced := by rw [List.countP_append, List.length_append, h.unforced, h'.unforced]
  forced := by
    rw [List.countP_append, ← h'.forced, ← h.forced]
    omega
  increasing := by
    have hfirst := List.isChain_iff_pairwise.mpr h.increasing
    have hsecond := List.isChain_iff_pairwise.mpr h'.increasing
    refine List.isChain_iff_pairwise.mp (List.isChain_append.mpr ⟨hfirst, hsecond.tail, ?_⟩)
    -- the second part starts from the version at which the first one ended
    intro x hx y hy
    rw [h.latest] at hx
    cases hx
    cases publications' with
    | nil => cases hy
    | cons z rest =>
        cases hy
        exact (List.isChain_cons_cons.mp hsecond).1
  latest := by
    have hlast := h'.latest
    rw [← List.cons_append, List.getLast?_append, h.latest]
    cases publications' with
    | nil => exact hlast
    | cons z rest =>
        rw [List.getLast?_cons_cons] at hlast
        rw [hlast]
        rfl

/-- In a run there is one notification for each version that was published, and one by force if the
series was completed on the way. The versions increase. -/
theorem announced_once {s : Series} (hs : s.Reachable) (turns : List Turn) :
    Tally s (s.afterTurns turns) (s.notices turns) (s.publications turns) := by
  -- every turn adds its own account, from the series that the turns before it left
  induction turns generalizing s with
  | nil => exact tally_of_same rfl rfl
  | cons t rest ih => exact (tally_turn hs t).append (ih (hs.turn t))

end Series

end LiveSeries
