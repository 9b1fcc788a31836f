import LiveSeries.Gate.Script

/-!
# Runs of a gate

The two counters of a gate are written in five places, and a write may publish more than once. For
a caller that holds at most one write at a time, whatever it does in whatever order, they are tied
to each other and to what the caller holds (`Caller.Consistent`), they never go back, and they stand
still from the completion on (`Caller.Since`). All that is known of a run is in `Caller.Orderly`,
and every run is orderly (`Caller.orderly_run`).

A run is cut into turns here, one for each action and one for each time the lock is taken or freed
by a read. What an action can do to the gate is said once (`Held.Did`), and all else follows from
that. A read is made of turns as well, those of its runs and of the lock if it falls back
(`Caller.exists_turns_of_read`).
-/

namespace LiveSeries

/-! ## Single actions -/

namespace Held

/-- What an action answers, and what it leaves. -/
inductive Did (h : Held) : GateAction → GateAnswer → Held → Prop where
  /-- Nothing changed. -/
  | idle {a : GateAction} {answer : GateAnswer}
      (quiet : ¬ (a = .complete ∧ answer = .flag true)) : Did h a answer h
  | entered (free : h.gate.locked = false) (admits : ¬ h.gate.readOnly = true) :
      Did h .enter (.versions h.gate.version (h.gate.version + 1))
        ⟨{ h.gate with locked := true, nextVersion := h.gate.version + 1 }, some false⟩
  | published {published : Bool} (holds : h.write = some published) :
      Did h .publish (.version h.gate.nextVersion)
        ⟨{ h.gate with version := h.gate.nextVersion }, some true⟩
  | publishedAs {published : Bool} {v : Nat} (holds : h.write = some published)
      (later : h.gate.version < v) :
      Did h (.publishAs v) (.version v)
        ⟨{ h.gate with version := v, nextVersion := v }, some true⟩
  | left {published : Bool} (holds : h.write = some published) :
      Did h .leave (.flag true) ⟨h.gate.leave published, none⟩
  | completed (free : h.gate.locked = false) (admits : ¬ h.gate.readOnly = true) :
      Did h .complete (.flag true)
        { h with gate := { h.gate with
            nextVersion := h.gate.version, readOnly := true, synchronized := false } }
  /-- Entered, published and left at once. -/
  | wrote (free : h.gate.locked = false) (admits : ¬ h.gate.readOnly = true) :
      Did h .write (.version (h.gate.version + 1))
        { h with gate := { h.gate with
            version := h.gate.version + 1, nextVersion := h.gate.version + 1, locked := false } }

theorem did_act (h : Held) (a : GateAction) : h.Did a (h.act a).1 (h.act a).2 := by
  cases a with
  | rest => exact .idle nofun
  | enter =>
      simp only [act]
      split
      · next g hg =>
          obtain ⟨hopen, hfree, rfl⟩ := Gate.of_enter hg
          exact .entered hfree (Bool.eq_false_iff.mp hopen)
      · exact .idle nofun
  | publish =>
      simp only [act]
      split
      · exact .idle nofun
      · next hholds => exact .published hholds
  | publishAs v =>
      simp only [act]
      split
      · exact .idle nofun
      · next hholds =>
          split
          · next g hg =>
              obtain ⟨hlater, rfl⟩ := Gate.of_publishAs hg
              exact .publishedAs hholds hlater
          · exact .idle nofun
  | leave =>
      simp only [act]
      split
      · exact .idle nofun
      · next hholds => exact .left hholds
  | complete =>
      simp only [act, Gate.complete]
      by_cases hlocked : h.gate.locked = true
      · rw [if_pos hlocked]
        exact .idle nofun
      · rw [if_neg hlocked]
        by_cases hclosed : h.gate.readOnly = true
        · rw [if_pos hclosed]
          exact .idle nofun
        · rw [if_neg hclosed]
          exact .completed (Bool.eq_false_iff.mpr hlocked) hclosed
  | readLocked =>
      simp only [act]
      split <;> exact .idle nofun
  | write =>
      simp only [act]
      split
      · next g hg =>
          obtain ⟨hopen, hfree, rfl⟩ := Gate.of_enter hg
          exact .wrote hfree (Bool.eq_false_iff.mp hopen)
      · exact .idle nofun

/-- An action that was refused, or that needs a write which the caller does not hold, changes
nothing. -/
theorem Did.eq_of_refused {h h' : Held} {a : GateAction} {answer : GateAnswer}
    (hdid : h.Did a answer h') (hanswer : answer = .noWrite ∨ ∃ r, answer = .refused r) :
    h' = h := by
  cases hdid with
  | idle => rfl
  | entered | published | publishedAs | left | completed | wrote => simp at hanswer

end Held

/-! ## Turns -/

/-- What happens next between a gate and its caller. -/
inductive GateTurn where
  | act (a : GateAction)
  /-- A read takes the lock. -/
  | lock
  /-- The read is over, and frees it. -/
  | unlock
  deriving DecidableEq

/-- A gate with what its caller holds: a write, or the lock for a read. -/
structure Caller extends Held where
  reading : Bool := false

/-- The state in which a read stops trying. -/
def Held.afterTries (h : Held) (runs : List (List GateAction)) : Held :=
  (Gate.tryRead Held.gate (fun i h => h.acts (runs.getD i [])) h.gate.readTries 0 h).2

/-- The read comes to an end. One that falls back waits for the lock, and would wait for ever if its
caller holds it. -/
def Held.Returns (h : Held) (runs : List (List GateAction)) : Prop :=
  (h.read runs).fellBack = true → (h.afterTries runs).gate.locked = false

namespace Caller

/-- One turn. A read waits for a lock that is taken. -/
def turn (c : Caller) : GateTurn → GateAnswer × Caller
  | .act a => ((c.toHeld.act a).1, ⟨(c.toHeld.act a).2, c.reading⟩)
  | .lock =>
    if c.gate.locked then (.refused .busy, c)
    else (.nothing, ⟨c.toHeld.setLocked true, true⟩)
  | .unlock => if c.reading then (.nothing, ⟨c.toHeld.setLocked false, false⟩) else (.noWrite, c)

/-- Turns one after the other, with their answers. -/
def run (c : Caller) : List GateTurn → List (GateTurn × GateAnswer) × Caller
  | [] => ([], c)
  | t :: rest => ((t, (c.turn t).1) :: ((c.turn t).2.run rest).1, ((c.turn t).2.run rest).2)

/-- A gate without a caller. -/
def idle (g : Gate) : Caller := { gate := g }

/-- The counters and the flags of the gate tell what the caller holds. -/
structure Consistent (c : Caller) : Prop where
  /-- The next version is open exactly while a write is held that has not published. -/
  next : c.gate.nextVersion =
    if c.write = some false then c.gate.version + 1 else c.gate.version
  /-- The lock is held exactly while a write or a locked read lives. -/
  locked : c.gate.locked = (c.write.isSome || c.reading)
  /-- Not both of them live at once. -/
  alone : c.reading = true → c.write = none
  synchronized : c.gate.synchronized = !c.gate.readOnly
  /-- The caller of a completed gate holds no write. -/
  closed : c.gate.readOnly = true → c.write = none

/-- The gate of `c` may have become that of `c'`: no version was taken back, and a completed gate
stayed as it was. -/
structure Since (c c' : Caller) : Prop where
  version : c.gate.version ≤ c'.gate.version
  closed : c.gate.readOnly = true → c'.gate.readOnly = true ∧
    c'.gate.version = c.gate.version ∧ c'.gate.nextVersion = c.gate.nextVersion

theorem Since.refl (c : Caller) : c.Since c := ⟨Nat.le_refl _, fun h => ⟨h, rfl, rfl⟩⟩

theorem Since.trans {c c' c'' : Caller} (h : c.Since c') (h' : c'.Since c'') : c.Since c'' where
  version := Nat.le_trans h.version h'.version
  closed hclosed := by
    obtain ⟨hclosed', hversion, hnext⟩ := h.closed hclosed
    obtain ⟨hclosed'', hversion', hnext'⟩ := h'.closed hclosed'
    exact ⟨hclosed'', hversion'.trans hversion, hnext'.trans hnext⟩

section Turn

variable {h h' : Held} {reading : Bool} {a : GateAction} {answer : GateAnswer} {c : Caller}

/-- A caller that finds the lock free holds nothing. -/
theorem Consistent.holds_nothing (hc : c.Consistent) (hfree : c.gate.locked = false) :
    c.write = none ∧ c.reading = false := by
  have hlocked := hc.locked
  rw [hfree] at hlocked
  obtain ⟨hwrite, hreading⟩ := Bool.or_eq_false_iff.mp hlocked.symm
  exact ⟨Option.not_isSome_iff_eq_none.mp (Bool.eq_false_iff.mp hwrite), hreading⟩

/-- A caller that holds a write is in no locked read, and its gate is not completed. -/
theorem Consistent.holds_write (hc : c.Consistent) {published : Bool}
    (hholds : c.write = some published) : c.reading = false ∧ ¬ c.gate.readOnly = true := by
  refine ⟨Bool.eq_false_iff.mpr fun hreading => ?_, fun hclosed => ?_⟩
  · rw [hc.alone hreading] at hholds
    cases hholds
  · rw [hc.closed hclosed] at hholds
    cases hholds

theorem Consistent.did (hc : Consistent ⟨h, reading⟩) (hdid : h.Did a answer h') :
    Consistent ⟨h', reading⟩ := by
  cases hdid with
  | idle => exact hc
  | entered free admits =>
      obtain ⟨-, rfl⟩ := hc.holds_nothing free
      exact ⟨rfl, rfl, nofun, hc.synchronized, fun hclosed => absurd hclosed admits⟩
  | published holds | publishedAs holds =>
      obtain ⟨rfl, hopen⟩ := hc.holds_write holds
      have hlocked : h.gate.locked = true := by
        rw [hc.locked, holds]
        rfl
      exact ⟨rfl, hlocked, nofun, hc.synchronized, fun hclosed => absurd hclosed hopen⟩
  | @left published holds =>
      obtain ⟨rfl, hopen⟩ := hc.holds_write holds
      -- a write that published had closed its version by then
      have hnext : (h.gate.leave published).nextVersion = h.gate.version := by
        cases published with
        | false => rfl
        | true =>
            have hsame := hc.next
            rw [holds] at hsame
            exact hsame
      exact ⟨hnext, rfl, nofun, hc.synchronized, fun _ => rfl⟩
  | completed free admits =>
      obtain ⟨hwrite, rfl⟩ := hc.holds_nothing free
      refine ⟨?_, hc.locked, nofun, rfl, fun _ => hwrite⟩
      show h.gate.version = if h.write = some false then h.gate.version + 1 else h.gate.version
      rw [hwrite]
      rfl
  | wrote free admits =>
      obtain ⟨hwrite, rfl⟩ := hc.holds_nothing free
      refine ⟨?_, ?_, nofun, hc.synchronized, fun hclosed => absurd hclosed admits⟩
      · show h.gate.version + 1 =
          if h.write = some false then h.gate.version + 1 + 1 else h.gate.version + 1
        rw [hwrite]
        rfl
      · show false = (h.write.isSome || false)
        rw [hwrite]
        rfl

theorem Consistent.since_did (hc : Consistent ⟨h, reading⟩) (hdid : h.Did a answer h') :
    Since ⟨h, reading⟩ ⟨h', reading⟩ := by
  -- but for an idle one, no action is taken on a completed gate
  have hopened : ∀ {g : Gate} {write : Option Bool}, ¬ h.gate.readOnly = true →
      h.gate.version ≤ g.version → Since ⟨h, reading⟩ ⟨⟨g, write⟩, reading⟩ :=
    fun hopen hle => ⟨hle, fun hclosed => absurd hclosed hopen⟩
  cases hdid with
  | idle => exact .refl _
  | entered free admits => exact hopened admits (Nat.le_refl _)
  | @published published holds =>
      refine hopened (hc.holds_write holds).2 ?_
      have hnext : h.gate.nextVersion =
        if h.write = some false then h.gate.version + 1 else h.gate.version := hc.next
      show h.gate.version ≤ h.gate.nextVersion
      rw [hnext]
      split <;> omega
  | publishedAs holds later => exact hopened (hc.holds_write holds).2 (Nat.le_of_lt later)
  | left holds => exact hopened (hc.holds_write holds).2 (Nat.le_refl _)
  | completed free admits => exact hopened admits (Nat.le_refl _)
  | wrote free admits => exact hopened admits (Nat.le_succ _)

/-- A turn of a caller, which is an action or takes or frees the lock. -/
theorem Consistent.turn (hc : c.Consistent) (t : GateTurn) : (c.turn t).2.Consistent := by
  cases t with
  | act a => exact hc.did (Held.did_act c.toHeld a)
  | lock =>
      simp only [Caller.turn]
      split
      · exact hc
      · next hfree =>
          obtain ⟨hwrite, -⟩ := hc.holds_nothing (Bool.eq_false_iff.mpr hfree)
          exact ⟨hc.next, by simp [Held.setLocked], fun _ => hwrite, hc.synchronized, hc.closed⟩
  | unlock =>
      simp only [Caller.turn]
      split
      · next hreading =>
          have hwrite := hc.alone hreading
          exact ⟨hc.next, by simp [Held.setLocked, hwrite], nofun, hc.synchronized, hc.closed⟩
      · exact hc

theorem Consistent.since_turn (hc : c.Consistent) (t : GateTurn) : c.Since (c.turn t).2 := by
  cases t with
  | act a => exact hc.since_did (Held.did_act c.toHeld a)
  | lock =>
      simp only [Caller.turn]
      split
      · exact .refl c
      · exact ⟨Nat.le_refl _, fun hclosed => ⟨hclosed, rfl, rfl⟩⟩
  | unlock =>
      simp only [Caller.turn]
      split
      · exact ⟨Nat.le_refl _, fun hclosed => ⟨hclosed, rfl, rfl⟩⟩
      · exact .refl c

/-- A turn that is refused, or that frees what the caller does not hold, changes nothing. -/
theorem turn_of_refused (c : Caller) (t : GateTurn)
    (hrefused : (c.turn t).1 = .noWrite ∨ ∃ r, (c.turn t).1 = .refused r) : (c.turn t).2 = c := by
  cases t with
  | act a =>
      have hsame := (Held.did_act c.toHeld a).eq_of_refused hrefused
      exact congrArg (fun h => (⟨h, c.reading⟩ : Caller)) hsame
  | lock =>
      simp only [Caller.turn] at hrefused ⊢
      split
      · rfl
      · next hfree => simp [hfree] at hrefused
  | unlock =>
      simp only [Caller.turn] at hrefused ⊢
      split
      · next hreading => simp [hreading] at hrefused
      · rfl

/-- The caller of a completed gate is not let in, and does not wait, be the lock free or taken. -/
theorem refused_of_closed (hclosed : c.gate.readOnly = true) {a : GateAction}
    (ha : a = .enter ∨ a = .write) : (c.turn (.act a)).1 = .refused .readOnly := by
  have henter : c.gate.enter = .error .readOnly := Gate.enter_of_readOnly hclosed
  rcases ha with rfl | rfl <;> simp only [Caller.turn, Held.act, henter]

/-- A completion that is answered leaves a completed gate. -/
theorem turn_complete (c : Caller) {first : Bool}
    (hanswer : (c.turn (.act .complete)).1 = .flag first) :
    first = !c.gate.readOnly ∧ (c.turn (.act .complete)).2.gate.readOnly = true := by
  simp only [Caller.turn, Held.act, Gate.complete] at hanswer ⊢
  by_cases hlocked : c.gate.locked = true
  · rw [if_pos hlocked] at hanswer
    cases hanswer
  · rw [if_neg hlocked] at hanswer ⊢
    cases hclosed : c.gate.readOnly with
    | false =>
        rw [hclosed] at hanswer
        cases hanswer
        exact ⟨rfl, rfl⟩
    | true =>
        rw [hclosed] at hanswer
        cases hanswer
        exact ⟨rfl, hclosed⟩

end Turn

/-! ## Runs -/

/-- How often a completion answered that it completed the gate. -/
def completions (trace : List (GateTurn × GateAnswer)) : Nat :=
  trace.count (.act .complete, .flag true)

/-- What is known of a gate and its caller after a run. -/
structure Orderly (c : Caller) (trace : List (GateTurn × GateAnswer)) : Prop where
  consistent : c.Consistent
  /-- One completion said that it completed the gate, if the gate is completed, and else none. -/
  completions : completions trace = if c.gate.readOnly then 1 else 0
  completes : ∀ first, (c.turn (.act .complete)).1 = .flag first →
    first = !c.gate.readOnly ∧ (c.turn (.act .complete)).2.gate.readOnly = true
  since : ∀ more, c.Since (c.run more).2
  /-- What is refused, or needs a write that is not held, changes nothing. -/
  refused : ∀ t, ((c.turn t).1 = .noWrite ∨ ∃ r, (c.turn t).1 = .refused r) → (c.turn t).2 = c
  /-- A completed gate lets nobody in, and says so, also under the lock. -/
  closed : c.gate.readOnly = true → ∀ a, a = .enter ∨ a = .write →
    (c.turn (.act a)).1 = .refused .readOnly
  /-- A whole read is made of turns. -/
  read : c.reading = false → ∀ runs, c.toHeld.Returns runs →
    ∃ more, (c.run more).2 = ⟨(c.toHeld.read runs).state, false⟩

section Run

variable {c : Caller}

theorem run_append (c : Caller) (turns more : List GateTurn) :
    (c.run (turns ++ more)).2 = ((c.run turns).2.run more).2 := by
  induction turns generalizing c with
  | nil => rfl
  | cons t rest ih => exact ih (c.turn t).2

theorem Consistent.run (hc : c.Consistent) (turns : List GateTurn) :
    (c.run turns).2.Consistent := by
  induction turns generalizing c with
  | nil => exact hc
  | cons t rest ih => exact ih (hc.turn t)

theorem Consistent.since_run (hc : c.Consistent) (turns : List GateTurn) :
    c.Since (c.run turns).2 := by
  induction turns generalizing c with
  | nil => exact .refl c
  | cons t rest ih => exact (hc.since_turn t).trans (ih (hc.turn t))

/-- A gate is completed by the turn that says so, and by no other. -/
theorem completions_turn (c : Caller) (t : GateTurn) :
    completions [(t, (c.turn t).1)] + c.gate.readOnly.toNat =
      (c.turn t).2.gate.readOnly.toNat := by
  rw [completions, List.count_singleton]
  cases t with
  | act a =>
      show (if ((.act a, (c.toHeld.act a).1) : GateTurn × GateAnswer) ==
          (.act .complete, .flag true) then 1 else 0) + c.gate.readOnly.toNat =
        (c.toHeld.act a).2.gate.readOnly.toNat
      have hdid := Held.did_act c.toHeld a
      generalize (c.toHeld.act a).1 = answer at hdid ⊢
      generalize (c.toHeld.act a).2 = after at hdid ⊢
      cases hdid with
      | idle quiet => simpa using quiet
      | completed free admits => simp [Bool.eq_false_iff.mpr admits]
      | entered | published | publishedAs | left | wrote => simp [Gate.leave]
  | lock => simp only [Caller.turn]; split <;> simp [Held.setLocked]
  | unlock => simp only [Caller.turn]; split <;> simp [Held.setLocked]

theorem completions_run (c : Caller) (turns : List GateTurn) :
    completions (c.run turns).1 + c.gate.readOnly.toNat = (c.run turns).2.gate.readOnly.toNat := by
  induction turns generalizing c with
  | nil => exact Nat.zero_add _
  | cons t rest ih =>
      have htrace : (c.run (t :: rest)).1 = [(t, (c.turn t).1)] ++ ((c.turn t).2.run rest).1 := rfl
      have hcount : completions (c.run (t :: rest)).1 =
          completions [(t, (c.turn t).1)] + completions ((c.turn t).2.run rest).1 := by
        rw [htrace]
        exact List.count_append
      have hturn := completions_turn c t
      have hrest := ih (c.turn t).2
      show _ = ((c.turn t).2.run rest).2.gate.readOnly.toNat
      omega

/-! A read is the turns of its runs, and between two turns of the lock those of the last run, if it
falls back. -/

theorem run_acts (h : Held) (reading : Bool) (actions : List GateAction) :
    ((⟨h, reading⟩ : Caller).run (actions.map .act)).2 = ⟨(h.acts actions).2, reading⟩ := by
  induction actions generalizing h with
  | nil => rfl
  | cons a rest ih => exact ih (h.act a).2

theorem exists_turns_of_tryRead (runs : List (List GateAction)) (tries done : Nat) (h : Held) :
    ∃ turns, ((⟨h, false⟩ : Caller).run turns).2 =
      ⟨(Gate.tryRead Held.gate (fun i h => h.acts (runs.getD i [])) tries done h).2, false⟩ := by
  induction tries generalizing done h with
  | zero => exact ⟨[], rfl⟩
  | succ tries ih =>
      have hrun := run_acts h false (runs.getD done [])
      simp only [Gate.tryRead]
      split
      · exact ⟨_, hrun⟩
      · obtain ⟨turns, hturns⟩ := ih (done + 1) (h.acts (runs.getD done [])).2
        refine ⟨(runs.getD done []).map .act ++ turns, ?_⟩
        rw [run_append, hrun]
        exact hturns

/-- The run of a read that falls back. -/
theorem exists_turns_of_fallback {h : Held} (hfree : h.gate.locked = false)
    (actions : List GateAction) :
    ∃ turns, ((⟨h, false⟩ : Caller).run turns).2 =
      ⟨((h.setLocked true).acts actions).2.setLocked false, false⟩ := by
  have hlock : (⟨h, false⟩ : Caller).turn .lock = (.nothing, ⟨h.setLocked true, true⟩) :=
    if_neg (Bool.eq_false_iff.mp hfree)
  refine ⟨.lock :: (actions.map .act ++ [.unlock]), ?_⟩
  show (((⟨h, false⟩ : Caller).turn .lock).2.run (actions.map .act ++ [.unlock])).2 = _
  rw [hlock, run_append, run_acts]
  rfl

theorem exists_turns_of_read {h : Held} {runs : List (List GateAction)}
    (hreturns : h.Returns runs) :
    ∃ turns, ((⟨h, false⟩ : Caller).run turns).2 = ⟨(h.read runs).state, false⟩ := by
  obtain ⟨turns, hturns⟩ := exists_turns_of_tryRead runs h.gate.readTries 0 h
  simp only [Held.Returns, Held.afterTries] at hreturns
  simp only [Held.read, Gate.read] at hreturns ⊢
  by_cases hsync : h.gate.synchronized = true
  · simp only [if_pos hsync] at hreturns ⊢
    generalize Gate.tryRead Held.gate (fun i h => h.acts (runs.getD i [])) h.gate.readTries 0 h =
      tried at hturns hreturns ⊢
    obtain ⟨_ | ⟨value, count⟩, after⟩ := tried
    · obtain ⟨more, hmore⟩ := exists_turns_of_fallback (hreturns rfl)
        (runs.getD h.gate.readTries [])
      refine ⟨turns ++ more, ?_⟩
      rw [run_append, hturns]
      exact hmore
    · exact ⟨turns, hturns⟩
  · simp only [if_neg hsync]
    exact ⟨_, run_acts h false (runs.getD 0 [])⟩

end Run

/-- A gate that is made belongs to nobody. -/
theorem consistent_make {tries : Nat} {g : Gate} (hg : Gate.make tries = .ok g) :
    (idle g).Consistent ∧ g.readOnly = false := by
  unfold Gate.make at hg
  split at hg
  · cases hg
  · cases hg
    exact ⟨⟨rfl, rfl, nofun, rfl, nofun⟩, rfl⟩

/-- Every run of a gate is orderly. -/
theorem orderly_run {tries : Nat} {g : Gate} (hg : Gate.make tries = .ok g)
    (turns : List GateTurn) : ((idle g).run turns).2.Orderly ((idle g).run turns).1 := by
  obtain ⟨hbegin, hopen⟩ := consistent_make hg
  have hconsistent := hbegin.run turns
  have hcount := completions_run (idle g) turns
  have hnone : (idle g).gate.readOnly.toNat = 0 := congrArg Bool.toNat hopen
  constructor
  · exact hconsistent
  · -- the gate was open at first, so what was counted is whether it is completed now
    rw [hnone, Nat.add_zero] at hcount
    rw [hcount]
    cases ((idle g).run turns).2.gate.readOnly <;> rfl
  · intro first hanswer
    exact turn_complete _ hanswer
  · exact hconsistent.since_run
  · exact turn_of_refused _
  · intro hclosed a ha
    exact refused_of_closed hclosed ha
  · intro hreading runs hreturns
    obtain ⟨more, hmore⟩ := exists_turns_of_read hreturns
    refine ⟨more, ?_⟩
    rw [← hmore, ← hreading]

/-- A write that publishes twice and once in vain, a completion that is asked for twice, and a read
that takes the lock and has not freed it yet. -/
def mixedTurns : List GateTurn :=
  [.act .enter, .act (.publishAs 5), .act .publish, .act (.publishAs 3), .act .leave,
    .act .complete, .act .complete, .lock]

/-- From within that read the gate refuses a writer. -/
theorem orderly_run_mixedTurns :
    completions ((idle { readTries := 4 }).run mixedTurns).1 = 1 ∧
      ((idle { readTries := 4 }).run mixedTurns).2.gate.nextVersion = 5 ∧
      ((idle { readTries := 4 }).run mixedTurns).2.gate.locked = true ∧
      (((idle { readTries := 4 }).run mixedTurns).2.turn (.act .enter)).1 = .refused .readOnly := by
  have hmade : Gate.make 4 = .ok { readTries := 4 } := rfl
  have horderly := orderly_run hmade mixedTurns
  exact ⟨horderly.completions.trans rfl, horderly.consistent.next.trans rfl,
    horderly.consistent.locked.trans rfl, horderly.closed rfl .enter (.inl rfl)⟩

end Caller

end LiveSeries
