import LiveSeries.LoadQueue

/-!
# The replay of a load

A load queue that is finished replays its commands in the order of their versions. If any two
commands of one version are the same command, that order is all that the arrival can leave open,
so the outcome of a load does not depend on it (`replayOrder_eq_of_perm`).

A replay relaxes every append. Where the strict append succeeds, the relaxed one does the same
(`consumer_relax`); so a replay does what feeding the commands in their order does, as long as
that makes no error (`replay_relax_eq_feed`). Both together are `load_replays`.
-/

namespace LiveSeries

/-- Hands commands to a consumer one after the other, whatever it answers. -/
def Consumer.feed {σ : Type} (inner : Consumer σ) :
    List StampedCommand → σ → List (Except Failure Outcome) × σ
  | [], s => ([], s)
  | c :: rest, s =>
    let (answer, s) := inner c s
    let (answers, s) := Consumer.feed inner rest s
    (answer :: answers, s)

/-- A consumer takes commands if it answers none of them with an error. -/
def Consumer.Takes {σ : Type} (inner : Consumer σ) (commands : List StampedCommand) (s : σ) :
    Prop :=
  ∀ answer ∈ (inner.feed commands s).1, ∃ o, answer = .ok o

theorem Consumer.feed_cons {σ : Type} {inner : Consumer σ} {c : StampedCommand} {s s' : σ}
    {answer : Except Failure Outcome} (h : inner c s = (answer, s')) (rest : List StampedCommand) :
    inner.feed (c :: rest) s = (answer :: (inner.feed rest s').1, (inner.feed rest s').2) := by
  simp only [Consumer.feed, h]

theorem Consumer.takes_nil {σ : Type} (inner : Consumer σ) (s : σ) : inner.Takes [] s := by
  intro answer ha
  cases ha

theorem Consumer.takes_cons {σ : Type} {inner : Consumer σ} {c : StampedCommand}
    {rest : List StampedCommand} {s : σ} :
    inner.Takes (c :: rest) s ↔ ∃ o s', inner c s = (.ok o, s') ∧ inner.Takes rest s' := by
  generalize hstep : inner c s = step
  obtain ⟨answer, s'⟩ := step
  rw [Takes, feed_cons hstep]
  constructor
  · intro h
    obtain ⟨o, rfl⟩ := h answer List.mem_cons_self
    exact ⟨o, s', rfl, fun answer ha => h answer (List.mem_cons_of_mem _ ha)⟩
  · rintro ⟨o, s'', heq, hrest⟩ answer' ha
    cases heq
    rcases List.mem_cons.mp ha with rfl | ha
    · exact ⟨o, rfl⟩
    · exact hrest answer' ha

theorem Consumer.feed_append {σ : Type} {inner : Consumer σ} (a b : List StampedCommand) (s : σ) :
    inner.feed (a ++ b) s =
      ((inner.feed a s).1 ++ (inner.feed b (inner.feed a s).2).1,
        (inner.feed b (inner.feed a s).2).2) := by
  induction a generalizing s with
  | nil => rfl
  | cons c rest ih =>
      generalize hstep : inner c s = step
      obtain ⟨answer, s'⟩ := step
      rw [List.cons_append, feed_cons hstep, feed_cons hstep, ih]
      rfl

theorem Consumer.takes_append {σ : Type} {inner : Consumer σ} {a b : List StampedCommand} {s : σ} :
    inner.Takes (a ++ b) s ↔ inner.Takes a s ∧ inner.Takes b (inner.feed a s).2 := by
  rw [Takes, feed_append]
  constructor
  · intro h
    exact ⟨fun answer ha => h answer (List.mem_append_left _ ha),
      fun answer ha => h answer (List.mem_append_right _ ha)⟩
  · rintro ⟨ha, hb⟩ answer hanswer
    rcases List.mem_append.mp hanswer with hanswer | hanswer
    · exact ha answer hanswer
    · exact hb answer hanswer

/-- The command changed its series. -/
def Outcome.tookEffect : Outcome → Bool
  | .applied _ | .completed => true
  | .skipped | .queued => false

/-- An answer of a command that changed its series. -/
def answersEffect : Except Failure Outcome → Bool
  | .ok o => o.tookEffect
  | .error _ => false

namespace LoadQueue

variable {σ : Type}

/-- Keeps commands in a fresh queue, and finishes the load. -/
def load (inner : Consumer σ) (id : Nat) (commands : List StampedCommand) (s : σ) :
    Except Failure Nat × LoadQueue × σ :=
  let (q, s) := ((consumer inner).feed commands (⟨id, some []⟩, s)).2
  finish inner q s

/-! ## Phases of a queue -/

/-- A queue that is loading keeps the commands of its series. -/
theorem consumer_of_loading (inner : Consumer σ) {id : Nat} {c : StampedCommand}
    (hc : c.series = id) (kept : List StampedCommand) (s : σ) :
    consumer inner c (⟨id, some kept⟩, s) = (.ok .queued, ⟨id, some (kept ++ [c])⟩, s) := by
  simp only [consumer, hc, ne_eq, not_true_eq_false, if_false]

/-- A finished queue hands its commands on. -/
theorem consumer_of_live (inner : Consumer σ) {q : LoadQueue} (hlive : q.pending = none)
    {c : StampedCommand} (hc : c.series = q.id) (s : σ) :
    consumer inner c (q, s) = ((inner c s).1, q, (inner c s).2) := by
  simp only [consumer, hc, ne_eq, not_true_eq_false, if_false, hlive]

/-- A queue refuses the commands of other series, and keeps none of them. -/
theorem consumer_of_other (inner : Consumer σ) {q : LoadQueue} {c : StampedCommand}
    (hc : c.series ≠ q.id) (s : σ) :
    consumer inner c (q, s) = (.error (.refused (.wrongSeries q.id c.series)), q, s) :=
  if_pos hc

theorem finish_of_live (inner : Consumer σ) {q : LoadQueue} (hlive : q.pending = none) (s : σ) :
    finish inner q s = (.ok 0, q, s) := by
  rw [finish, hlive]

/-- A load is over when it is finished, whatever came of it. -/
theorem queue_finish (inner : Consumer σ) (q : LoadQueue) (s : σ) :
    (finish inner q s).2.1 = ⟨q.id, none⟩ := by
  obtain ⟨id, pending⟩ := q
  cases pending <;> rfl

theorem id_consumer (inner : Consumer σ) (c : StampedCommand) (q : LoadQueue) (s : σ) :
    (consumer inner c (q, s)).2.1.id = q.id := by
  unfold consumer
  dsimp only
  split
  · rfl
  · split <;> rfl

/-! ## Keeping commands -/

/-- A queue that is loading keeps all commands of its series, and hands none on. -/
theorem feed_of_loading (inner : Consumer σ) {id : Nat} {commands : List StampedCommand}
    (hid : ∀ c ∈ commands, c.series = id) (kept : List StampedCommand) (s : σ) :
    ((consumer inner).feed commands (⟨id, some kept⟩, s)).2 =
      (⟨id, some (kept ++ commands)⟩, s) := by
  induction commands generalizing kept with
  | nil => rw [List.append_nil]; rfl
  | cons c rest ih =>
      have hc : c.series = id := hid c List.mem_cons_self
      have hrest := ih (fun d hd => hid d (List.mem_cons_of_mem _ hd)) (kept ++ [c])
      rw [List.append_assoc, List.singleton_append] at hrest
      rw [Consumer.feed_cons (consumer_of_loading inner hc kept s), hrest]

theorem load_eq (inner : Consumer σ) {id : Nat} {commands : List StampedCommand}
    (hid : ∀ c ∈ commands, c.series = id) (s : σ) :
    load inner id commands s =
      ((replay inner (replayOrder commands) 0 s).1, ⟨id, none⟩,
        (replay inner (replayOrder commands) 0 s).2) := by
  rw [load, feed_of_loading inner hid [] s, List.nil_append]
  rfl

/-! ## The order of a replay -/

/-- The commands of one version are one command. -/
def Unambiguous (commands : List StampedCommand) : Prop :=
  ∀ c ∈ commands, ∀ d ∈ commands, c.version = d.version → c = d

/-- Commands whose versions increase strictly are told apart by their versions. -/
theorem unambiguous_of_pairwise {commands : List StampedCommand}
    (h : commands.Pairwise fun c d => c.version < d.version) : Unambiguous commands := by
  induction commands with
  | nil => intro c hc; cases hc
  | cons e rest ih =>
      obtain ⟨he, hrest⟩ := List.pairwise_cons.mp h
      intro c hc d hd hversion
      rcases List.mem_cons.mp hc with hce | hc' <;> rcases List.mem_cons.mp hd with hde | hd'
      · rw [hce, hde]
      · exact absurd (hce ▸ hversion) (Nat.ne_of_lt (he d hd'))
      · exact absurd (hde ▸ hversion).symm (Nat.ne_of_lt (he c hc'))
      · exact ih hrest c hc' d hd' hversion

/-- In nondecreasing order of versions. -/
def Ordered (commands : List StampedCommand) : Prop :=
  commands.Pairwise fun c d => c.version ≤ d.version

/-- Commands in the order of their versions, and of their arrival among equal ones. -/
def sorted (commands : List StampedCommand) : List StampedCommand :=
  commands.mergeSort fun c d => c.version ≤ d.version

theorem replayOrder_eq (commands : List StampedCommand) :
    replayOrder commands = (sorted commands).map relax := rfl

theorem sorted_perm (commands : List StampedCommand) : (sorted commands).Perm commands :=
  List.mergeSort_perm _ _

theorem version_le_trans (a b c : StampedCommand) (hab : decide (a.version ≤ b.version))
    (hbc : decide (b.version ≤ c.version)) : decide (a.version ≤ c.version) := by
  rw [decide_eq_true_eq] at *
  exact Nat.le_trans hab hbc

theorem version_le_total (a b : StampedCommand) :
    decide (a.version ≤ b.version) || decide (b.version ≤ a.version) := by
  rw [Bool.or_eq_true, decide_eq_true_eq, decide_eq_true_eq]
  exact Nat.le_total _ _

theorem ordered_sorted (commands : List StampedCommand) : Ordered (sorted commands) := by
  have hsorted := List.pairwise_mergeSort version_le_trans version_le_total commands
  exact hsorted.imp fun h => of_decide_eq_true h

/-- There is one way only to put unambiguous commands in order. -/
theorem eq_of_perm_of_ordered {a b : List StampedCommand} (hb : Unambiguous b) (hperm : a.Perm b)
    (ha : Ordered a) (hb' : Ordered b) : a = b := by
  refine hperm.eq_of_pairwise ?_ ha hb'
  intro c d hc hd hcd hdc
  exact hb c (hperm.subset hc) d hd (Nat.le_antisymm hcd hdc)

/-- The order of a replay is the order of the versions, whatever the arrival was. -/
theorem replayOrder_eq_of_perm {a b : List StampedCommand} (hb : Unambiguous b)
    (hperm : a.Perm b) (hordered : Ordered b) : replayOrder a = b.map relax := by
  have hsorted := ordered_sorted a
  rw [replayOrder_eq, eq_of_perm_of_ordered hb ((sorted_perm a).trans hperm) hsorted hordered]

/-! ## Relaxed appends -/

/-- The command does not ask to drop stored entries. -/
def KeepsOld (c : StampedCommand) : Prop := ∀ entries, c.command ≠ .append entries .dropOld

theorem version_relax (c : StampedCommand) : (relax c).version = c.version := by
  obtain ⟨series, version, command⟩ := c
  cases command <;> rfl

end LoadQueue

/-- Where a strict append succeeds, nothing overlaps, so it may as well accept overlaps. -/
theorem Store.append_acceptEqual {s : Store} {entries : List Entry} {change : Change Nat}
    (h : s.append entries .reject = .ok change) : s.append entries .acceptEqual = .ok change := by
  cases entries with
  | nil => exact h
  | cons first rest =>
      simp only [append] at h
      split at h
      · cases h
      · next hreaches =>
          have hfalse : s.reaches first.1 = false := Bool.eq_false_iff.mpr hreaches
          simp only [append, List.takeWhile_cons, List.dropWhile_cons, hfalse]
          exact h

namespace Series

/-- A write under a version looks at its mutation at the stored entries only. -/
theorem writeAs_congr {α : Type} {s : Series} {f g : Store → Except Refusal (Change α)}
    (h : f s.store = g s.store) (version : Nat) : s.writeAs version f = s.writeAs version g := by
  unfold writeAs
  rw [h]

/-- A write under a version that succeeds is one whose mutation does. -/
theorem exists_of_writeAs {α : Type} {s : Series} {f : Store → Except Refusal (Change α)}
    {version : Nat} {a : α} (h : (s.writeAs version f).result = .ok a) :
    ∃ change, f s.store = .ok change := by
  unfold writeAs at h
  split at h
  · cases h
  · split at h
    · cases h
    · split at h
      · cases h
      · next change hf => exact ⟨_, hf⟩

/-- A relaxed append that is due does what a strict one does, if that succeeds. -/
theorem perform_acceptEqual {s : Series} {version : Nat} {entries : List Entry} {o : Outcome}
    (h : (s.perform version (.append entries .reject)).result = .ok o) :
    s.perform version (.append entries .acceptEqual) =
      s.perform version (.append entries .reject) := by
  simp only [perform] at h ⊢
  split at h
  · next hincreases =>
      cases hwrite : (s.writeAs version fun store => store.append entries .reject).result with
      | error e =>
          rw [asApplied, hwrite] at h
          cases h
      | ok n =>
          obtain ⟨change, hchange⟩ := exists_of_writeAs hwrite
          -- the strict mutation of the store succeeded, so the relaxed one is the same
          have hsame : s.store.append entries .acceptEqual = s.store.append entries .reject := by
            rw [hchange]
            exact Store.append_acceptEqual hchange
          have hwrites : s.writeAs version (fun store => store.append entries .acceptEqual) =
              s.writeAs version fun store => store.append entries .reject :=
            writeAs_congr hsame version
          rw [if_pos hincreases, if_pos hincreases, hwrites]
  · cases h

end Series

namespace LoadQueue

/-- A command that a series takes without an error is taken in the same way when it is relaxed. -/
theorem consumer_relax {c : StampedCommand} (hc : KeepsOld c) {s s' : Series} {o : Outcome}
    (h : Series.consumer c s = (.ok o, s')) : Series.consumer (relax c) s = (.ok o, s') := by
  obtain ⟨series, version, command⟩ := c
  match command with
  | .set _ _ | .remove _ _ | .complete | .append _ .acceptEqual => exact h
  | .append entries .dropOld => exact absurd rfl (hc entries)
  | .append entries .reject =>
      have hresult : (s.apply ⟨series, version, .append entries .reject⟩).result = .ok o :=
        congrArg Prod.fst h
      have hsame : s.apply ⟨series, version, .append entries .acceptEqual⟩ =
          s.apply ⟨series, version, .append entries .reject⟩ := by
        simp only [Series.apply, ne_eq, reduceCtorEq, not_false_eq_true, and_true] at hresult ⊢
        split
        · rfl
        · split
          · rfl
          · next hdue hlast =>
              rw [if_neg hdue, if_neg hlast] at hresult
              rw [Series.perform_acceptEqual hresult]
      show ((s.apply ⟨series, version, .append entries .acceptEqual⟩).result,
        (s.apply ⟨series, version, .append entries .acceptEqual⟩).settled) = _
      rw [hsame]
      exact h

/-! ## A replay is a feed -/

theorem replay_cons_of_ok {σ : Type} {inner : Consumer σ} {c : StampedCommand} {s s' : σ}
    {o : Outcome} (h : inner c s = (.ok o, s')) (rest : List StampedCommand) (count : Nat) :
    replay inner (c :: rest) count s =
      replay inner rest (count + if o.tookEffect then 1 else 0) s' := by
  rw [replay, h]
  cases o <;> rfl

/-- A replay whose first commands are all taken goes on from where feeding them leads. -/
theorem replay_append {σ : Type} {inner : Consumer σ} {taken : List StampedCommand} {s : σ}
    (htakes : inner.Takes taken s) (rest : List StampedCommand) (count : Nat) :
    replay inner (taken ++ rest) count s =
      replay inner rest (count + (inner.feed taken s).1.countP answersEffect)
        (inner.feed taken s).2 := by
  induction taken generalizing s count with
  | nil => rfl
  | cons c taken ih =>
      obtain ⟨o, s', hstep, hrest⟩ := Consumer.takes_cons.mp htakes
      have hcount : count + (if o.tookEffect then 1 else 0) +
          (inner.feed taken s').1.countP answersEffect =
          count + ((inner.feed taken s').1.countP answersEffect +
            if answersEffect (.ok o) then 1 else 0) := by
        rw [answersEffect]
        omega
      rw [List.cons_append, replay_cons_of_ok hstep, ih hrest, Consumer.feed_cons hstep,
        List.countP_cons, hcount]

/-- A replay of commands that are all taken does what feeding them does. -/
theorem replay_eq_feed {σ : Type} {inner : Consumer σ} {commands : List StampedCommand} {s : σ}
    (htakes : inner.Takes commands s) (count : Nat) :
    replay inner commands count s =
      (.ok (count + (inner.feed commands s).1.countP answersEffect),
        (inner.feed commands s).2) := by
  have happend := replay_append htakes [] count
  rw [List.append_nil] at happend
  exact happend

/-- A replay that succeeds is one whose commands are all taken. -/
theorem takes_of_replay {σ : Type} {inner : Consumer σ} {commands : List StampedCommand}
    {count n : Nat} {s : σ} (h : (replay inner commands count s).1 = .ok n) :
    inner.Takes commands s := by
  induction commands generalizing count s with
  | nil => exact Consumer.takes_nil inner s
  | cons c rest ih =>
      generalize hstep : inner c s = step
      obtain ⟨answer, s'⟩ := step
      cases answer with
      | error e =>
          rw [replay, hstep] at h
          cases h
      | ok o =>
          rw [replay_cons_of_ok hstep] at h
          exact Consumer.takes_cons.mpr ⟨o, s', hstep, ih h⟩

/-- Commands that are taken are taken in the same way when they are relaxed. -/
theorem feed_relax {commands : List StampedCommand} (hkeeps : ∀ c ∈ commands, KeepsOld c)
    {s : Series} (htakes : Series.consumer.Takes commands s) :
    Series.consumer.feed (commands.map relax) s = Series.consumer.feed commands s := by
  induction commands generalizing s with
  | nil => rfl
  | cons c rest ih =>
      have hkeeps' : ∀ d ∈ rest, KeepsOld d := fun d hd => hkeeps d (List.mem_cons_of_mem _ hd)
      obtain ⟨o, s', hstep, hrest⟩ := Consumer.takes_cons.mp htakes
      have hrelaxed := consumer_relax (hkeeps c List.mem_cons_self) hstep
      rw [List.map_cons, Consumer.feed_cons hrelaxed, Consumer.feed_cons hstep, ih hkeeps' hrest]

/-- A replay of relaxed commands goes on from where feeding the first of them leads, as long as that
makes no error. -/
theorem replay_relax_append {taken : List StampedCommand} (hkeeps : ∀ c ∈ taken, KeepsOld c)
    {s : Series} (htakes : Series.consumer.Takes taken s) (rest : List StampedCommand)
    (count : Nat) :
    replay Series.consumer ((taken ++ rest).map relax) count s =
      replay Series.consumer (rest.map relax)
        (count + (Series.consumer.feed taken s).1.countP answersEffect)
        (Series.consumer.feed taken s).2 := by
  have hrelaxed := feed_relax hkeeps htakes
  have htakes' : Series.consumer.Takes (taken.map relax) s := by
    rw [Consumer.Takes, hrelaxed]
    exact htakes
  rw [List.map_append, replay_append htakes', hrelaxed]

/-- A replay of relaxed commands does what feeding them does, as long as that makes no error. -/
theorem replay_relax_eq_feed {commands : List StampedCommand} (hkeeps : ∀ c ∈ commands, KeepsOld c)
    {s : Series} (htakes : Series.consumer.Takes commands s) (count : Nat) :
    replay Series.consumer (commands.map relax) count s =
      (.ok (count + (Series.consumer.feed commands s).1.countP answersEffect),
        (Series.consumer.feed commands s).2) := by
  have happend := replay_relax_append hkeeps htakes [] count
  rw [List.append_nil] at happend
  exact happend

/-- The outcome of a load does not depend on the order of arrival. If no command drops stored
entries, and feeding the commands to the series in the order of their versions makes no error,
the load does what feeding does, and counts the commands that took effect. -/
theorem load_replays (s : Series) {id : Nat} {commands : List StampedCommand}
    (hid : ∀ c ∈ commands, c.series = id) (hunambiguous : Unambiguous commands) :
    (∀ arrived, arrived.Perm commands →
      load Series.consumer id arrived s = load Series.consumer id commands s) ∧
    ∀ ordered, ordered.Perm commands → Ordered ordered → (∀ c ∈ commands, KeepsOld c) →
      (∀ answer ∈ (Series.consumer.feed ordered s).1, ∃ o, answer = .ok o) →
        load Series.consumer id commands s =
          (.ok ((Series.consumer.feed ordered s).1.countP answersEffect), ⟨id, none⟩,
            (Series.consumer.feed ordered s).2) := by
  constructor
  · -- both arrivals are replayed in the one order that there is
    intro arrived hperm
    have hsorted := ordered_sorted commands
    have hsortedPerm := sorted_perm commands
    have hsortedUnambiguous : Unambiguous (sorted commands) :=
      fun c hc d hd => hunambiguous c (hsortedPerm.subset hc) d (hsortedPerm.subset hd)
    rw [load_eq _ (fun c hc => hid c (hperm.subset hc)), load_eq _ hid,
      replayOrder_eq_of_perm hsortedUnambiguous (hperm.trans hsortedPerm.symm) hsorted,
      replayOrder_eq_of_perm hsortedUnambiguous hsortedPerm.symm hsorted]
  · intro ordered hperm hordered hkeeps hok
    have hunambiguous' : Unambiguous ordered :=
      fun c hc d hd => hunambiguous c (hperm.subset hc) d (hperm.subset hd)
    have hkeeps' : ∀ c ∈ ordered, KeepsOld c := fun c hc => hkeeps c (hperm.subset hc)
    rw [load_eq _ hid, replayOrder_eq_of_perm hunambiguous' hperm.symm hordered,
      replay_relax_eq_feed hkeeps' hok, Nat.zero_add]

/-- A strict append, which arrives after the command that comes after it. -/
def firstAppend : StampedCommand := ⟨0, 1, .append [(.int 1, .int 10), (.int 2, .int 20)] .reject⟩

/-- A replacement, which arrives first. -/
def thenSet : StampedCommand := ⟨0, 2, .set (.int 2) (.int 21)⟩

theorem load_replays_reversed :
    load Series.consumer 0 [thenSet, firstAppend] {} =
      (.ok 2, ⟨0, none⟩, (Series.consumer.feed [firstAppend, thenSet] {}).2) := by
  have hunambiguous : Unambiguous [thenSet, firstAppend] := by
    intro c hc d hd
    simp only [List.mem_cons, List.not_mem_nil, or_false] at hc hd
    rcases hc with rfl | rfl <;> rcases hd with rfl | rfl <;> simp [thenSet, firstAppend]
  have hkeeps : ∀ c ∈ [thenSet, firstAppend], KeepsOld c := by
    simp [KeepsOld, thenSet, firstAppend]
  have hok : Series.consumer.Takes [firstAppend, thenSet] {} := by
    have hanswers : (Series.consumer.feed [firstAppend, thenSet] {}).1 =
        [.ok (.applied 1), .ok (.applied 2)] := rfl
    rw [Consumer.Takes, hanswers]
    simp
  exact (load_replays {} (by simp [thenSet, firstAppend]) hunambiguous).2 [firstAppend, thenSet]
    (.swap _ _ _) (by simp [Ordered, thenSet, firstAppend]) hkeeps hok

end LoadQueue

end LiveSeries
