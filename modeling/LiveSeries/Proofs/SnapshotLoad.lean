import LiveSeries.Proofs.CommandsAtKey
import LiveSeries.Proofs.FirstArrivals
import LiveSeries.Proofs.ProducerHistory

/-!
# Loads of a snapshot

A producer applies a history of commands under the versions from one on. A load queue receives a
snapshot of its entries at some version, as an append under that version, every later command,
and any of the commands that the snapshot covers. The load should end with the entries of the
producer.

It does, whatever follows, if the covered commands do no harm (`Delivery.Harmless`). They do none
if those below the version of the snapshot leave a beginning of its entries, and the snapshot
arrives ahead of the command of its own version. If that command arrives first, the snapshot is
skipped, and what the delivered commands leave has to be all of its entries.

If they do harm, it depends on the later commands. They must not overlap what is there, and have
to bring every key to what the producer holds (`Delivery.Recovers`). This is all that can happen
(`Delivery.converges_iff`).
-/

namespace LiveSeries

namespace History

variable {id : Nat} (h : History id)

/-! ## Deliveries -/

/-- What a load queue received: the snapshot at a version, every later command, and any commands
that the snapshot covers, in any order and as often as they came. -/
structure Delivery where
  /-- The version of the snapshot. -/
  covered : Nat
  covered_le : covered ≤ h.length
  rule : OverlapRule
  arrived : List StampedCommand
  snapshot_mem : h.snapshot covered rule ∈ arrived
  later_mem : ∀ c ∈ h.stamped.drop covered, c ∈ arrived
  sound : ∀ c ∈ arrived, c = h.snapshot covered rule ∨ c ∈ h.stamped

namespace Delivery

open LoadQueue

variable {h} (d : h.Delivery)

/-- The load succeeds and ends with the entries and the version of the producer. -/
def Converges : Prop :=
  ∃ count s, load Series.consumer id d.arrived {} = (.ok count, ⟨id, none⟩, s) ∧
    s.store.entries = (h.producer h.length).store.entries ∧ s.version = h.length

def snapshot : StampedCommand := h.snapshot d.covered d.rule

/-- The entries of the snapshot. -/
def entries : List Entry := (h.producer d.covered).store.entries

/-- The covered commands that arrived and come before the version of the snapshot. -/
def below : List StampedCommand := (h.stamped.take (d.covered - 1)).filter (· ∈ d.arrived)

/-- The snapshot, or the command of its version if that arrived first. -/
def top : StampedCommand := (firstOf d.arrived d.covered).getD d.snapshot

/-- The commands that count up to the version of the snapshot. -/
def early : List StampedCommand := d.below ++ [d.top]

/-- The commands after the version of the snapshot. -/
def later : List StampedCommand := h.stamped.drop d.covered

/-- What the covered commands below the version of the snapshot leave. -/
def before : Series := (Series.consumer.feed (d.below.map relax) {}).2

/-- What is there when the version of the snapshot is done. -/
def base : Series := (Series.consumer.feed (d.early.map relax) {}).2

/-- The covered commands that arrived do no harm. -/
structure Harmless : Prop where
  below_taken : Series.consumer.Takes (d.below.map relax) {}
  /-- The snapshot, if it counts, continues what is there, all of which is equal to itself. -/
  snapshot_continues : d.top = d.snapshot →
    d.before.store.entries <+: d.entries ∧ ∀ e ∈ d.before.store.entries, e.2.equals e.2 = true
  /-- The command that counts in place of the snapshot makes the entries of the snapshot. -/
  command_completes : d.top ≠ d.snapshot →
    ∃ o s, Series.consumer (relax d.top) d.before = (.ok o, s) ∧ s.store.entries = d.entries

/-- Nothing overlaps, and every key comes to hold what the producer holds: a later command
overwrites it, or it agrees with the snapshot once the first later append has filled it. -/
structure Recovers : Prop where
  early_taken : Series.consumer.Takes (d.early.map relax) {}
  later_taken : Series.consumer.Takes (d.later.map relax) d.base
  keys : ∀ k, (∃ c ∈ d.later, c.command.Overwrites k) ∨
    (d.base.store.get? k).or (firstAppended k d.later) =
      ((h.producer d.covered).store.get? k).or (firstAppended k d.later)

/-! ## The commands that count -/

theorem version_snapshot : d.snapshot.version = d.covered := rfl

theorem firstOf_covered : firstOf d.arrived d.covered = some d.top := by
  obtain ⟨c, hfirst⟩ := exists_firstOf d.snapshot_mem
  have hcovered : firstOf d.arrived d.covered = some c := hfirst
  rw [top, hcovered]
  rfl

theorem version_top : d.top.version = d.covered := (mem_of_firstOf d.firstOf_covered).2

theorem mem_below_iff {c : StampedCommand} :
    c ∈ d.below ↔ (c ∈ h.stamped ∧ c.version < d.covered) ∧ c ∈ d.arrived := by
  rw [below, List.mem_filter, h.mem_take_iff, decide_eq_true_eq]
  constructor
  · rintro ⟨⟨hc, hle⟩, harrived⟩
    have hpositive := (mem_stampFrom hc).2.1
    exact ⟨⟨hc, by omega⟩, harrived⟩
  · rintro ⟨⟨hc, hlt⟩, harrived⟩
    exact ⟨⟨hc, by omega⟩, harrived⟩

/-- Of a version other than that of the snapshot one command only can arrive. -/
theorem firstOf_eq_some_iff {c : StampedCommand} (hne : c.version ≠ d.covered) :
    firstOf d.arrived c.version = some c ↔ c ∈ d.arrived ∧ c ∈ h.stamped := by
  have hstamped : ∀ e ∈ d.arrived, e.version ≠ d.covered → e ∈ h.stamped := by
    intro e he hversion
    rcases d.sound e he with rfl | hmem
    · exact absurd d.version_snapshot hversion
    · exact hmem
  constructor
  · intro hfirst
    have hmem := (mem_of_firstOf hfirst).1
    exact ⟨hmem, hstamped c hmem hne⟩
  · rintro ⟨hmem, hc⟩
    obtain ⟨e, hfirst⟩ := exists_firstOf hmem
    obtain ⟨he, hversion⟩ := mem_of_firstOf hfirst
    have hes : e ∈ h.stamped := hstamped e he (by rw [hversion]; exact hne)
    rw [hfirst, h.unambiguous_stamped e hes c hc hversion]

/-- The commands that count, in the order of their versions. -/
def plan : List StampedCommand := d.early ++ d.later

theorem mem_plan_iff {c : StampedCommand} :
    c ∈ d.plan ↔ firstOf d.arrived c.version = some c := by
  have hplan : c ∈ d.plan ↔ c ∈ d.below ∨ c = d.top ∨ c ∈ d.later := by
    rw [plan, early, List.mem_append, List.mem_append, List.mem_singleton, or_assoc]
  rw [hplan, mem_below_iff, later, h.mem_drop_iff]
  -- at the version of the snapshot two commands compete, at any other version there is one
  by_cases hversion : c.version = d.covered
  · rw [hversion, d.firstOf_covered, Option.some.injEq]
    constructor
    · rintro (⟨⟨-, hlt⟩, -⟩ | rfl | ⟨-, hlt⟩)
      · omega
      · rfl
      · omega
    · rintro rfl
      exact .inr (.inl rfl)
  · rw [d.firstOf_eq_some_iff hversion]
    constructor
    · rintro (⟨⟨hc, -⟩, harrived⟩ | rfl | ⟨hc, hlt⟩)
      · exact ⟨harrived, hc⟩
      · exact absurd d.version_top hversion
      · exact ⟨d.later_mem c (h.mem_drop_iff.mpr ⟨hc, hlt⟩), hc⟩
    · rintro ⟨harrived, hc⟩
      rcases Nat.lt_or_gt_of_ne hversion with hlt | hlt
      · exact .inl ⟨⟨hc, hlt⟩, harrived⟩
      · exact .inr (.inr ⟨hc, hlt⟩)

theorem version_le_of_mem_early {c : StampedCommand} (hc : c ∈ d.early) :
    c.version ≤ d.covered := by
  rcases List.mem_append.mp hc with hc | hc
  · exact Nat.le_of_lt (d.mem_below_iff.mp hc).1.2
  · have hversion : c.version = d.covered := by rw [List.mem_singleton.mp hc, d.version_top]
    exact Nat.le_of_eq hversion

theorem pairwise_plan : d.plan.Pairwise fun c d => c.version < d.version := by
  have hstamped := pairwise_stampFrom id 0 h.commands
  have hbelow : d.below.Pairwise fun c d => c.version < d.version :=
    (hstamped.sublist (List.take_sublist _ _)).filter _
  have hlater : d.later.Pairwise fun c d => c.version < d.version :=
    hstamped.sublist (List.drop_sublist _ _)
  have hearly : d.early.Pairwise fun c d => c.version < d.version := by
    refine List.pairwise_append.mpr ⟨hbelow, List.pairwise_singleton _ _, ?_⟩
    intro a ha b hb
    rw [List.mem_singleton.mp hb, d.version_top]
    exact (d.mem_below_iff.mp ha).1.2
  refine List.pairwise_append.mpr ⟨hearly, hlater, ?_⟩
  intro a ha b hb
  have hle := d.version_le_of_mem_early ha
  have hlt := (h.mem_drop_iff.mp hb).2
  exact Nat.lt_of_le_of_lt hle hlt

/-- The first command of a version of the plan is the one that arrived first. -/
theorem firstOf_plan (version : Nat) : firstOf d.plan version = firstOf d.arrived version := by
  refine Option.ext fun c => ?_
  constructor
  · intro hfirst
    obtain ⟨hmem, rfl⟩ := mem_of_firstOf hfirst
    exact d.mem_plan_iff.mp hmem
  · intro hfirst
    obtain ⟨-, rfl⟩ := mem_of_firstOf hfirst
    have hmem := d.mem_plan_iff.mpr hfirst
    obtain ⟨e, hplan⟩ := exists_firstOf hmem
    obtain ⟨he, hversion⟩ := mem_of_firstOf hplan
    rw [hplan, unambiguous_of_pairwise d.pairwise_plan e he c hmem hversion]

theorem ne_complete_of_mem_arrived {c : StampedCommand} (hc : c ∈ d.arrived) :
    c.command ≠ .complete := by
  rcases d.sound c hc with rfl | hmem
  · exact Command.noConfusion
  · exact (h.isPlain_of_mem hmem).1

theorem ne_complete_of_mem_plan {c : StampedCommand} (hc : c ∈ d.plan) : c.command ≠ .complete :=
  d.ne_complete_of_mem_arrived (mem_of_firstOf (d.mem_plan_iff.mp hc)).1

theorem ne_complete_of_mem_relax {commands : List StampedCommand} (hsub : commands ⊆ d.plan) :
    ∀ c ∈ commands.map relax, c.command ≠ .complete := by
  intro c hc
  obtain ⟨e, he, rfl⟩ := List.mem_map.mp hc
  exact (isPlain_relax (d.ne_complete_of_mem_plan (hsub he))).1

/-- The load replays the plan. -/
theorem load_eq_replay_plan :
    load Series.consumer id d.arrived {} =
      ((replay Series.consumer (d.plan.map relax) 0 {}).1, ⟨id, none⟩,
        (replay Series.consumer (d.plan.map relax) 0 {}).2) := by
  have hid : ∀ c ∈ d.arrived, c.series = id := by
    intro c hc
    rcases d.sound c hc with rfl | hmem
    · rfl
    · exact (mem_stampFrom hmem).1
  have hordered : Ordered d.plan := d.pairwise_plan.imp Nat.le_of_lt
  have hreplay := replay_of_firsts (fun c hc => d.ne_complete_of_mem_arrived hc)
    (fun c hc => d.ne_complete_of_mem_plan hc) hordered d.firstOf_plan .empty 0 0
  rw [Series.stored_empty] at hreplay
  rw [load_eq _ hid, hreplay]

/-! ## The series along the replay -/

theorem latest_below_le : Series.latest 0 (d.below.map relax) ≤ d.covered - 1 := by
  refine Series.latest_le (Nat.zero_le _) ?_
  intro c hc
  obtain ⟨e, he, rfl⟩ := List.mem_map.mp hc
  have hlt := (d.mem_below_iff.mp he).1.2
  rw [version_relax]
  omega

theorem exists_before_eq (htaken : Series.consumer.Takes (d.below.map relax) {}) :
    ∃ store v, d.before = .stored store v ∧ v ≤ d.covered - 1 := by
  have hsub : d.below ⊆ d.plan :=
    fun c hc => List.mem_append_left _ (List.mem_append_left _ hc)
  obtain ⟨store, hstore⟩ := Series.exists_stored_of_takes (d.ne_complete_of_mem_relax hsub) .empty 0
    htaken
  exact ⟨store, _, hstore, d.latest_below_le⟩

theorem base_eq (htaken : Series.consumer.Takes (d.early.map relax) {}) :
    d.base = .stored d.base.store d.covered := by
  have hsub : d.early ⊆ d.plan := fun c hc => List.mem_append_left _ hc
  obtain ⟨store, hstore⟩ := Series.exists_stored_of_takes (d.ne_complete_of_mem_relax hsub) .empty 0
    htaken
  have hlatest : Series.latest 0 (d.early.map relax) = d.covered := by
    have hbelow := d.latest_below_le
    rw [early, List.map_append, List.map_singleton, Series.latest_append_singleton, version_relax,
      version_top]
    omega
  have hbase : d.base = .stored store d.covered := by
    rw [hlatest] at hstore
    exact hstore
  rw [hbase]
  rfl

theorem latest_later : Series.latest d.covered (d.later.map relax) = h.length := by
  have hle := d.covered_le
  rw [Series.latest_map_relax, later, stamped, drop_stampFrom, Nat.zero_add,
    Series.latest_stampFrom, List.length_drop]
  rw [length] at hle ⊢
  omega

/-- The early commands are those below the snapshot's version and one of that version. -/
theorem early_taken_iff {p : Series → Prop} :
    (Series.consumer.Takes (d.early.map relax) {} ∧ p d.base) ↔
      Series.consumer.Takes (d.below.map relax) {} ∧
        ∃ o s, Series.consumer (relax d.top) d.before = (.ok o, s) ∧ p s := by
  rw [base, early, List.map_append, Consumer.takes_append, Consumer.feed_append, List.map_singleton]
  rw [← before, Consumer.takes_cons]
  constructor
  · rintro ⟨⟨hbelow, o, s, hstep, -⟩, hp⟩
    rw [Consumer.feed_cons hstep] at hp
    exact ⟨hbelow, o, s, hstep, hp⟩
  · rintro ⟨hbelow, o, s, hstep, hp⟩
    refine ⟨⟨hbelow, o, s, hstep, ?_⟩, ?_⟩
    · intro answer ha
      cases ha
    · rw [Consumer.feed_cons hstep]
      exact hp

/-- A snapshot that is due appends to the store. -/
theorem snapshot_applied_iff (store : Store) {v : Nat} (hdue : v < d.covered) :
    (∃ o s, Series.consumer (relax d.snapshot) (.stored store v) = (.ok o, s) ∧
        s.store.entries = d.entries) ↔
      ∃ change, store.append d.entries .acceptEqual = .ok change ∧
        (change.2.getD store).entries = d.entries := by
  have hinc : Increasing d.entries := (h.producer d.covered).store.increasing
  have hlast : v < Gate.lastVersion := by
    have hle := d.covered_le
    have hlength := h.length_le_last
    omega
  have hact : (relax d.snapshot).command.act store =
      (store.append d.entries .acceptEqual).map fun change => change.2.getD store :=
    if_pos (increases_iff.mpr hinc)
  rw [Series.consumer_stored Command.noConfusion hdue hlast, hact]
  constructor
  · rintro ⟨o, s, hstep, hentries⟩
    cases happend : store.append d.entries .acceptEqual with
    | error e =>
        rw [happend] at hstep
        cases hstep
    | ok change =>
        rw [happend] at hstep
        cases hstep
        exact ⟨change, rfl, hentries⟩
  · rintro ⟨change, happend, hentries⟩
    rw [happend]
    exact ⟨_, _, rfl, hentries⟩

/-- The snapshot makes just its own entries if it continues what is there. -/
theorem snapshot_step_iff (htaken : Series.consumer.Takes (d.below.map relax) {}) :
    (∃ o s, Series.consumer (relax d.snapshot) d.before = (.ok o, s) ∧
        s.store.entries = d.entries) ↔
      d.before.store.entries <+: d.entries ∧
        ∀ e ∈ d.before.store.entries, e.2.equals e.2 = true := by
  obtain ⟨store, v, hbefore, hv⟩ := d.exists_before_eq htaken
  have hstore : d.before.store = store := by rw [hbefore]; rfl
  have hinc : Increasing d.entries := (h.producer d.covered).store.increasing
  rw [hstore, hbefore, ← store.append_acceptEqual_makes_iff hinc]
  rcases Nat.eq_zero_or_pos d.covered with hzero | hpos
  · -- a snapshot at version zero is empty, and skipped
    have hentries : d.entries = [] := by
      rw [entries, hzero]
      rfl
    have hle : (relax d.snapshot).version ≤ v := by
      rw [version_relax, version_snapshot, hzero]
      exact Nat.zero_le v
    rw [Series.consumer_stored_of_le store Command.noConfusion hle, hentries]
    constructor
    · rintro ⟨o, s, hstep, hmade⟩
      cases hstep
      exact ⟨(0, none), rfl, hmade⟩
    · rintro ⟨change, happend, hmade⟩
      cases happend
      exact ⟨_, _, rfl, hmade⟩
  · exact d.snapshot_applied_iff store (by omega)

/-- The covered commands do no harm if the replay comes to the entries of the snapshot. -/
theorem harmless_iff :
    d.Harmless ↔
      Series.consumer.Takes (d.early.map relax) {} ∧ d.base.store.entries = d.entries := by
  rw [d.early_taken_iff (p := fun s => s.store.entries = d.entries)]
  constructor
  · intro hharmless
    refine ⟨hharmless.below_taken, ?_⟩
    by_cases htop : d.top = d.snapshot
    · rw [htop]
      exact (d.snapshot_step_iff hharmless.below_taken).mpr (hharmless.snapshot_continues htop)
    · exact hharmless.command_completes htop
  · rintro ⟨hbelow, hstep⟩
    refine ⟨hbelow, ?_, fun _ => hstep⟩
    intro htop
    rw [htop] at hstep
    exact (d.snapshot_step_iff hbelow).mp hstep

/-- From the series of the producer the later commands lead to where they led the producer. -/
theorem feed_later (hbase : d.base = h.producer d.covered) :
    Series.consumer.Takes (d.later.map relax) d.base ∧
      (Series.consumer.feed (d.later.map relax) d.base).2 = h.producer h.length := by
  have hkeeps : ∀ c ∈ d.later, KeepsOld c :=
    fun c hc => (h.isPlain_of_mem (List.mem_of_mem_drop hc)).2
  have htakes := (h.takes_split d.covered).2
  have hrelaxed := feed_relax hkeeps htakes
  rw [hbase, Consumer.Takes, hrelaxed, h.producer_length_eq d.covered]
  exact ⟨htakes, rfl⟩

/-- A load succeeds if everything in its plan is taken, and then ends where the plan leads. -/
theorem exists_load_eq_iff {s : Series} :
    (∃ count, load Series.consumer id d.arrived {} = (.ok count, ⟨id, none⟩, s)) ↔
      Series.consumer.Takes (d.early.map relax) {} ∧
        Series.consumer.Takes (d.later.map relax) d.base ∧
          (Series.consumer.feed (d.later.map relax) d.base).2 = s := by
  have hplan : d.plan.map relax = d.early.map relax ++ d.later.map relax := by
    rw [plan, List.map_append]
  have hend : (Series.consumer.feed (d.plan.map relax) {}).2 =
      (Series.consumer.feed (d.later.map relax) d.base).2 := by
    rw [hplan, Consumer.feed_append]
    rfl
  have htaken : Series.consumer.Takes (d.plan.map relax) {} ↔
      Series.consumer.Takes (d.early.map relax) {} ∧
        Series.consumer.Takes (d.later.map relax) d.base := by
    rw [hplan]
    exact Consumer.takes_append
  rw [← and_assoc, ← htaken, ← hend, d.load_eq_replay_plan]
  constructor
  · rintro ⟨count, hload⟩
    have hok : (replay Series.consumer (d.plan.map relax) 0 {}).1 = .ok count :=
      congrArg Prod.fst hload
    have htakes := takes_of_replay hok
    rw [replay_eq_feed htakes] at hload
    exact ⟨htakes, congrArg (fun r => r.2.2) hload⟩
  · rintro ⟨htakes, rfl⟩
    exact ⟨_, by rw [replay_eq_feed htakes]⟩

/-- A load converges if it ends with the entries of the producer: the version comes out right by
itself. -/
theorem converges_iff_taken :
    d.Converges ↔
      Series.consumer.Takes (d.early.map relax) {} ∧
        Series.consumer.Takes (d.later.map relax) d.base ∧
          (Series.consumer.feed (d.later.map relax) d.base).2.store.entries =
            (h.producer h.length).store.entries := by
  constructor
  · rintro ⟨count, s, hload, hentries, -⟩
    obtain ⟨hearly, hlater, rfl⟩ := d.exists_load_eq_iff.mp ⟨count, hload⟩
    exact ⟨hearly, hlater, hentries⟩
  · rintro ⟨hearly, hlater, hentries⟩
    obtain ⟨count, hload⟩ := d.exists_load_eq_iff.mpr ⟨hearly, hlater, rfl⟩
    refine ⟨count, _, hload, hentries, ?_⟩
    rw [d.base_eq hearly] at hlater
    obtain ⟨store, hstore⟩ := Series.exists_stored_of_takes
      (d.ne_complete_of_mem_relax (List.subset_append_right _ _)) _ _ hlater
    rw [d.base_eq hearly, hstore, d.latest_later]
    rfl

/-- Without covered commands there is no harm. -/
theorem harmless_of_uncovered
    (huncovered : ∀ c ∈ d.arrived, c = d.snapshot ∨ d.covered < c.version) : d.Harmless := by
  have hbelow : d.below = [] := by
    refine List.eq_nil_iff_forall_not_mem.mpr ?_
    intro c hc
    obtain ⟨⟨-, hlt⟩, harrived⟩ := d.mem_below_iff.mp hc
    rcases huncovered c harrived with rfl | habove
    · exact Nat.lt_irrefl _ hlt
    · omega
  have htop : d.top = d.snapshot := by
    rcases huncovered d.top (mem_of_firstOf d.firstOf_covered).1 with h | habove
    · exact h
    · rw [version_top] at habove
      exact absurd habove (Nat.lt_irrefl _)
  have hbefore : d.before = {} := by
    rw [before, hbelow]
    rfl
  refine ⟨?_, ?_, fun hne => absurd htop hne⟩
  · rw [hbelow]
    intro answer ha
    cases ha
  · intro _
    rw [hbefore]
    exact ⟨List.nil_prefix, by simp [Store.empty]⟩

/-- The later commands lead to the entries of the producer if they do so at every key. -/
theorem ends_as_producer_iff (hearly : Series.consumer.Takes (d.early.map relax) {})
    (hlater : Series.consumer.Takes (d.later.map relax) d.base) :
    (Series.consumer.feed (d.later.map relax) d.base).2.store.entries =
        (h.producer h.length).store.entries ↔
      ∀ k, (∃ c ∈ d.later, c.command.Overwrites k) ∨
        (d.base.store.get? k).or (firstAppended k d.later) =
          ((h.producer d.covered).store.get? k).or (firstAppended k d.later) := by
  have hplain : ∀ c ∈ d.later, c.command.IsPlain :=
    fun c hc => h.isPlain_of_mem (List.mem_of_mem_drop hc)
  have hdue : ∀ c ∈ d.later, d.covered < c.version := fun c hc => (h.mem_drop_iff.mp hc).2
  have hordered : d.later.Pairwise fun c d => c.version < d.version :=
    (pairwise_stampFrom id 0 h.commands).sublist (List.drop_sublist _ _)
  have hload : ∀ k, (Series.consumer.feed (d.later.map relax) d.base).2.store.get? k =
      d.later.foldl (fun there c => c.command.valueAt k there) (d.base.store.get? k) := by
    intro k
    rw [d.base_eq hearly] at hlater ⊢
    exact get?_feed_relax (fun c hc => (hplain c hc).1) hdue hordered hlater k
  have hproducer : ∀ k, (h.producer h.length).store.get? k =
      d.later.foldl (fun there c => c.command.valueAt k there)
        ((h.producer d.covered).store.get? k) := by
    intro k
    have htakes := (h.takes_split d.covered).2
    rw [h.producer_eq d.covered_le] at htakes
    rw [h.producer_length_eq d.covered, h.producer_eq d.covered_le]
    exact Series.get?_feed hplain hdue hordered htakes k
  -- two stores are equal if they are at every key, and there both runs are folds of values
  constructor
  · intro hentries k
    have hstore := Store.ext hentries
    rw [← foldl_valueAt_eq_iff, ← hload, ← hproducer, hstore]
  · intro hkeys
    refine congrArg Store.entries (Store.ext_get? fun k => ?_)
    rw [hload, hproducer]
    exact (foldl_valueAt_eq_iff k d.later _ _).mpr (hkeys k)

/-- A load converges exactly if nothing overlaps in it and every key comes out right. Without later
commands this means that the covered commands which arrived do no harm. If they do none, the load
ends with the very series of the producer, whatever follows. -/
theorem converges_iff :
    (d.Converges ↔ d.Recovers) ∧
      (d.covered = h.length → (d.Converges ↔ d.Harmless)) ∧
        (d.Harmless → ∃ count,
          load Series.consumer id d.arrived {} = (.ok count, ⟨id, none⟩, h.producer h.length)) := by
  refine ⟨?_, ?_, ?_⟩
  · rw [d.converges_iff_taken]
    constructor
    · rintro ⟨hearly, hlater, hentries⟩
      exact ⟨hearly, hlater, (d.ends_as_producer_iff hearly hlater).mp hentries⟩
    · rintro ⟨hearly, hlater, hkeys⟩
      exact ⟨hearly, hlater, (d.ends_as_producer_iff hearly hlater).mpr hkeys⟩
  · -- without later commands the load ends at the base
    intro hall
    have hnone : d.later = [] := by
      rw [later, hall, length, stamped, drop_stampFrom, List.drop_length]
      rfl
    rw [d.converges_iff_taken, d.harmless_iff, hnone, ← hall]
    constructor
    · rintro ⟨hearly, -, hentries⟩
      exact ⟨hearly, hentries⟩
    · rintro ⟨hearly, hentries⟩
      refine ⟨hearly, ?_, hentries⟩
      intro answer ha
      cases ha
  · -- from the base of a harmless load on, the load and the producer are in the same series
    intro hharmless
    obtain ⟨hearly, hentries⟩ := d.harmless_iff.mp hharmless
    have hstore : d.base.store = (h.producer d.covered).store := Store.ext hentries
    have hbase : d.base = h.producer d.covered := by
      rw [d.base_eq hearly, hstore, ← h.producer_eq d.covered_le]
    obtain ⟨hlater, hend⟩ := d.feed_later hbase
    exact d.exists_load_eq_iff.mpr ⟨hearly, hlater, hend⟩

end Delivery

/-! ## Two loads -/

/-- One entry after the other. -/
def threeSets : History 0 where
  commands := [.set (.int 1) (.int 10), .set (.int 2) (.int 20), .set (.int 3) (.int 30)]
  plain := by simp [Command.IsPlain]
  taken := by
    have hanswers : (Series.consumer.feed (stampFrom 0 0
        [.set (.int 1) (.int 10), .set (.int 2) (.int 20), .set (.int 3) (.int 30)]) {}).1 =
        [.ok (.applied 1), .ok (.applied 2), .ok (.applied 3)] := rfl
    rw [Consumer.Takes, hanswers]
    simp

/-- The third command races ahead of a snapshot of two entries; the first comes along. -/
def firstAlong : threeSets.Delivery where
  covered := 2
  covered_le := by decide
  rule := .reject
  arrived := [⟨0, 3, .set (.int 3) (.int 30)⟩, threeSets.snapshot 2 .reject,
    ⟨0, 1, .set (.int 1) (.int 10)⟩, ⟨0, 3, .set (.int 3) (.int 30)⟩]
  snapshot_mem := by simp
  later_mem := by simp [stamped, threeSets, stampFrom]
  sound := by simp [stamped, threeSets, stampFrom]

/-- The second command arrives ahead of a snapshot of two entries. -/
def secondAhead : threeSets.Delivery where
  covered := 2
  covered_le := by decide
  rule := .reject
  arrived := [⟨0, 2, .set (.int 2) (.int 20)⟩, threeSets.snapshot 2 .reject,
    ⟨0, 3, .set (.int 3) (.int 30)⟩]
  snapshot_mem := by simp
  later_mem := by simp [stamped, threeSets, stampFrom]
  sound := by simp [stamped, threeSets, stampFrom]

/-- The first command makes the beginning of the snapshot. -/
theorem firstAlong_loads : ∃ count,
    LoadQueue.load Series.consumer 0 firstAlong.arrived {} =
      (.ok count, ⟨0, none⟩, threeSets.producer 3) := by
  have hbelow : firstAlong.below = [⟨0, 1, .set (.int 1) (.int 10)⟩] := by decide
  have hentries : firstAlong.entries = [(.int 1, .int 10), (.int 2, .int 20)] := rfl
  have hbefore : firstAlong.before.store.entries = [(.int 1, .int 10)] := by
    rw [Delivery.before, hbelow]
    rfl
  have hanswers : (Series.consumer.feed (firstAlong.below.map LoadQueue.relax) {}).1 =
      [.ok (.applied 1)] := by
    rw [hbelow]
    rfl
  have htop : firstAlong.top = firstAlong.snapshot := rfl
  have hharmless : firstAlong.Harmless := by
    refine ⟨?_, ?_, fun hne => absurd htop hne⟩
    · rw [Consumer.Takes, hanswers]
      simp
    · intro _
      rw [hbefore, hentries]
      exact ⟨⟨[(.int 2, .int 20)], rfl⟩, by simp [Value.equals]⟩
  exact firstAlong.converges_iff.2.2 hharmless

/-- The second command takes the place of the snapshot, and the first entry is lost. -/
theorem secondAhead_loses_first :
    (∃ s, LoadQueue.load Series.consumer 0 secondAhead.arrived {} = (.ok 2, ⟨0, none⟩, s) ∧
        s.store.entries = [(.int 2, .int 20), (.int 3, .int 30)]) ∧
      (threeSets.producer 3).store.entries =
          [(.int 1, .int 10), (.int 2, .int 20), (.int 3, .int 30)] ∧
        ¬ secondAhead.Converges := by
  -- the commands arrive in order already, so the sort leaves the second one ahead
  have hsorted : LoadQueue.sorted secondAhead.arrived = secondAhead.arrived := by
    refine List.mergeSort_of_pairwise ?_
    simp [secondAhead, snapshot]
  have hload : LoadQueue.load Series.consumer 0 secondAhead.arrived {} =
      (.ok 2, ⟨0, none⟩, (Series.consumer.feed secondAhead.arrived {}).2) := by
    rw [LoadQueue.load_eq _ (by simp [secondAhead, snapshot]), LoadQueue.replayOrder_eq, hsorted]
    rfl
  have hlost : (Series.consumer.feed secondAhead.arrived {}).2.store.entries =
      [(.int 2, .int 20), (.int 3, .int 30)] := rfl
  have hproduced : (threeSets.producer 3).store.entries =
      [(.int 1, .int 10), (.int 2, .int 20), (.int 3, .int 30)] := rfl
  refine ⟨⟨_, hload, hlost⟩, hproduced, ?_⟩
  rintro ⟨count, s, hload', hentries, -⟩
  have hs : (Series.consumer.feed secondAhead.arrived {}).2 = s :=
    congrArg (fun r => r.2.2) (hload.symm.trans hload')
  have hlength : threeSets.length = 3 := rfl
  rw [← hs, hlost, hlength, hproduced] at hentries
  simp at hentries

end History

end LiveSeries
