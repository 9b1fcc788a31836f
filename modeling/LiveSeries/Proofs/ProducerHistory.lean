import LiveSeries.Proofs.StoredSeries

/-!
# Histories of a producer

A producer applies commands to an empty series under the versions from one on, and all of them are
taken. At every version its series is a store under that version (`History.producer_eq`); from
there the remaining commands lead to its end (`History.producer_length_eq`).
-/

namespace LiveSeries

/-! ## Consecutive versions -/

/-- Commands under the versions that follow a version. -/
def stampFrom (id : Nat) : Nat → List Command → List StampedCommand
  | _, [] => []
  | version, c :: rest => ⟨id, version + 1, c⟩ :: stampFrom id (version + 1) rest

theorem mem_stampFrom {id version : Nat} {commands : List Command} {c : StampedCommand}
    (h : c ∈ stampFrom id version commands) :
    c.series = id ∧ version < c.version ∧ c.version ≤ version + commands.length ∧
      c.command ∈ commands := by
  induction commands generalizing version with
  | nil => cases h
  | cons command rest ih =>
      rcases List.mem_cons.mp h with rfl | h
      · exact ⟨rfl, Nat.lt_succ_self _, by simp, List.mem_cons_self⟩
      · obtain ⟨hid, hlt, hle, hmem⟩ := ih h
        rw [List.length_cons]
        exact ⟨hid, by omega, by omega, List.mem_cons_of_mem _ hmem⟩

theorem take_stampFrom (id version m : Nat) (commands : List Command) :
    (stampFrom id version commands).take m = stampFrom id version (commands.take m) := by
  induction commands generalizing version m with
  | nil => rw [stampFrom, List.take_nil, List.take_nil, stampFrom]
  | cons c rest ih =>
      cases m with
      | zero => rfl
      | succ m => rw [stampFrom, List.take_succ_cons, List.take_succ_cons, stampFrom, ih]

theorem length_stampFrom (id version : Nat) (commands : List Command) :
    (stampFrom id version commands).length = commands.length := by
  induction commands generalizing version with
  | nil => rfl
  | cons c rest ih => rw [stampFrom, List.length_cons, List.length_cons, ih]

theorem drop_stampFrom (id version m : Nat) (commands : List Command) :
    (stampFrom id version commands).drop m = stampFrom id (version + m) (commands.drop m) := by
  induction commands generalizing version m with
  | nil => rw [stampFrom, List.drop_nil, List.drop_nil, stampFrom]
  | cons c rest ih =>
      cases m with
      | zero => rfl
      | succ m =>
          rw [stampFrom, List.drop_succ_cons, List.drop_succ_cons, ih, Nat.add_assoc,
            Nat.add_comm 1 m]

theorem pairwise_stampFrom (id version : Nat) (commands : List Command) :
    (stampFrom id version commands).Pairwise fun c d => c.version < d.version := by
  induction commands generalizing version with
  | nil => exact List.Pairwise.nil
  | cons c rest ih =>
      refine List.pairwise_cons.mpr ⟨?_, ih (version + 1)⟩
      intro d hd
      exact (mem_stampFrom hd).2.1

namespace Series

theorem latest_stampFrom (id version : Nat) (commands : List Command) :
    latest version (stampFrom id version commands) = version + commands.length := by
  induction commands generalizing version with
  | nil => rfl
  | cons c rest ih =>
      have hmax : max version (version + 1) = version + 1 := Nat.max_eq_right (Nat.le_succ version)
      show latest (max version (version + 1)) (stampFrom id (version + 1) rest) = _
      rw [hmax, ih, List.length_cons]
      omega

/-- Commands that are taken under versions in sequence do not go beyond the last version. -/
theorem length_le_of_takes {id v : Nat} {commands : List Command}
    (hplain : ∀ c ∈ commands, c ≠ .complete) (store : Store) (hlast : v ≤ Gate.lastVersion)
    (htakes : consumer.Takes (stampFrom id v commands) (stored store v)) :
    v + commands.length ≤ Gate.lastVersion := by
  induction commands generalizing v store with
  | nil => exact hlast
  | cons c rest ih =>
      have hc : c ≠ .complete := hplain c List.mem_cons_self
      have hrest : ∀ d ∈ rest, d ≠ .complete := fun d hd => hplain d (List.mem_cons_of_mem _ hd)
      obtain ⟨o, s, hstep, htail⟩ := Consumer.takes_cons.mp htakes
      have hbelow : v < Gate.lastVersion := by
        rcases Nat.lt_or_ge v Gate.lastVersion with h | h
        · exact h
        · obtain ⟨e, s', he⟩ := consumer_stored_last (c := ⟨id, v + 1, c⟩) store hc
            (Nat.lt_succ_self v) h
          rw [he] at hstep
          cases hstep
      obtain ⟨store', rfl⟩ := exists_stored_of_taken (c := ⟨id, v + 1, c⟩) hc hstep
      have hmax : max v (v + 1) = v + 1 := Nat.max_eq_right (Nat.le_succ v)
      rw [hmax] at htail
      have hlength := ih hrest _ hbelow htail
      rw [List.length_cons]
      omega

end Series

/-! ## Histories -/

/-- What a producer did to an empty series: plain commands under the versions from one on, each of
which was taken. -/
structure History (id : Nat) where
  commands : List Command
  plain : ∀ c ∈ commands, c.IsPlain
  taken : Series.consumer.Takes (stampFrom id 0 commands) {}

namespace History

variable {id : Nat} (h : History id)

/-- The commands with their versions. -/
def stamped : List StampedCommand := stampFrom id 0 h.commands

def length : Nat := h.commands.length

/-- The series of the producer at a version. -/
def producer (version : Nat) : Series := (Series.consumer.feed (h.stamped.take version) {}).2

/-- The snapshot of the producer at a version. -/
def snapshot (version : Nat) (rule : OverlapRule) : StampedCommand :=
  ⟨id, version, .append (h.producer version).store.entries rule⟩

theorem isPlain_of_mem {c : StampedCommand} (hc : c ∈ h.stamped) : c.command.IsPlain :=
  h.plain _ (mem_stampFrom hc).2.2.2

theorem unambiguous_stamped : LoadQueue.Unambiguous h.stamped :=
  LoadQueue.unambiguous_of_pairwise (pairwise_stampFrom id 0 h.commands)

/-- The commands up to a version, and those after it. -/
theorem mem_take_iff {version : Nat} {c : StampedCommand} :
    c ∈ h.stamped.take version ↔ c ∈ h.stamped ∧ c.version ≤ version := by
  constructor
  · intro hc
    refine ⟨List.mem_of_mem_take hc, ?_⟩
    rw [stamped, take_stampFrom] at hc
    have hle := (mem_stampFrom hc).2.2.1
    have hlength := List.length_take_le version h.commands
    omega
  · rintro ⟨hc, hle⟩
    rw [← List.take_append_drop version h.stamped] at hc
    rcases List.mem_append.mp hc with hc | hc
    · exact hc
    · rw [stamped, drop_stampFrom] at hc
      have hlt := (mem_stampFrom hc).2.1
      omega

theorem mem_drop_iff {version : Nat} {c : StampedCommand} :
    c ∈ h.stamped.drop version ↔ c ∈ h.stamped ∧ version < c.version := by
  constructor
  · intro hc
    refine ⟨List.mem_of_mem_drop hc, ?_⟩
    rw [stamped, drop_stampFrom] at hc
    have hlt := (mem_stampFrom hc).2.1
    omega
  · rintro ⟨hc, hlt⟩
    have hsplit := hc
    rw [← List.take_append_drop version h.stamped] at hsplit
    rcases List.mem_append.mp hsplit with hmem | hmem
    · have hle := (h.mem_take_iff.mp hmem).2
      omega
    · exact hmem

theorem length_le_last : h.length ≤ Gate.lastVersion := by
  have hplain : ∀ c ∈ h.commands, c ≠ .complete := fun c hc => (h.plain c hc).1
  have hlength := Series.length_le_of_takes hplain .empty (Nat.zero_le _) h.taken
  rw [Nat.zero_add] at hlength
  exact hlength

/-- The producer takes the commands up to a version, and then the others. -/
theorem takes_split (version : Nat) :
    Series.consumer.Takes (h.stamped.take version) {} ∧
      Series.consumer.Takes (h.stamped.drop version) (h.producer version) := by
  have htaken := h.taken
  rw [← stamped, ← List.take_append_drop version h.stamped] at htaken
  exact Consumer.takes_append.mp htaken

theorem take_length : h.stamped.take h.length = h.stamped := by
  rw [stamped, take_stampFrom, length, List.take_length]

theorem producer_length_eq (version : Nat) :
    h.producer h.length =
      (Series.consumer.feed (h.stamped.drop version) (h.producer version)).2 := by
  have happend : Series.consumer.feed (h.stamped.take version ++ h.stamped.drop version) {} = _ :=
    Consumer.feed_append _ _ _
  rw [List.take_append_drop] at happend
  rw [producer, h.take_length, happend]
  rfl

/-- The series of the producer is a store at a version. -/
theorem producer_eq {version : Nat} (hle : version ≤ h.length) :
    h.producer version = .stored (h.producer version).store version := by
  have hplain : ∀ c ∈ h.stamped.take version, c.command ≠ .complete :=
    fun c hc => (h.isPlain_of_mem (List.mem_of_mem_take hc)).1
  obtain ⟨store, hstore⟩ := Series.exists_stored_of_takes hplain .empty 0
    (h.takes_split version).1
  have hlatest : Series.latest 0 (h.stamped.take version) = version := by
    rw [stamped, take_stampFrom, Series.latest_stampFrom, List.length_take]
    rw [length] at hle
    omega
  have hproducer : h.producer version = .stored store version := by
    rw [hlatest] at hstore
    exact hstore
  rw [hproducer]
  rfl

end History

end LiveSeries
