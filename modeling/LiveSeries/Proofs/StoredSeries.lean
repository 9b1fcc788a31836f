import LiveSeries.Proofs.LoadReplay
import LiveSeries.Proofs.SeriesWrites

/-!
# Series that took commands only

A command that is due acts on the store of its series, and is published under its version
(`Series.Writable.publishes_perform`). A series that nobody waits for is a store and a version, as
far as commands are concerned. A command that is ahead acts on the store and brings its version
(`Series.consumer_stored`); any other is skipped. So commands that are all taken leave a store under
the greatest of their versions (`Series.exists_stored_of_takes`).
-/

namespace LiveSeries

/-- What a command makes of a store. -/
def Command.act (store : Store) : Command → Except Refusal Store
  | .set k v => .ok (store.insert k v).2
  | .append entries option =>
    if increases entries then
      (store.append entries option).map fun change => change.2.getD store
    else .error .outOfOrder
  | .remove k lookup => .ok (store.removeMany k lookup).2
  | .complete => .ok store

/-- A command that neither completes its series nor drops stored entries. -/
def Command.IsPlain (c : Command) : Prop := c ≠ .complete ∧ ∀ entries, c ≠ .append entries .dropOld

theorem LoadQueue.isPlain_relax {c : StampedCommand} (hc : c.command ≠ .complete) :
    (relax c).command.IsPlain := by
  obtain ⟨series, version, command⟩ := c
  cases command with
  | set _ _ | remove _ _ => exact ⟨hc, fun _ => Command.noConfusion⟩
  | append entries option =>
      refine ⟨Command.noConfusion, ?_⟩
      intro others heq
      cases heq
  | complete => exact absurd rfl hc

namespace Series

/-! ## Commands that are due -/

/-- A command that is due and acts on the store is published under its version. -/
theorem Writable.publishes_perform {s : Series} (h : s.Writable) {version : Nat}
    (hdue : s.version < version) {c : Command} (hc : c ≠ .complete) {store : Store}
    (hact : c.act s.store = .ok store) :
    (s.perform version c).Publishes (.applied version) (.published version)
      (s.published store version) := by
  cases c with
  | set k v =>
      cases hact
      have hwrite := h.publishes_writeAs hdue (fun store => .ok ((), some (store.insert k v).2)) rfl
      exact publishes_asApplied hwrite
  | append entries option =>
      simp only [Command.act] at hact
      split at hact
      · next hincreases =>
          cases happend : s.store.append entries option with
          | error e =>
              rw [happend] at hact
              cases hact
          | ok change =>
              rw [happend] at hact
              cases hact
              rw [perform, if_pos hincreases]
              exact publishes_asApplied (h.publishes_writeAs hdue _ happend)
      · cases hact
  | remove k lookup =>
      cases hact
      have hwrite := h.publishes_writeAs hdue
        (fun store => .ok ((), some (store.removeMany k lookup).2)) rfl
      exact publishes_asApplied hwrite
  | complete => exact absurd rfl hc

/-- A command that is due and that the store refuses changes nothing. Only an append is refused. -/
theorem Writable.perform_of_refused {s : Series} (h : s.Writable) {version : Nat}
    (hdue : s.version < version) {c : Command} {r : Refusal} (hact : c.act s.store = .error r) :
    s.perform version c = { result := .error (.refused r), series := s } := by
  cases c with
  | append entries option =>
      simp only [Command.act] at hact
      split at hact
      · next hincreases =>
          cases happend : s.store.append entries option with
          | error e =>
              rw [happend] at hact
              cases hact
              rw [perform, if_pos hincreases, h.writeAs_of_refused hdue happend]
              rfl
          | ok change =>
              rw [happend] at hact
              cases hact
      · next hincreases =>
          cases hact
          rw [perform, if_neg hincreases]
  | set k v | remove k lookup | complete => cases hact

/-- A command that is due is performed, whether or not it leaves versions out. -/
theorem Writable.consumer_eq {s : Series} (h : s.Writable) {c : StampedCommand}
    (hdue : s.version < c.version) :
    consumer c s =
      ((s.perform c.version c.command).result, (s.perform c.version c.command).settled) := by
  unfold consumer apply
  dsimp only
  rw [if_neg (fun h => Nat.not_le.mpr hdue h.1), if_neg (Nat.ne_of_lt h.below)]
  rfl

theorem Writable.consumer_of_act {s : Series} (h : s.Writable) {c : StampedCommand}
    (hdue : s.version < c.version) (hc : c.command ≠ .complete) {store : Store}
    (hact : c.command.act s.store = .ok store) :
    consumer c s = (.ok (.applied c.version), s.published store c.version) := by
  have hpublishes := h.publishes_perform hdue hc hact
  rw [h.consumer_eq hdue, hpublishes.result, hpublishes.settled]

theorem Writable.consumer_of_refused {s : Series} (h : s.Writable) {c : StampedCommand}
    (hdue : s.version < c.version) {r : Refusal} (hact : c.command.act s.store = .error r) :
    consumer c s = (.error (.refused r), s) := by
  rw [h.consumer_eq hdue, h.perform_of_refused hdue hact]
  rfl

/-! ## Stored series -/

/-- A series that nobody waits for, with an open gate at a version. -/
def stored (store : Store) (version : Nat) : Series :=
  { store := store, gate := { version := version, nextVersion := version } }

theorem stored_empty : stored .empty 0 = {} := rfl

variable {c : StampedCommand} {store : Store} {v : Nat}

theorem writable_stored (store : Store) (hlast : v < Gate.lastVersion) :
    (stored store v).Writable := by
  have hpage : 0 < ({} : Settings).pageSize := by decide
  exact ⟨⟨rfl, rfl, hpage⟩, rfl, hlast⟩

/-- A command that is not ahead is skipped. -/
theorem consumer_stored_of_le (store : Store) (hc : c.command ≠ .complete) (hle : c.version ≤ v) :
    consumer c (stored store v) = (.ok .skipped, stored store v) := by
  have happly : (stored store v).apply c =
      { result := .ok .skipped
        series := stored store v
        events := [.commandSkipped c.series c.version v] } := if_pos ⟨hle, hc⟩
  rw [consumer, happly]
  rfl

/-- A command that is due acts on the store and makes its version the current one. -/
theorem consumer_stored (hc : c.command ≠ .complete) (hdue : v < c.version)
    (hlast : v < Gate.lastVersion) :
    consumer c (stored store v) =
      match c.command.act store with
        | .ok store' => (.ok (.applied c.version), stored store' c.version)
        | .error e => (.error (.refused e), stored store v) := by
  have hwritable := writable_stored store hlast
  cases hact : c.command.act store with
  | error e => exact hwritable.consumer_of_refused hdue hact
  | ok store' => exact hwritable.consumer_of_act hdue hc hact

/-- After the last version no command that is ahead is taken. -/
theorem consumer_stored_last (store : Store) (hc : c.command ≠ .complete) (hdue : v < c.version)
    (hlast : Gate.lastVersion ≤ v) : ∃ e s, consumer c (stored store v) = (.error e, s) := by
  have henter : (stored store v).gate.enter = .error (.fault .addOverflow) := by
    rw [stored, Gate.enter, if_neg Bool.false_ne_true, if_neg Bool.false_ne_true,
      if_neg (Nat.not_lt.mpr hlast)]
  have hwrite : ∀ {α : Type} (f : Store → Except Refusal (Change α)),
      (asApplied c.version ((stored store v).writeAs c.version f)).result =
        .error (.fault .addOverflow) := by
    intro α f
    simp only [writeAs, henter]
    rfl
  -- even beyond the last version, where the command itself does not fault, the gate does
  have hperform : ∃ e, ((stored store v).perform c.version c.command).result = .error e := by
    cases hcommand : c.command with
    | set k value => exact ⟨_, hwrite _⟩
    | append entries option =>
        by_cases hincreases : increases entries = true
        · rw [perform, if_pos hincreases]
          exact ⟨_, hwrite _⟩
        · rw [perform, if_neg hincreases]
          exact ⟨_, rfl⟩
    | remove k lookup => exact ⟨_, hwrite _⟩
    | complete => exact absurd hcommand hc
  have happly : ∃ e, ((stored store v).apply c).result = .error e := by
    unfold apply
    dsimp only
    rw [if_neg (fun h => Nat.not_le.mpr hdue h.1)]
    split
    · exact ⟨_, rfl⟩
    · exact hperform
  obtain ⟨e, he⟩ := happly
  exact ⟨e, _, by rw [consumer, he]⟩

/-- A command that is ahead is taken if it acts on the store. -/
theorem exists_act_of_taken (hc : c.command ≠ .complete) (hdue : v < c.version) {o : Outcome}
    {s : Series} (h : consumer c (stored store v) = (.ok o, s)) :
    ∃ store', c.command.act store = .ok store' ∧ s = stored store' c.version := by
  by_cases hlast : v < Gate.lastVersion
  · rw [consumer_stored hc hdue hlast] at h
    cases hact : c.command.act store with
    | error e =>
        rw [hact] at h
        cases h
    | ok store' =>
        rw [hact] at h
        cases h
        exact ⟨store', rfl, rfl⟩
  · obtain ⟨e, s', he⟩ := consumer_stored_last store hc hdue (Nat.le_of_not_lt hlast)
    rw [he] at h
    cases h

/-- A command that is taken leaves the greater of the two versions. -/
theorem exists_stored_of_taken (hc : c.command ≠ .complete) {o : Outcome} {s : Series}
    (h : consumer c (stored store v) = (.ok o, s)) :
    ∃ store', s = stored store' (max v c.version) := by
  by_cases hle : c.version ≤ v
  · rw [consumer_stored_of_le store hc hle] at h
    cases h
    exact ⟨store, by rw [Nat.max_eq_left hle]⟩
  · have hdue : v < c.version := Nat.lt_of_not_le hle
    obtain ⟨store', -, rfl⟩ := exists_act_of_taken hc hdue h
    exact ⟨store', by rw [Nat.max_eq_right (Nat.le_of_lt hdue)]⟩

/-! ## Feeding a series -/

/-- The greatest of a version and those of commands. -/
def latest (version : Nat) (commands : List StampedCommand) : Nat :=
  commands.foldl (fun v c => max v c.version) version

theorem latest_le {version bound : Nat} {commands : List StampedCommand}
    (hversion : version ≤ bound) (hcommands : ∀ c ∈ commands, c.version ≤ bound) :
    latest version commands ≤ bound := by
  induction commands generalizing version with
  | nil => exact hversion
  | cons c rest ih =>
      have hc : c.version ≤ bound := hcommands c List.mem_cons_self
      exact ih (Nat.max_le.mpr ⟨hversion, hc⟩) fun d hd => hcommands d (List.mem_cons_of_mem _ hd)

theorem latest_map_relax (version : Nat) (commands : List StampedCommand) :
    latest version (commands.map LoadQueue.relax) = latest version commands := by
  rw [latest, List.foldl_map]
  simp only [LoadQueue.version_relax]
  rfl

theorem latest_append_singleton (version : Nat) (commands : List StampedCommand)
    (c : StampedCommand) :
    latest version (commands ++ [c]) = max (latest version commands) c.version := by
  rw [latest, List.foldl_append]
  rfl

/-- Commands that are taken leave a store at the greatest version. -/
theorem exists_stored_of_takes {commands : List StampedCommand}
    (hplain : ∀ c ∈ commands, c.command ≠ .complete) (store : Store) (v : Nat)
    (htakes : consumer.Takes commands (stored store v)) :
    ∃ store', (consumer.feed commands (stored store v)).2 = stored store' (latest v commands) := by
  induction commands generalizing store v with
  | nil => exact ⟨store, rfl⟩
  | cons c rest ih =>
      have hrest : ∀ d ∈ rest, d.command ≠ .complete :=
        fun d hd => hplain d (List.mem_cons_of_mem _ hd)
      obtain ⟨o, s, hstep, htail⟩ := Consumer.takes_cons.mp htakes
      obtain ⟨store', rfl⟩ := exists_stored_of_taken (hplain c List.mem_cons_self) hstep
      obtain ⟨store'', hend⟩ := ih hrest _ _ htail
      exact ⟨store'', by rw [Consumer.feed_cons hstep, hend]; rfl⟩

end Series

end LiveSeries
