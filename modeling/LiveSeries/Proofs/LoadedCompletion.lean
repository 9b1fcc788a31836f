import LiveSeries.Proofs.Completion
import LiveSeries.Proofs.CompletionCommands
import LiveSeries.Proofs.ProducerHistory

/-!
# Completion in a load

A completion takes no version of its own. A producer that is completed after its last command stamps
the completion with the version of that command, so in a load the two have one version, and the one
that arrived first is replayed first. If that is the command, the load ends as the producer did. If
it is the completion, the series is completed before its last command, which is then refused: the
load fails, and the data is cut off by one command. No other command can be lost in this way, since
all others have lesser versions (`History.completes_iff`).
-/

namespace LiveSeries

/-! ## Commands that a completed series refuses -/

namespace Series

/-- A completed series refuses every command that would act on its store. -/
theorem consumer_of_completed {s : Series} (h : s.isCompleted = true) {c : StampedCommand}
    (hc : c.command ≠ .complete) (hdue : s.version < c.version)
    (hlast : s.version ≠ Gate.lastVersion) {store store' : Store}
    (hact : c.command.act store = .ok store') :
    consumer c s = (.error (.refused .completed), s) := by
  have henter := enter_of_completed h
  have hperform : s.perform c.version c.command =
      { result := .error (.refused .completed), series := s } := by
    cases hcommand : c.command with
    | set k v | remove k lookup =>
        simp only [perform, writeAs, henter]
        rfl
    | append entries option =>
        rw [hcommand, Command.act] at hact
        split at hact
        · next hincreases =>
            rw [perform, if_pos hincreases]
            simp only [writeAs, henter]
            rfl
        · cases hact
    | complete => exact absurd hcommand hc
  obtain ⟨gap, happly⟩ :=
    exists_apply_eq_after (fun hseen => Nat.not_le.mpr hdue hseen.1) hlast
  rw [consumer, happly, hperform]
  rfl

/-- A command that is taken because it is ahead is published under its version. -/
theorem answer_of_taken {c : StampedCommand} {store : Store} {v : Nat}
    (hc : c.command ≠ .complete) (hdue : v < c.version) {o : Outcome} {s : Series}
    (h : consumer c (stored store v) = (.ok o, s)) : o = .applied c.version := by
  by_cases hlast : v < Gate.lastVersion
  · rw [consumer_stored hc hdue hlast] at h
    cases hact : c.command.act store with
    | error e =>
        rw [hact] at h
        cases h
    | ok store' =>
        rw [hact] at h
        cases h
        rfl
  · obtain ⟨e, s', he⟩ := consumer_stored_last store hc hdue (Nat.le_of_not_lt hlast)
    rw [he] at h
    cases h

/-- Commands that are taken under versions in sequence all take effect. -/
theorem countP_effects {id v : Nat} {commands : List Command}
    (hplain : ∀ c ∈ commands, c ≠ .complete) (store : Store)
    (htakes : consumer.Takes (stampFrom id v commands) (stored store v)) :
    (consumer.feed (stampFrom id v commands) (stored store v)).1.countP answersEffect =
      commands.length := by
  induction commands generalizing v store with
  | nil => rfl
  | cons c rest ih =>
      have hc : c ≠ .complete := hplain c List.mem_cons_self
      have hrest : ∀ d ∈ rest, d ≠ .complete := fun d hd => hplain d (List.mem_cons_of_mem _ hd)
      obtain ⟨o, s, hstep, htail⟩ := Consumer.takes_cons.mp htakes
      have hdue : v < v + 1 := Nat.lt_succ_self v
      obtain rfl := answer_of_taken (c := ⟨id, v + 1, c⟩) hc hdue hstep
      obtain ⟨store', -, rfl⟩ := exists_act_of_taken (c := ⟨id, v + 1, c⟩) hc hdue hstep
      rw [stampFrom, Consumer.feed_cons hstep, List.countP_cons, ih hrest store' htail]
      rfl

end Series

namespace LoadQueue

/-- Of two commands that arrive, one arrives first. -/
theorem sublist_pair_or {arrived : List StampedCommand} {c d : StampedCommand} (hne : c ≠ d)
    (hc : c ∈ arrived) (hd : d ∈ arrived) : [c, d].Sublist arrived ∨ [d, c].Sublist arrived := by
  obtain ⟨before, behind, rfl⟩ := List.append_of_mem hc
  rcases List.mem_append.mp hd with hd | hd
  · right
    exact (List.singleton_sublist.mpr hd).append (List.singleton_sublist.mpr List.mem_cons_self)
  · left
    have hbehind : d ∈ behind := (List.mem_cons.mp hd).resolve_left hne.symm
    exact ((List.singleton_sublist.mpr hbehind).cons_cons c).trans (List.sublist_append_right _ _)

/-- Nothing comes after the only place of a command, if that is the end. -/
theorem not_sublist_of_end {before : List StampedCommand} {c : StampedCommand} (hc : c ∉ before)
    (d : StampedCommand) : ¬ [c, d].Sublist (before ++ [c]) := by
  intro hsublist
  have hne : ∀ e ∈ before, e ≠ c := fun e he heq => hc (heq ▸ he)
  have hend : (before ++ [c]).Pairwise fun e _ => e ≠ c := by
    refine List.pairwise_append.mpr ⟨?_, List.pairwise_singleton _ _, fun e he _ _ => hne e he⟩
    exact List.pairwise_of_forall_mem_list fun e he _ _ => hne e he
  exact List.pairwise_pair.mp (hend.sublist hsublist) rfl

/-- Commands of one version are replayed in the order in which they arrived. -/
theorem sublist_sorted {arrived : List StampedCommand} {c d : StampedCommand}
    (hversion : c.version = d.version) (h : [c, d].Sublist arrived) :
    [c, d].Sublist (sorted arrived) :=
  List.pair_sublist_mergeSort version_le_trans version_le_total
    (decide_eq_true (Nat.le_of_eq hversion)) h

end LoadQueue

namespace History

open LoadQueue

variable {id : Nat} (h : History id)

theorem keepsOld_of_mem {c : StampedCommand} (hc : c ∈ h.stamped) : KeepsOld c :=
  fun entries => (h.isPlain_of_mem hc).2 entries

/-- The commands up to a version, replayed, lead to the producer's series there. -/
theorem replay_take {version : Nat} (hle : version ≤ h.length) (rest : List StampedCommand) :
    replay Series.consumer ((h.stamped.take version ++ rest).map relax) 0 {} =
      replay Series.consumer (rest.map relax) version (h.producer version) := by
  have htakes := (h.takes_split version).1
  have hkeeps : ∀ c ∈ h.stamped.take version, KeepsOld c :=
    fun c hc => h.keepsOld_of_mem (List.mem_of_mem_take hc)
  have hcount : (Series.consumer.feed (h.stamped.take version) {}).1.countP answersEffect =
      version := by
    rw [stamped, take_stampFrom] at htakes ⊢
    have hplain : ∀ c ∈ h.commands.take version, c ≠ .complete :=
      fun c hc => (h.plain c (List.mem_of_mem_take hc)).1
    have hlength : (h.commands.take version).length = version :=
      List.length_take_of_le hle
    exact (Series.countP_effects hplain .empty htakes).trans hlength
  rw [replay_relax_append hkeeps htakes, hcount, Nat.zero_add]
  rfl

/-! ## The completion of a producer -/

/-- The command to complete the series, with the version that the series has by then. -/
def completion : StampedCommand := ⟨id, h.length, .complete⟩

/-- The completion arrives before the command whose version it has. -/
def Overtaken (arrived : List StampedCommand) : Prop :=
  ∃ last ∈ h.stamped, last.version = h.completion.version ∧ [h.completion, last].Sublist arrived

instance (arrived : List StampedCommand) : Decidable (h.Overtaken arrived) :=
  inferInstanceAs (Decidable (∃ last ∈ h.stamped,
    last.version = h.completion.version ∧ [h.completion, last].Sublist arrived))

/-- The load ends as the producer did: with all its entries, under its version and completed. -/
structure Completes (arrived : List StampedCommand) : Prop where
  answer : (load Series.consumer id arrived {}).1 = .ok (h.length + 1)
  queue : (load Series.consumer id arrived {}).2.1 = ⟨id, none⟩
  entries : (load Series.consumer id arrived {}).2.2.store.entries =
    (h.producer h.length).store.entries
  version : (load Series.consumer id arrived {}).2.2.version = h.length
  completed : (load Series.consumer id arrived {}).2.2.isCompleted = true

/-! ## The order of the replay -/

section Arrival

variable {arrived : List StampedCommand} (hperm : arrived.Perm (h.stamped ++ [h.completion]))

theorem completion_not_mem : h.completion ∉ h.stamped :=
  fun hmem => (h.isPlain_of_mem hmem).1 rfl

theorem version_le_length {c : StampedCommand} (hc : c ∈ h.stamped) : c.version ≤ h.length := by
  have hle := (mem_stampFrom hc).2.2.1
  rwa [Nat.zero_add] at hle

include hperm

/-- In the order of the versions the completion is the last, or the last but one. -/
theorem sorted_arrived :
    sorted arrived = h.stamped ++ [h.completion] ∨
      ∃ before last, h.stamped = before ++ [last] ∧ last.version = h.completion.version ∧
        sorted arrived = before ++ [h.completion, last] := by
  have hsorted := (sorted_perm arrived).trans hperm
  have hmem : h.completion ∈ sorted arrived :=
    hsorted.symm.subset (List.mem_append_right _ List.mem_cons_self)
  obtain ⟨before, behind, hsplit⟩ := List.append_of_mem hmem
  have hordered : Ordered (before ++ h.completion :: behind) := hsplit ▸ ordered_sorted arrived
  -- without the completion the commands are in the order in which they were made
  have hrest : (before ++ behind).Perm h.stamped := by
    rw [hsplit] at hsorted
    have hfront := (List.perm_middle.symm.trans hsorted).trans (List.perm_append_singleton _ _)
    exact hfront.cons_inv
  have hmade : before ++ behind = h.stamped := by
    refine eq_of_perm_of_ordered h.unambiguous_stamped hrest ?_ ?_
    · exact hordered.sublist (List.Sublist.append_left (List.sublist_cons_self _ _) _)
    · exact (pairwise_stampFrom id 0 h.commands).imp Nat.le_of_lt
  have hincreasing : (before ++ behind).Pairwise fun c d => c.version < d.version :=
    hmade ▸ pairwise_stampFrom id 0 h.commands
  cases behind with
  | nil =>
      rw [List.append_nil] at hmade
      exact .inl (by rw [hsplit, hmade])
  | cons last others =>
      have hlast : h.length ≤ last.version :=
        (List.pairwise_cons.mp (List.pairwise_append.mp hordered).2.1).1 last List.mem_cons_self
      -- no version lies beyond that of the completion
      have hnone : others = [] := by
        cases others with
        | nil => rfl
        | cons d _ =>
            have hlt : last.version < d.version :=
              (List.pairwise_cons.mp (List.pairwise_append.mp hincreasing).2.1).1 d
                List.mem_cons_self
            have hd : d ∈ h.stamped := by
              rw [← hmade]
              simp
            have hle := h.version_le_length hd
            omega
      subst hnone
      have hmem : last ∈ h.stamped := hmade ▸ List.mem_append_right _ List.mem_cons_self
      have hversion : last.version = h.length := Nat.le_antisymm (h.version_le_length hmem) hlast
      exact .inr ⟨before, last, hmade.symm, hversion, hsplit⟩

theorem sorted_of_overtaken (hovertaken : h.Overtaken arrived) :
    ∃ before last, h.stamped = before ++ [last] ∧
      sorted arrived = before ++ [h.completion, last] := by
  rcases h.sorted_arrived hperm with hsorted | ⟨before, last, hmade, -, hsorted⟩
  · obtain ⟨last, -, hversion, hsublist⟩ := hovertaken
    have hkept : [h.completion, last].Sublist (h.stamped ++ [h.completion]) :=
      hsorted ▸ sublist_sorted hversion.symm hsublist
    exact absurd hkept (not_sublist_of_end h.completion_not_mem last)
  · exact ⟨before, last, hmade, hsorted⟩

theorem sorted_of_not_overtaken (hnot : ¬ h.Overtaken arrived) :
    sorted arrived = h.stamped ++ [h.completion] := by
  rcases h.sorted_arrived hperm with hsorted | ⟨before, last, hmade, hversion, hsorted⟩
  · exact hsorted
  · have hlast : last ∈ h.stamped := hmade ▸ List.mem_append_right _ List.mem_cons_self
    have hne : last ≠ h.completion := fun heq => h.completion_not_mem (heq ▸ hlast)
    have harrived : last ∈ arrived := hperm.symm.subset (List.mem_append_left _ hlast)
    have harrived' : h.completion ∈ arrived :=
      hperm.symm.subset (List.mem_append_right _ List.mem_cons_self)
    have hends : last ∉ before ++ [h.completion] := by
      have hincreasing : (before ++ [last]).Pairwise fun c d => c.version < d.version :=
        hmade ▸ pairwise_stampFrom id 0 h.commands
      have hbefore : last ∉ before := fun hmem =>
        Nat.lt_irrefl _ ((List.pairwise_append.mp hincreasing).2.2 last hmem last
          List.mem_cons_self)
      intro hmem
      rcases List.mem_append.mp hmem with hmem | hmem
      · exact hbefore hmem
      · exact hne (List.mem_singleton.mp hmem)
    rcases sublist_pair_or hne harrived harrived' with hfirst | hsecond
    · have hkept : [last, h.completion].Sublist (before ++ [h.completion] ++ [last]) := by
        rw [List.append_assoc]
        exact hsorted ▸ sublist_sorted hversion hfirst
      exact absurd hkept (not_sublist_of_end hends h.completion)
    · exact absurd ⟨last, hlast, hversion, hsecond⟩ hnot

end Arrival

/-! ## What becomes of the load -/

theorem writable_producer {version : Nat} (hle : version ≤ h.length)
    (hbelow : version < Gate.lastVersion) : (h.producer version).Writable := by
  rw [h.producer_eq hle]
  exact Series.writable_stored _ hbelow

theorem version_producer {version : Nat} (hle : version ≤ h.length) :
    (h.producer version).version = version := by
  rw [h.producer_eq hle]
  rfl

/-- The completion gets through at its version and at the one before it, unless that is the last
version. -/
theorem consumer_completion {version : Nat} (hle : version ≤ h.length)
    (hnear : h.length ≤ version + 1) (hbelow : version < Gate.lastVersion) :
    Series.consumer h.completion (h.producer version) =
      (.ok .completed, (h.producer version).closed) := by
  have hnext : h.completion.version ≤ (h.producer version).version + 1 := by
    rw [h.version_producer hle]
    exact hnear
  have hcompletes := (h.writable_producer hle hbelow).completes_apply rfl hnext
  rw [Series.consumer, hcompletes.result, hcompletes.settled]

/-- The next command of the producer acts on the producer's store, also if it is relaxed. -/
theorem exists_relaxed_act {version : Nat} (hle : version ≤ h.length) {c : StampedCommand}
    {rest : List StampedCommand} (hnext : h.stamped.drop version = c :: rest) :
    version < c.version ∧ (relax c).command ≠ .complete ∧
      ∃ store, (relax c).command.act (h.producer version).store = .ok store := by
  have hc : c ∈ h.stamped.drop version := hnext ▸ List.mem_cons_self
  obtain ⟨hmade, hdue⟩ := h.mem_drop_iff.mp hc
  have hplain := (isPlain_relax (h.isPlain_of_mem hmade).1).1
  have htakes := (h.takes_split version).2
  rw [hnext] at htakes
  obtain ⟨o, s, hstep, -⟩ := Consumer.takes_cons.mp htakes
  have hrelaxed := consumer_relax (h.keepsOld_of_mem hmade) hstep
  have hdue' : version < (relax c).version := by rwa [version_relax]
  rw [h.producer_eq hle] at hrelaxed
  obtain ⟨store, hact, -⟩ := Series.exists_act_of_taken hplain hdue' hrelaxed
  exact ⟨hdue, hplain, store, hact⟩

section Load

variable {arrived : List StampedCommand} (hperm : arrived.Perm (h.stamped ++ [h.completion]))

include hperm

theorem load_eq_replay {version : Nat} (hle : version ≤ h.length) {rest : List StampedCommand}
    (hsorted : sorted arrived = h.stamped.take version ++ rest) {answer : Except Failure Nat}
    {s : Series}
    (hreplay : replay Series.consumer (rest.map relax) version (h.producer version) = (answer, s)) :
    load Series.consumer id arrived {} = (answer, ⟨id, none⟩, s) := by
  have hid : ∀ c ∈ arrived, c.series = id := by
    intro c hc
    rcases List.mem_append.mp (hperm.subset hc) with hc | hc
    · exact (mem_stampFrom hc).1
    · rw [List.mem_singleton.mp hc]
      rfl
  rw [load_eq _ hid, replayOrder_eq, hsorted, h.replay_take hle, hreplay]

/-- A completion that is replayed last completes the producer's series. -/
theorem load_completes (hnot : ¬ h.Overtaken arrived) (hbelow : h.length < Gate.lastVersion) :
    load Series.consumer id arrived {} =
      (.ok (h.length + 1), ⟨id, none⟩, (h.producer h.length).closed) := by
  have hsorted := h.sorted_of_not_overtaken hperm hnot
  rw [← h.take_length] at hsorted
  have hcompletes := h.consumer_completion (Nat.le_refl _) (Nat.le_succ _) hbelow
  exact h.load_eq_replay hperm (Nat.le_refl _) hsorted (replay_cons_of_ok hcompletes [] h.length)

/-- At the last version there is nothing to compare the completion with. -/
theorem load_faults (hnot : ¬ h.Overtaken arrived) (hlast : h.length = Gate.lastVersion) :
    load Series.consumer id arrived {} =
      (.error (.fault .addOverflow), ⟨id, none⟩, h.producer h.length) := by
  have hsorted := h.sorted_of_not_overtaken hperm hnot
  rw [← h.take_length] at hsorted
  have happly := Series.apply_at_last (c := h.completion) rfl
    ((h.version_producer (Nat.le_refl _)).trans hlast)
  have hconsumer : Series.consumer h.completion (h.producer h.length) =
      (.error (.fault .addOverflow), h.producer h.length) := by
    rw [Series.consumer, happly]
    rfl
  refine h.load_eq_replay hperm (Nat.le_refl _) hsorted ?_
  show replay Series.consumer [h.completion] h.length (h.producer h.length) = _
  rw [replay, hconsumer]

/-- A completion that overtook the last command completes the series before it. -/
theorem load_cuts_off (hovertaken : h.Overtaken arrived) :
    load Series.consumer id arrived {} =
      (.error (.refused .completed), ⟨id, none⟩, (h.producer (h.length - 1)).closed) := by
  obtain ⟨before, last, hmade, hsorted⟩ := h.sorted_of_overtaken hperm hovertaken
  have hlength : before.length + 1 = h.length := by
    have hcount := length_stampFrom id 0 h.commands
    rw [← stamped, hmade, List.length_append] at hcount
    exact hcount
  have htake : h.stamped.take (h.length - 1) = before := by
    rw [hmade, ← hlength, Nat.add_sub_cancel, List.take_left]
  have hdrop : h.stamped.drop (h.length - 1) = [last] := by
    rw [hmade, ← hlength, Nat.add_sub_cancel, List.drop_left]
  have hle : h.length - 1 ≤ h.length := Nat.sub_le _ _
  have hbelow : h.length - 1 < Gate.lastVersion := by
    have := h.length_le_last
    omega
  have hcompletes := h.consumer_completion hle (by omega) hbelow
  obtain ⟨hdue, hplain, store, hact⟩ := h.exists_relaxed_act hle hdrop
  have hversion : (h.producer (h.length - 1)).closed.version = h.length - 1 :=
    h.version_producer hle
  have hrefused : Series.consumer (relax last) (h.producer (h.length - 1)).closed =
      (.error (.refused .completed), (h.producer (h.length - 1)).closed) := by
    refine Series.consumer_of_completed rfl hplain ?_ ?_ hact
    · rw [version_relax, hversion]
      exact hdue
    · rw [hversion]
      exact Nat.ne_of_lt hbelow
  refine h.load_eq_replay hperm hle (htake ▸ hsorted) ?_
  show replay Series.consumer [h.completion, relax last] (h.length - 1) _ = _
  rw [replay_cons_of_ok hcompletes, replay, hrefused]

end Load

/-- For every history of a producer, and every order in which its commands and its completion
arrive: the load ends as the producer did, unless the completion arrives before the last command, or
the last command has the last version that there is. In the first case the load fails with the
series completed one command short, and in the second it faults with all commands applied and the
series still open. -/
theorem completes_iff {arrived : List StampedCommand}
    (hperm : arrived.Perm (h.stamped ++ [h.completion])) :
    (h.Completes arrived ↔ ¬ h.Overtaken arrived ∧ h.length ≠ Gate.lastVersion) ∧
    (h.Overtaken arrived →
      load Series.consumer id arrived {} =
        (.error (.refused .completed), ⟨id, none⟩, (h.producer (h.length - 1)).closed)) ∧
    (¬ h.Overtaken arrived → h.length = Gate.lastVersion →
      load Series.consumer id arrived {} =
        (.error (.fault .addOverflow), ⟨id, none⟩, h.producer h.length)) := by
  refine ⟨⟨?_, ?_⟩, h.load_cuts_off hperm, h.load_faults hperm⟩
  · intro hcompletes
    have hanswer := hcompletes.answer
    constructor
    · intro hovertaken
      rw [h.load_cuts_off hperm hovertaken] at hanswer
      cases hanswer
    · intro hlast
      by_cases hovertaken : h.Overtaken arrived
      · rw [h.load_cuts_off hperm hovertaken] at hanswer
        cases hanswer
      · rw [h.load_faults hperm hovertaken hlast] at hanswer
        cases hanswer
  · rintro ⟨hnot, hlast⟩
    have hbelow : h.length < Gate.lastVersion := Nat.lt_of_le_of_ne h.length_le_last hlast
    have hload := h.load_completes hperm hnot hbelow
    have hversion : (h.producer h.length).closed.version = h.length :=
      h.version_producer (Nat.le_refl _)
    constructor
    · rw [hload]
    · rw [hload]
    · rw [hload]
      rfl
    · rw [hload]
      exact hversion
    · rw [hload]
      rfl

/-! ## Two arrivals -/

/-- Two entries, one after the other. -/
def twoSets : History 7 where
  commands := [.set (.int 1) (.int 10), .set (.int 2) (.int 20)]
  plain := by simp [Command.IsPlain]
  taken := by
    have hanswers : (Series.consumer.feed (stampFrom 7 0
        [.set (.int 1) (.int 10), .set (.int 2) (.int 20)]) {}).1 =
        [.ok (.applied 1), .ok (.applied 2)] := rfl
    rw [Consumer.Takes, hanswers]
    simp

/-- The first command comes last, and the completion after the second. -/
theorem completes_twoSets : twoSets.Completes
    [⟨7, 2, .set (.int 2) (.int 20)⟩, ⟨7, 2, .complete⟩, ⟨7, 1, .set (.int 1) (.int 10)⟩] := by
  have hlast : twoSets.length ≠ Gate.lastVersion := by decide
  exact (twoSets.completes_iff (by decide)).1.mpr ⟨by decide, hlast⟩

/-- The completion arrives between the two commands. -/
def cutShort : List StampedCommand :=
  [⟨7, 1, .set (.int 1) (.int 10)⟩, ⟨7, 2, .complete⟩, ⟨7, 2, .set (.int 2) (.int 20)⟩]

/-- The completion takes the place of the second command, and the second entry is lost. -/
theorem cutShort_loses_second :
    cutShort.Perm (twoSets.stamped ++ [twoSets.completion]) ∧
      twoSets.length ≠ Gate.lastVersion ∧
      (twoSets.producer 2).store.entries = [(.int 1, .int 10), (.int 2, .int 20)] ∧
      (∃ s, load Series.consumer 7 cutShort {} = (.error (.refused .completed), ⟨7, none⟩, s) ∧
        s.store.entries = [(.int 1, .int 10)] ∧ s.version = 1 ∧ s.isCompleted = true) ∧
      ¬ twoSets.Completes cutShort := by
  have hperm : cutShort.Perm (twoSets.stamped ++ [twoSets.completion]) := by decide
  have hload := twoSets.load_cuts_off hperm (by decide)
  refine ⟨hperm, by decide, rfl, ⟨_, hload, rfl, rfl, rfl⟩, fun hcompletes => ?_⟩
  have hanswer := hcompletes.answer
  rw [hload] at hanswer
  cases hanswer

end History

end LiveSeries
