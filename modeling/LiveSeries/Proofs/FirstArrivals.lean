import LiveSeries.Proofs.Nearest
import LiveSeries.Proofs.StoredSeries

/-!
# First arrivals

A series takes of every version the command that comes first, and skips the others. The replay of
a load is stable, so of every version the command counts that arrived first, and a load is decided
by these commands alone (`replay_of_firsts`). Two commands of one version may be different commands
here.
-/

namespace LiveSeries

namespace LoadQueue

/-! ## The commands that count -/

/-- What a replay that starts at a version does not skip. -/
def fresh : Nat → List StampedCommand → List StampedCommand
  | _, [] => []
  | version, c :: rest =>
    if c.version ≤ version then fresh version rest else c :: fresh c.version rest

theorem fresh_map_relax (version : Nat) (commands : List StampedCommand) :
    fresh version (commands.map relax) = (fresh version commands).map relax := by
  induction commands generalizing version with
  | nil => rfl
  | cons c rest ih =>
      rw [List.map_cons, fresh, fresh, version_relax]
      split
      · exact ih version
      · rw [List.map_cons, ih]

/-- A replay does no more than its commands that count. -/
theorem replay_fresh {commands : List StampedCommand}
    (hplain : ∀ c ∈ commands, c.command ≠ .complete) (store : Store) (v count : Nat) :
    replay Series.consumer commands count (.stored store v) =
      replay Series.consumer (fresh v commands) count (.stored store v) := by
  induction commands generalizing store v count with
  | nil => rfl
  | cons c rest ih =>
      have hc := hplain c List.mem_cons_self
      have hrest : ∀ d ∈ rest, d.command ≠ .complete :=
        fun d hd => hplain d (List.mem_cons_of_mem _ hd)
      -- what is skipped leaves the series as it is, and what is taken brings its version
      by_cases hle : c.version ≤ v
      · have hskip := Series.consumer_stored_of_le store hc hle
        rw [fresh, if_pos hle, replay_cons_of_ok hskip]
        exact ih hrest store v count
      · rw [fresh, if_neg hle]
        generalize hstep : Series.consumer c (.stored store v) = step
        obtain ⟨answer, s⟩ := step
        cases answer with
        | error e => rw [replay, replay, hstep]
        | ok o =>
            obtain ⟨store', rfl⟩ := Series.exists_stored_of_taken hc hstep
            rw [replay_cons_of_ok hstep, replay_cons_of_ok hstep,
              Nat.max_eq_right (Nat.le_of_not_le hle)]
            exact ih hrest store' c.version _

/-- The versions of what counts increase. -/
theorem pairwise_fresh (version : Nat) (commands : List StampedCommand) :
    (∀ c ∈ fresh version commands, version < c.version) ∧
      (fresh version commands).Pairwise fun c d => c.version < d.version := by
  induction commands generalizing version with
  | nil => exact ⟨by simp [fresh], List.Pairwise.nil⟩
  | cons c rest ih =>
      rw [fresh]
      split
      · exact ih version
      · next hle =>
          have hlt : version < c.version := Nat.lt_of_not_le hle
          obtain ⟨habove, hpairwise⟩ := ih c.version
          refine ⟨?_, List.pairwise_cons.mpr ⟨habove, hpairwise⟩⟩
          intro d hd
          rcases List.mem_cons.mp hd with rfl | hd
          · exact hlt
          · exact Nat.lt_trans hlt (habove d hd)

/-- The command of a version that arrived first. -/
def firstOf (commands : List StampedCommand) (version : Nat) : Option StampedCommand :=
  commands.find? fun c => c.version == version

theorem firstOf_cons (c : StampedCommand) (rest : List StampedCommand) (version : Nat) :
    firstOf (c :: rest) version = if c.version = version then some c else firstOf rest version := by
  rw [firstOf, List.find?_cons]
  by_cases h : c.version = version
  · rw [if_pos h, beq_iff_eq.mpr h]
  · rw [if_neg h, beq_eq_false_iff_ne.mpr h]
    rfl

theorem mem_of_firstOf {commands : List StampedCommand} {version : Nat} {c : StampedCommand}
    (h : firstOf commands version = some c) : c ∈ commands ∧ c.version = version := by
  have hversion := List.find?_some h
  exact ⟨List.mem_of_find?_eq_some h, beq_iff_eq.mp hversion⟩

theorem exists_firstOf {commands : List StampedCommand} {c : StampedCommand} (hc : c ∈ commands) :
    ∃ e, firstOf commands c.version = some e := by
  cases hfirst : firstOf commands c.version with
  | none =>
      have hnone := List.find?_eq_none.mp hfirst c hc
      exact absurd (beq_self_eq_true c.version) hnone
  | some e => exact ⟨e, rfl⟩

/-- Of commands in order the first ones of their versions count. -/
theorem mem_fresh {commands : List StampedCommand} (hordered : Ordered commands) {version : Nat}
    {c : StampedCommand} :
    c ∈ fresh version commands ↔ version < c.version ∧ firstOf commands c.version = some c := by
  induction commands generalizing version with
  | nil => simp [fresh, firstOf]
  | cons d rest ih =>
      obtain ⟨hd, hrest⟩ := List.pairwise_cons.mp hordered
      rw [fresh, firstOf_cons]
      split
      · next hle =>
          rw [ih hrest]
          constructor
          · rintro ⟨hlt, hfirst⟩
            rw [if_neg (by omega)]
            exact ⟨hlt, hfirst⟩
          · rintro ⟨hlt, hfirst⟩
            rw [if_neg (by omega)] at hfirst
            exact ⟨hlt, hfirst⟩
      · next hle =>
          rw [List.mem_cons, ih hrest]
          constructor
          · rintro (rfl | ⟨hlt, hfirst⟩)
            · exact ⟨Nat.lt_of_not_le hle, if_pos rfl⟩
            · rw [if_neg (by omega)]
              exact ⟨by omega, hfirst⟩
          · rintro ⟨hlt, hfirst⟩
            by_cases hversion : d.version = c.version
            · rw [if_pos hversion] at hfirst
              exact .inl (Option.some.inj hfirst).symm
            · rw [if_neg hversion] at hfirst
              have hmem := (mem_of_firstOf hfirst).1
              have hle' := hd c hmem
              exact .inr ⟨by omega, hfirst⟩

/-- The sort of a load leaves the first command of every version the first. -/
theorem firstOf_sorted (commands : List StampedCommand) (version : Nat) :
    firstOf (sorted commands) version = firstOf commands version := by
  have hequal : (commands.filter fun c => c.version == version).Pairwise
      fun c d => decide (c.version ≤ d.version) := by
    refine List.pairwise_filter.mpr (List.pairwise_of_forall ?_)
    intro c d hc hd
    have hsame : c.version = d.version := (beq_iff_eq.mp hc).trans (beq_iff_eq.mp hd).symm
    exact decide_eq_true (Nat.le_of_eq hsame)
  -- a stable sort keeps every sublist that is in order, such as the commands of one version
  have hsublist : (commands.filter fun c => c.version == version).Sublist (sorted commands) :=
    List.sublist_mergeSort version_le_trans version_le_total hequal List.filter_sublist
  have hfiltered := hsublist.filter fun c => c.version == version
  rw [List.filter_filter] at hfiltered
  simp only [Bool.and_self] at hfiltered
  have hlength := ((sorted_perm commands).filter fun c => c.version == version).length_eq
  have hsame := hfiltered.eq_of_length hlength.symm
  rw [firstOf, firstOf, ← List.head?_filter, ← List.head?_filter, hsame]

/-- Commands in order count in the same way if the first ones of their versions are the same. -/
theorem fresh_congr {a b : List StampedCommand} (ha : Ordered a) (hb : Ordered b)
    (hfirst : ∀ version, firstOf a version = firstOf b version) (version : Nat) :
    fresh version a = fresh version b := by
  have hmem : ∀ c, c ∈ fresh version a ↔ c ∈ fresh version b := by
    intro c
    rw [mem_fresh ha, mem_fresh hb, hfirst]
  have hasymm : ∀ c d : StampedCommand, c.version < d.version → ¬ d.version < c.version :=
    fun _ _ => Nat.lt_asymm
  exact eq_of_pairwise_of_mem_iff hasymm (pairwise_fresh version a).2
    (pairwise_fresh version b).2 hmem

/-- A load is decided by the commands that arrived first of their versions: commands in order with
the same first ones are replayed to the same end. -/
theorem replay_of_firsts {arrived ordered : List StampedCommand}
    (harrived : ∀ c ∈ arrived, c.command ≠ .complete)
    (hcommands : ∀ c ∈ ordered, c.command ≠ .complete) (hordered : Ordered ordered)
    (hfirst : ∀ version, firstOf ordered version = firstOf arrived version) (store : Store)
    (v count : Nat) :
    replay Series.consumer (replayOrder arrived) count (.stored store v) =
      replay Series.consumer (ordered.map relax) count (.stored store v) := by
  have hrelaxed : ∀ commands : List StampedCommand, (∀ c ∈ commands, c.command ≠ .complete) →
      ∀ c ∈ commands.map relax, c.command ≠ .complete := by
    intro commands hplain c hc
    obtain ⟨d, hd, rfl⟩ := List.mem_map.mp hc
    exact (isPlain_relax (hplain d hd)).1
  have hsorted : ∀ c ∈ sorted arrived, c.command ≠ .complete :=
    fun c hc => harrived c ((sorted_perm arrived).subset hc)
  have hfirsts : ∀ version, firstOf (sorted arrived) version = firstOf ordered version :=
    fun version => (firstOf_sorted arrived version).trans (hfirst version).symm
  rw [replayOrder_eq, replay_fresh (hrelaxed _ hsorted), replay_fresh (hrelaxed _ hcommands),
    fresh_map_relax, fresh_map_relax,
    fresh_congr (ordered_sorted arrived) hordered hfirsts]

end LoadQueue

end LiveSeries
