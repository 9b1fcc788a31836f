import LiveSeries.Proofs.FailedMutations
import LiveSeries.Proofs.SortedMap
import LiveSeries.Proofs.StoredSeries

/-!
# Appends that drop, behind a load queue

An append may ask that stored entries give way to it. A load queue relaxes that like every other
append: it keeps all that is stored, and the append has to repeat what it overlaps. So to keep such
an append until the load is finished is not the same as to apply it at once
(`Series.relaxed_drop_agrees_iff`). Applied at once, it never fails, and the stored entries at its
first key and above give way (`Store.dropped`). Behind the queue it fails if it contradicts what is
stored, and otherwise it only adds.

The two come to the same where the entries that would give way are what the append begins with.
-/

namespace LiveSeries

namespace Store

variable {s : Store} {entries : List Entry}

/-- The stored entries below all that is appended. -/
def kept (s : Store) (entries : List Entry) : List Entry :=
  s.entries.filter fun e => ∀ d ∈ entries, e.1 < d.1

/-- The stored entries that are not below all that is appended. -/
def dropped (s : Store) (entries : List Entry) : List Entry :=
  s.entries.filter fun e => ¬ ∀ d ∈ entries, e.1 < d.1

/-- Every entry of an append lies above all that is stored, or repeats what is stored at its key. -/
def Tolerates (s : Store) (entries : List Entry) : Prop :=
  ∀ d ∈ entries,
    Above s.entries d ∨ ((s.entries.lookup d.1).any fun v => v.equals d.2) = true

/-! ## What becomes of the stored entries -/

theorem getD_ifMoved {count : Nat} {m l : List Entry} (h : count = 0 → l = m) :
    (ifMoved count l).getD m = l := by
  by_cases hmoved : 0 < count
  · rw [ifMoved, if_pos hmoved]
    rfl
  · rw [ifMoved, if_neg hmoved, h (by omega)]
    rfl

/-- The command of an append does to the entries what the append does on the map of them. -/
theorem act_append (hinc : Increasing entries) (option : OverlapRule) :
    ((Command.append entries option).act s).map Store.entries =
      (Edit.appendOnMap s.entries entries option).map fun change =>
        change.2.getD s.entries := by
  rw [Command.act, if_pos (increases_iff.mpr hinc), ← s.append_eq_onMap hinc option]
  rcases s.append entries option with r | ⟨n, none | store⟩ <;> rfl

theorem exists_of_map_entries {act : Except Refusal Store} {l : List Entry}
    (h : act.map Store.entries = .ok l) : ∃ store, act = .ok store ∧ store.entries = l := by
  cases act with
  | error r => cases h
  | ok store => exact ⟨store, rfl, Except.ok.inj h⟩

/-- An append that drops is never refused. -/
theorem act_dropOld (hinc : Increasing entries) :
    ∃ store, (Command.append entries .dropOld).act s = .ok store ∧
      store.entries = s.kept entries ++ entries := by
  refine exists_of_map_entries ((act_append hinc .dropOld).trans ?_)
  refine congrArg Except.ok (getD_ifMoved fun hnone => ?_)
  -- nothing was put in, and nothing taken away
  have hnil : entries = [] := List.eq_nil_of_length_eq_zero (by omega)
  subst hnil
  simp

theorem act_acceptEqual (hinc : Increasing entries) (h : s.Tolerates entries) :
    ∃ store, (Command.append entries .acceptEqual).act s = .ok store ∧
      store.entries = s.entries ++ entries.filter fun d => Above s.entries d := by
  refine exists_of_map_entries ((act_append hinc .acceptEqual).trans ?_)
  rw [Tolerates] at h
  rw [Edit.appendOnMap, if_pos h]
  refine congrArg Except.ok (getD_ifMoved fun hnone => ?_)
  rw [List.eq_nil_of_length_eq_zero hnone, List.append_nil]

theorem act_acceptEqual_of_not (hinc : Increasing entries) (h : ¬ s.Tolerates entries) :
    (Command.append entries .acceptEqual).act s = .error .overlap := by
  have hmap := act_append (s := s) hinc .acceptEqual
  rw [Tolerates] at h
  rw [Edit.appendOnMap, if_neg h] at hmap
  cases hact : (Command.append entries .acceptEqual).act s with
  | error r =>
      rw [hact] at hmap
      cases hmap
      rfl
  | ok store =>
      rw [hact] at hmap
      cases hmap

/-! ## Where the two agree -/

theorem kept_append_dropped (s : Store) (entries : List Entry) :
    s.kept entries ++ s.dropped entries = s.entries := by
  have hinc : Increasing (s.kept entries ++ s.dropped entries) := by
    refine List.pairwise_append.mpr ⟨s.increasing.filter _, s.increasing.filter _, ?_⟩
    intro x hx y hy
    have hbelow : ∀ d ∈ entries, x.1 < d.1 := of_decide_eq_true (List.mem_filter.mp hx).2
    have hreaches : ¬ ∀ d ∈ entries, y.1 < d.1 := of_decide_eq_true (List.mem_filter.mp hy).2
    obtain ⟨d, hd⟩ := Classical.not_forall.mp hreaches
    obtain ⟨hd, hle⟩ := Classical.not_imp.mp hd
    exact Key.lt_of_lt_of_le (hbelow d hd) (Key.not_lt.mp hle)
  refine hinc.eq_of_mem_iff s.increasing fun e => ?_
  rw [List.mem_append, kept, dropped, List.mem_filter, List.mem_filter, decide_eq_true_eq,
    decide_eq_true_eq, ← and_or_left]
  exact and_iff_left (Classical.em _)

/-- What an append begins with is what it reaches, if it begins with the entries that would give way
to it. -/
theorem reached_eq_dropped (hinc : Increasing entries) (h : s.dropped entries <+: entries) :
    s.reached entries = s.dropped entries := by
  obtain ⟨new, hnew⟩ := h
  have hdropped : ∀ e ∈ s.dropped entries, s.reaches e.1 = true :=
    fun e he => reaches_of_mem (List.mem_filter.mp he).1
  have habove : ∀ d ∈ new, ∀ x ∈ s.entries, x.1 < d.1 := by
    intro d hd x hx
    rw [← s.kept_append_dropped entries] at hx
    rcases List.mem_append.mp hx with hx | hx
    · have hbelow : ∀ d ∈ entries, x.1 < d.1 := of_decide_eq_true (List.mem_filter.mp hx).2
      exact hbelow d (hnew ▸ List.mem_append_right _ hd)
    · rw [← hnew] at hinc
      exact (List.pairwise_append.mp hinc).2.2 x hx d hd
  calc s.reached entries = s.reached (s.dropped entries ++ new) := by rw [hnew]
    _ = s.dropped entries := reached_append hdropped habove

/-- To add what is above and to replace what is not come to the same, if what would be replaced is
what the append begins with, and is equal to itself. -/
theorem adds_eq_replaces_iff (hinc : Increasing entries) :
    (s.Tolerates entries ∧
        s.entries ++ entries.filter (fun d => Above s.entries d) = s.kept entries ++ entries) ↔
      s.dropped entries <+: entries ∧ ∀ e ∈ s.dropped entries, e.2.equals e.2 = true := by
  have hsplit := s.kept_append_dropped entries
  have hreach := s.reached_append_beyond entries
  rw [Tolerates, ← s.all_repeats_iff hinc, ← s.beyond_eq_filter hinc]
  constructor
  · rintro ⟨hrepeats, heq⟩
    have hsame : s.dropped entries = s.reached entries := by
      have hcancel : s.kept entries ++ (s.dropped entries ++ s.beyond entries) =
          s.kept entries ++ (s.reached entries ++ s.beyond entries) := by
        rw [← List.append_assoc, hsplit, heq, hreach]
      exact List.append_cancel_right (List.append_cancel_left hcancel)
    rw [← hsame, List.all_eq_true] at hrepeats
    refine ⟨⟨s.beyond entries, hsame ▸ hreach⟩, fun e he => ?_⟩
    rw [← repeats_of_mem (List.mem_filter.mp he).1]
    exact hrepeats e he
  · rintro ⟨hbegins, hself⟩
    have hsame := reached_eq_dropped hinc hbegins
    rw [hsame] at hreach ⊢
    constructor
    · refine List.all_eq_true.mpr fun e he => ?_
      rw [repeats_of_mem (List.mem_filter.mp he).1]
      exact hself e he
    · calc s.entries ++ s.beyond entries
          = s.kept entries ++ s.dropped entries ++ s.beyond entries := by rw [hsplit]
        _ = s.kept entries ++ entries := by rw [List.append_assoc, hreach]

end Store

namespace LoadQueue

/-! ## Loads of one command -/

section Single

variable {σ : Type} {inner : Consumer σ} {c : StampedCommand} {s s' : σ}

theorem load_single (inner : Consumer σ) (c : StampedCommand) (s : σ) :
    load inner c.series [c] s =
      ((replay inner [relax c] 0 s).1, ⟨c.series, none⟩, (replay inner [relax c] 0 s).2) := by
  have hid : ∀ d ∈ [c], d.series = c.series := by simp
  have horder : replayOrder [c] = [relax c] := by simp [replayOrder]
  rw [load_eq inner hid, horder]

theorem command_relax {entries : List Entry} {option : OverlapRule}
    (hc : c.command = .append entries option) :
    (relax c).command = .append entries .acceptEqual := by
  rw [relax, hc]

theorem load_single_of_ok {o : Outcome} (h : inner (relax c) s = (.ok o, s')) :
    load inner c.series [c] s = (.ok (if o.tookEffect then 1 else 0), ⟨c.series, none⟩, s') := by
  rw [load_single, replay_cons_of_ok h, Nat.zero_add]
  rfl

theorem load_single_of_error {e : Failure} (h : inner (relax c) s = (.error e, s')) :
    load inner c.series [c] s = (.error e, ⟨c.series, none⟩, s') := by
  rw [load_single, replay, h]

end Single

/-- To keep the command until the load is finished comes to the same as to apply it at once: it
takes effect, and the series has the same entries and the same version. -/
structure LoadsAsApplied (c : StampedCommand) (s : Series) : Prop where
  answer : (load Series.consumer c.series [c] s).1 = .ok 1
  entries : (load Series.consumer c.series [c] s).2.2.store.entries =
    (Series.consumer c s).2.store.entries
  version : (load Series.consumer c.series [c] s).2.2.version = (Series.consumer c s).2.version

end LoadQueue

namespace Series

open LoadQueue

section Appends

variable {s : Series} {c : StampedCommand} {entries : List Entry}

theorem Writable.applies_drop (h : s.Writable) (hc : c.command = .append entries .dropOld)
    (hinc : Increasing entries) (hdue : s.version < c.version) :
    ∃ store, store.entries = s.store.kept entries ++ entries ∧
      consumer c s = (.ok (.applied c.version), s.published store c.version) := by
  obtain ⟨store, hact, hstore⟩ := Store.act_dropOld (s := s.store) hinc
  exact ⟨store, hstore, h.consumer_of_act hdue (hc ▸ nofun) (hc ▸ hact)⟩

variable {option : OverlapRule}

/-- Behind a load queue, an append that repeats what it overlaps adds the rest of its entries. -/
theorem Writable.loads_append (h : s.Writable) (hc : c.command = .append entries option)
    (hinc : Increasing entries) (hdue : s.version < c.version)
    (htolerates : s.store.Tolerates entries) :
    ∃ store, store.entries =
        s.store.entries ++ entries.filter (fun d => Above s.store.entries d) ∧
      load consumer c.series [c] s = (.ok 1, ⟨c.series, none⟩, s.published store c.version) := by
  have hcommand := command_relax hc
  have hdue' : s.version < (relax c).version := by rwa [version_relax]
  obtain ⟨store, hact, hstore⟩ := Store.act_acceptEqual hinc htolerates
  have happlied := h.consumer_of_act hdue' (hcommand ▸ nofun) (hcommand ▸ hact)
  rw [version_relax] at happlied
  exact ⟨store, hstore, load_single_of_ok happlied⟩

/-- Behind a load queue, an append that contradicts what it overlaps makes the load fail. -/
theorem Writable.load_refuses (h : s.Writable) (hc : c.command = .append entries option)
    (hinc : Increasing entries) (hdue : s.version < c.version)
    (hcontradicts : ¬ s.store.Tolerates entries) :
    load consumer c.series [c] s = (.error (.refused .overlap), ⟨c.series, none⟩, s) := by
  have hcommand := command_relax hc
  have hdue' : s.version < (relax c).version := by rwa [version_relax]
  have hact := Store.act_acceptEqual_of_not hinc hcontradicts
  exact load_single_of_error (h.consumer_of_refused hdue' (hcommand ▸ hact))

end Appends

/-- An append that drops stored entries replaces those at its first key and above, if it is applied
at once. Behind a load queue it replaces nothing: it adds what lies above the stored entries if it
repeats the rest, and else the load fails and leaves the series as it is. The two come to the same
exactly if the entries that would be replaced are what the append begins with, and are equal to
themselves. -/
theorem relaxed_drop_agrees_iff {s : Series} (hs : s.AtRest) (hopen : s.isCompleted = false)
    {c : StampedCommand} {entries : List Entry} (hc : c.command = .append entries .dropOld)
    (hinc : Increasing entries) (hdue : s.version < c.version)
    (hlast : c.version ≤ Gate.lastVersion) :
    (∃ store, store.entries = s.store.kept entries ++ entries ∧
      consumer c s = (.ok (.applied c.version), s.published store c.version)) ∧
    (s.store.Tolerates entries →
      ∃ store, store.entries =
          s.store.entries ++ entries.filter (fun d => Above s.store.entries d) ∧
        load consumer c.series [c] s = (.ok 1, ⟨c.series, none⟩, s.published store c.version)) ∧
    (¬ s.store.Tolerates entries →
      load consumer c.series [c] s = (.error (.refused .overlap), ⟨c.series, none⟩, s)) ∧
    (LoadsAsApplied c s ↔
      s.store.dropped entries <+: entries ∧
        ∀ e ∈ s.store.dropped entries, e.2.equals e.2 = true) := by
  have hwritable : s.Writable := ⟨hs, hopen, Nat.lt_of_lt_of_le hdue hlast⟩
  have hadds := hwritable.loads_append hc hinc hdue
  have hrefuses := hwritable.load_refuses hc hinc hdue
  obtain ⟨replaced, hreplaced, hdirect⟩ := hwritable.applies_drop hc hinc hdue
  refine ⟨⟨replaced, hreplaced, hdirect⟩, hadds, hrefuses, ?_⟩
  rw [← Store.adds_eq_replaces_iff hinc]
  constructor
  · rintro ⟨hanswer, hentries, -⟩
    have htolerates : s.store.Tolerates entries := by
      by_contra hcontradicts
      rw [hrefuses hcontradicts] at hanswer
      cases hanswer
    obtain ⟨store, hstore, hload⟩ := hadds htolerates
    rw [hload, hdirect] at hentries
    exact ⟨htolerates, hstore.symm.trans (hentries.trans hreplaced)⟩
  · rintro ⟨htolerates, hsame⟩
    obtain ⟨store, hstore, hload⟩ := hadds htolerates
    refine ⟨?_, ?_, ?_⟩
    · rw [hload]
    · rw [hload, hdirect]
      exact hstore.trans (hsame.trans hreplaced.symm)
    · rw [hload, hdirect]
      rfl

/-- An append that drops the last of the two entries, and puts it in again. -/
def sameAgain : StampedCommand := ⟨7, 4, .append [(.int 2, .int 20), (.int 3, .int 30)] .dropOld⟩

theorem relaxed_drop_agrees_sameAgain : LoadsAsApplied sameAgain twoEntries := by
  have hrest : twoEntries.AtRest := ⟨rfl, rfl, by decide⟩
  have hinc : Increasing [(.int 2, .int 20), (.int 3, .int 30)] := by decide
  have hagrees :=
    relaxed_drop_agrees_iff hrest rfl (c := sameAgain) rfl hinc (by decide) (by decide)
  exact hagrees.2.2.2.mpr (by decide)

/-- An append that drops the last of the two entries, and puts another in its place. -/
def correction : StampedCommand := ⟨7, 1, .append [(.int 2, .int 21)] .dropOld⟩

/-- What replaces an entry if it is applied at once is an error behind a load queue. -/
theorem relaxed_drop_refuses_correction :
    twoEntries.AtRest ∧ twoEntries.isCompleted = false ∧ twoEntries.version < correction.version ∧
      (consumer correction twoEntries).1 = .ok (.applied 1) ∧
      (consumer correction twoEntries).2.store.entries = [(.int 1, .int 10), (.int 2, .int 21)] ∧
      (load consumer 7 [correction] twoEntries).1 = .error (.refused .overlap) ∧
      (load consumer 7 [correction] twoEntries).2.2 = twoEntries ∧
      ¬ LoadsAsApplied correction twoEntries := by
  have hload : load consumer 7 [correction] twoEntries =
      (.error (.refused .overlap), ⟨7, none⟩, twoEntries) :=
    load_single_of_error (c := correction) rfl
  refine ⟨⟨rfl, rfl, by decide⟩, rfl, by decide, rfl, rfl, ?_, ?_, ?_⟩
  · rw [hload]
  · rw [hload]
  · rintro ⟨hanswer, -, -⟩
    have hfails : (load consumer 7 [correction] twoEntries).1 = .ok 1 := hanswer
    rw [hload] at hfails
    cases hfails

end Series

end LiveSeries
