import LiveSeries.Proofs.EntryList
import LiveSeries.Proofs.StoreEntries
import LiveSeries.Proofs.StoredSeries

/-!
# What commands do at one key

A command makes of the value at a key what it says, whatever is stored elsewhere
(`Command.get?_act`): it overwrites the value, or it is an append that fills the key if it is
free, or it lets the value be. A run of commands therefore makes two stores agree at a key if it
overwrites the key at some time, or else if they agree once the first append that names the key
has filled it (`foldl_valueAt_eq_iff`).
-/

namespace LiveSeries

namespace Command

/-- What a command makes of the value at a key. -/
def valueAt (k : Key) (there : Option Value) : Command → Option Value
  | .set x v => if x = k then some v else there
  | .append entries _ => there.or (entries.lookup k)
  | .remove x lookup => if lookup.Admits x k then none else there
  | .complete => there

/-- The command decides the value at a key, whatever it was. -/
def Overwrites (k : Key) : Command → Prop
  | .set x _ => x = k
  | .remove x lookup => lookup.Admits x k
  | .append _ _ | .complete => False

/-- The value that a command appends at a key. -/
def appendedAt (k : Key) : Command → Option Value
  | .append entries _ => entries.lookup k
  | .set _ _ | .remove _ _ | .complete => none

theorem valueAt_of_overwrites {c : Command} {k : Key} (h : c.Overwrites k)
    (a b : Option Value) : c.valueAt k a = c.valueAt k b := by
  cases c with
  | set x v =>
      have hx : x = k := h
      rw [valueAt, valueAt, if_pos hx, if_pos hx]
  | remove x lookup =>
      have hadmits : lookup.Admits x k := h
      rw [valueAt, valueAt, if_pos hadmits, if_pos hadmits]
  | append entries option => exact h.elim
  | complete => exact h.elim

theorem valueAt_of_not_overwrites {c : Command} {k : Key} (h : ¬ c.Overwrites k)
    (there : Option Value) : c.valueAt k there = there.or (c.appendedAt k) := by
  cases c with
  | set x v =>
      have hx : ¬ x = k := h
      rw [valueAt, if_neg hx, appendedAt, Option.or_none]
  | remove x lookup =>
      have hadmits : ¬ lookup.Admits x k := h
      rw [valueAt, if_neg hadmits, appendedAt, Option.or_none]
  | append entries option => rfl
  | complete => rw [valueAt, appendedAt, Option.or_none]

end Command

/-- An append fills the free ones of its keys. -/
theorem Store.get?_append {s : Store} {entries : List Entry} (hinc : Increasing entries)
    {change : Change Nat} (h : s.append entries .acceptEqual = .ok change) (k : Key) :
    (change.2.getD s).get? k = (s.get? k).or (entries.lookup k) := by
  have hrepeats := repeats_of_append_acceptEqual h
  obtain ⟨change', h', hentries⟩ := append_acceptEqual_of_repeats hinc hrepeats
  have hchange : change' = change := Except.ok.inj (h'.symm.trans h)
  rw [hchange] at hentries
  -- a key that is taken keeps its value; a free key is filled by what lies beyond the store
  cases hs : s.get? k with
  | some v =>
      rw [Option.some_or, get?_eq_some_iff, hentries]
      exact List.mem_append_left _ (s.get?_eq_some_iff.mp hs)
  | none =>
      have hfree : ∀ w, (k, w) ∉ s.entries := by
        intro w hw
        rw [s.get?_eq_some_iff.mpr hw] at hs
        cases hs
      refine Option.ext fun w => ?_
      rw [Option.none_or, get?_eq_some_iff, hentries, lookup_eq_some_iff_mem hinc, List.mem_append]
      constructor
      · rintro (hw | hw)
        · exact absurd hw (hfree w)
        · exact (List.dropWhile_sublist _).subset hw
      · intro hw
        rw [← s.reached_append_beyond entries] at hw
        rcases List.mem_append.mp hw with hw | hw
        · -- a reached entry repeats a stored one, but the key is free
          have hrepeat := List.all_eq_true.mp hrepeats (k, w) hw
          rw [repeats, hs] at hrepeat
          cases hrepeat
        · exact .inr hw

/-- A plain command does at every key what it says. -/
theorem Command.get?_act {c : Command} (hc : c.IsPlain) {s s' : Store} (h : c.act s = .ok s')
    (k : Key) : s'.get? k = c.valueAt k (s.get? k) := by
  have happend : ∀ {entries : List Entry} {option : OverlapRule}, option ≠ .dropOld →
      (Command.append entries option).act s = .ok s' →
        s'.get? k = (s.get? k).or (entries.lookup k) := by
    intro entries option hoption hact
    rw [act] at hact
    split at hact
    · next hincreases =>
        have hinc : Increasing entries := increases_iff.mp hincreases
        cases hchange : s.append entries option with
        | error e =>
            rw [hchange] at hact
            cases hact
        | ok change =>
            rw [hchange] at hact
            cases hact
            cases option with
            | reject => exact Store.get?_append hinc (Store.append_acceptEqual hchange) k
            | dropOld => exact absurd rfl hoption
            | acceptEqual => exact Store.get?_append hinc hchange k
    · cases hact
  cases c with
  | set x v =>
      cases h
      exact s.get?_insert x k v
  | append entries option =>
      have hoption : option ≠ .dropOld := by
        rintro rfl
        exact hc.2 entries rfl
      exact happend hoption h
  | remove x lookup =>
      cases h
      exact s.get?_removeMany x k lookup
  | complete => exact absurd rfl hc.1

/-! ## Runs of commands -/

/-- The value at a key in the first append that has one. -/
def firstAppended (k : Key) (commands : List StampedCommand) : Option Value :=
  commands.findSome? fun c => c.command.appendedAt k

/-- Two values at a key become one if the key is overwritten, or if they are one as soon as the
first append that names the key has filled it. -/
theorem foldl_valueAt_eq_iff (k : Key) (commands : List StampedCommand) (a b : Option Value) :
    commands.foldl (fun there c => c.command.valueAt k there) a =
        commands.foldl (fun there c => c.command.valueAt k there) b ↔
      (∃ c ∈ commands, c.command.Overwrites k) ∨
        a.or (firstAppended k commands) = b.or (firstAppended k commands) := by
  induction commands generalizing a b with
  | nil => simp [firstAppended]
  | cons c rest ih =>
      rw [List.foldl_cons, List.foldl_cons]
      by_cases hc : c.command.Overwrites k
      · -- after an overwrite the two values are one, and stay one
        rw [Command.valueAt_of_overwrites hc a b]
        exact ⟨fun _ => .inl ⟨c, List.mem_cons_self, hc⟩, fun _ => rfl⟩
      · have hfirst : firstAppended k (c :: rest) =
            (c.command.appendedAt k).or (firstAppended k rest) := by
          rw [firstAppended, List.findSome?_cons]
          cases c.command.appendedAt k <;> rfl
        rw [Command.valueAt_of_not_overwrites hc, Command.valueAt_of_not_overwrites hc, ih,
          Option.or_assoc, Option.or_assoc, ← hfirst]
        constructor
        · rintro (⟨d, hd, hoverwrites⟩ | heq)
          · exact .inl ⟨d, List.mem_cons_of_mem _ hd, hoverwrites⟩
          · exact .inr heq
        · rintro (⟨d, hd, hoverwrites⟩ | heq)
          · rcases List.mem_cons.mp hd with rfl | hd
            · exact absurd hoverwrites hc
            · exact .inl ⟨d, hd, hoverwrites⟩
          · exact .inr heq

/-- What a series that took commands holds at a key. -/
theorem Series.get?_feed {commands : List StampedCommand}
    (hplain : ∀ c ∈ commands, c.command.IsPlain) {store : Store} {v : Nat}
    (hdue : ∀ c ∈ commands, v < c.version)
    (hordered : commands.Pairwise fun c d => c.version < d.version)
    (htakes : consumer.Takes commands (stored store v)) (k : Key) :
    (consumer.feed commands (stored store v)).2.store.get? k =
      commands.foldl (fun there c => c.command.valueAt k there) (store.get? k) := by
  induction commands generalizing store v with
  | nil => rfl
  | cons c rest ih =>
      have hc := hplain c List.mem_cons_self
      obtain ⟨habove, hrest⟩ := List.pairwise_cons.mp hordered
      obtain ⟨o, s, hstep, htail⟩ := Consumer.takes_cons.mp htakes
      obtain ⟨store', hact, rfl⟩ := exists_act_of_taken hc.1 (hdue c List.mem_cons_self) hstep
      have hplain' : ∀ d ∈ rest, d.command.IsPlain :=
        fun d hd => hplain d (List.mem_cons_of_mem _ hd)
      rw [Consumer.feed_cons hstep, List.foldl_cons, ← Command.get?_act hc hact]
      exact ih hplain' habove hrest htail

/-! ## Relaxed commands -/

namespace LoadQueue

/-- A relaxed command does the same at every key. -/
theorem valueAt_relax (c : StampedCommand) (k : Key) (there : Option Value) :
    (relax c).command.valueAt k there = c.command.valueAt k there := by
  obtain ⟨series, version, command⟩ := c
  cases command <;> rfl

/-- What relaxed commands leave at a key. -/
theorem get?_feed_relax {commands : List StampedCommand}
    (hplain : ∀ c ∈ commands, c.command ≠ .complete) {store : Store} {v : Nat}
    (hdue : ∀ c ∈ commands, v < c.version)
    (hordered : commands.Pairwise fun c d => c.version < d.version)
    (htakes : Series.consumer.Takes (commands.map relax) (.stored store v)) (k : Key) :
    (Series.consumer.feed (commands.map relax) (.stored store v)).2.store.get? k =
      commands.foldl (fun there c => c.command.valueAt k there) (store.get? k) := by
  have hplain' : ∀ c ∈ commands.map relax, c.command.IsPlain := by
    intro c hc
    obtain ⟨d, hd, rfl⟩ := List.mem_map.mp hc
    exact isPlain_relax (hplain d hd)
  have hdue' : ∀ c ∈ commands.map relax, v < c.version := by
    intro c hc
    obtain ⟨d, hd, rfl⟩ := List.mem_map.mp hc
    rw [version_relax]
    exact hdue d hd
  have hordered' : (commands.map relax).Pairwise fun c d => c.version < d.version := by
    refine List.pairwise_map.mpr (hordered.imp ?_)
    intro c d hlt
    rw [version_relax, version_relax]
    exact hlt
  rw [Series.get?_feed hplain' hdue' hordered' htakes, List.foldl_map]
  simp only [valueAt_relax]

end LoadQueue

end LiveSeries
