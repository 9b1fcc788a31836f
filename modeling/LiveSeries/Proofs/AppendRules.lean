import LiveSeries.Proofs.SortedMap

/-!
# What an append comes to

Increasing entries are appended under a rule, which says what becomes of them where they do not lie
beyond all that is stored. What a rule says is told on lists: which entries it allows, which of the
stored ones it keeps, and which of the new ones it puts in. An append that its rule allows leaves
the entries that are kept, followed by those that are put in, and answers how many were put in; any
other append changes nothing (`Series.append_as_ruled`). The version moves exactly if something was
put in or gave way.
-/

namespace LiveSeries

/-- The key lies beyond the last key of the entries, if there is one. -/
def Beyond (stored : List Entry) (k : Key) : Prop := ∀ last ∈ stored.getLast?, last.1 < k

instance (stored : List Entry) (k : Key) : Decidable (Beyond stored k) :=
  inferInstanceAs (Decidable (∀ last ∈ stored.getLast?, last.1 < k))

/-- Beyond the last of increasing entries is above all of them. -/
theorem Increasing.beyond_iff {stored : List Entry} (h : Increasing stored) (d : Entry) :
    Beyond stored d.1 ↔ Above stored d := by
  have hreaches := Store.reaches_eq_false_iff ⟨stored, h⟩ (k := d.1)
  refine Iff.trans ?_ hreaches
  rw [Beyond, Store.reaches, Store.last?]
  cases stored.getLast? with
  | none => simp
  | some last => simp [Key.not_le]

namespace OverlapRule

/-! ## What the rules say -/

/-- The rule lets the entries be appended to the stored ones. -/
def Allows (stored entries : List Entry) : OverlapRule → Prop
  | .reject => ∀ first ∈ entries.head?, Beyond stored first.1
  | .acceptEqual =>
    ∀ d ∈ entries, ¬ Beyond stored d.1 → ∃ e ∈ stored, e.1 = d.1 ∧ e.2.equals d.2 = true
  | .dropOld => True

instance (stored entries : List Entry) (rule : OverlapRule) :
    Decidable (rule.Allows stored entries) :=
  match rule with
  | .reject => inferInstanceAs (Decidable (∀ first ∈ entries.head?, Beyond stored first.1))
  | .acceptEqual => inferInstanceAs (Decidable (∀ d ∈ entries, ¬ Beyond stored d.1 →
      ∃ e ∈ stored, e.1 = d.1 ∧ e.2.equals d.2 = true))
  | .dropOld => .isTrue trivial

/-- The stored entries that stay. -/
def kept (stored entries : List Entry) : OverlapRule → List Entry
  | .reject | .acceptEqual => stored
  | .dropOld => stored.filter fun e => ∀ first ∈ entries.head?, e.1 < first.1

/-- The new entries that are put in. -/
def inserted (stored entries : List Entry) : OverlapRule → List Entry
  | .reject | .dropOld => entries
  | .acceptEqual => entries.filter fun d => Beyond stored d.1

/-- An entry is put in or gives way. -/
def Moves (stored entries : List Entry) (rule : OverlapRule) : Prop :=
  rule.inserted stored entries ≠ [] ∨ rule.kept stored entries ≠ stored

/-- What the rule leaves of the stored entries, and of the new ones behind them. -/
def joined (stored entries : List Entry) (rule : OverlapRule) : List Entry :=
  rule.kept stored entries ++ rule.inserted stored entries

variable {stored entries : List Entry} {rule : OverlapRule}

theorem kept_sublist (stored entries : List Entry) (rule : OverlapRule) :
    (rule.kept stored entries).Sublist stored := by
  cases rule with
  | reject | acceptEqual => exact List.Sublist.refl _
  | dropOld => exact List.filter_sublist

/-- As many entries are moved as are put in and give way together. -/
theorem moves_iff : rule.Moves stored entries ↔
    0 < (rule.inserted stored entries).length +
      (stored.length - (rule.kept stored entries).length) := by
  have hkept : rule.kept stored entries ≠ stored ↔
      (rule.kept stored entries).length < stored.length := by
    have hsublist := kept_sublist stored entries rule
    constructor
    · intro hne
      refine Nat.lt_of_le_of_ne hsublist.length_le fun hlength => hne (hsublist.eq_of_length hlength)
    · intro hlt heq
      rw [heq] at hlt
      exact Nat.lt_irrefl _ hlt
  rw [Moves, hkept, ne_eq, ← List.length_eq_zero_iff]
  omega

theorem joined_of_not_moves (h : ¬ rule.Moves stored entries) :
    rule.inserted stored entries = [] ∧ rule.joined stored entries = stored := by
  obtain ⟨hinserted, hkept⟩ := not_or.mp h
  have hnone : rule.inserted stored entries = [] := Decidable.not_not.mp hinserted
  refine ⟨hnone, ?_⟩
  rw [joined, hnone, List.append_nil]
  exact Decidable.not_not.mp hkept

end OverlapRule

namespace Edit

open OverlapRule

/-! ## Appends to a map -/

variable {m entries : List Entry} {rule : OverlapRule}

theorem any_lookup_equals_iff (hm : Increasing m) (d : Entry) :
    ((m.lookup d.1).any fun v => v.equals d.2) = true ↔
      ∃ e ∈ m, e.1 = d.1 ∧ e.2.equals d.2 = true := by
  rw [Option.any_eq_true]
  constructor
  · rintro ⟨v, hv, hequals⟩
    exact ⟨(d.1, v), (lookup_eq_some_iff_mem hm).mp hv, rfl, hequals⟩
  · rintro ⟨e, he, hkey, hequals⟩
    exact ⟨e.2, (lookup_eq_some_iff_mem hm).mpr (hkey ▸ he), hequals⟩

/-- Increasing entries lie above a map if their first does. -/
theorem allows_reject_iff (hm : Increasing m) (hinc : Increasing entries) :
    OverlapRule.reject.Allows m entries ↔ ∀ d ∈ entries, Above m d := by
  cases entries with
  | nil => simp [Allows]
  | cons first rest =>
      have hfirst : OverlapRule.reject.Allows m (first :: rest) ↔ Above m first := by
        rw [← hm.beyond_iff first]
        simp [Allows]
      rw [hfirst]
      constructor
      · exact fun habove d hd e he => (hinc.forall_lt_iff e.1).mpr (habove e he) d hd
      · exact fun h => h first List.mem_cons_self

theorem allows_acceptEqual_iff (hm : Increasing m) :
    OverlapRule.acceptEqual.Allows m entries ↔
      ∀ d ∈ entries, Above m d ∨ ((m.lookup d.1).any fun v => v.equals d.2) = true := by
  refine forall₂_congr fun d _ => ?_
  rw [any_lookup_equals_iff hm d, hm.beyond_iff d]
  exact Decidable.or_iff_not_imp_left.symm

theorem appendOnMap_of_not_allows (hm : Increasing m) (hinc : Increasing entries)
    (h : ¬ rule.Allows m entries) : appendOnMap m entries rule = .error .overlap := by
  cases rule with
  | reject => exact if_neg fun habove => h ((allows_reject_iff hm hinc).mpr habove)
  | acceptEqual => exact if_neg fun hrepeats => h ((allows_acceptEqual_iff hm).mpr hrepeats)
  | dropOld => exact absurd trivial h

theorem appendOnMap_of_allows (hm : Increasing m) (hinc : Increasing entries)
    (h : rule.Allows m entries) :
    appendOnMap m entries rule =
      .ok ((rule.inserted m entries).length,
        ifMoved ((rule.inserted m entries).length + (m.length - (rule.kept m entries).length))
          (rule.joined m entries)) := by
  cases rule with
  | reject =>
      rw [appendOnMap, if_pos ((allows_reject_iff hm hinc).mp h), kept, Nat.sub_self]
      rfl
  | acceptEqual =>
      have hfresh : (entries.filter fun d => Above m d) =
          OverlapRule.acceptEqual.inserted m entries :=
        List.filter_congr fun d _ => decide_eq_decide.mpr (hm.beyond_iff d).symm
      rw [appendOnMap, if_pos ((allows_acceptEqual_iff hm).mp h), hfresh, kept, Nat.sub_self]
      rfl
  | dropOld =>
      have hkept : (m.filter fun e => ∀ d ∈ entries, e.1 < d.1) =
          OverlapRule.dropOld.kept m entries := by
        refine List.filter_congr fun e _ => decide_eq_decide.mpr ?_
        cases entries with
        | nil => simp
        | cons first rest =>
            rw [hinc.forall_lt_iff e.1]
            simp
      rw [appendOnMap, hkept]
      rfl

/-- An append on a map is refused, or told by what its rule keeps and puts in. -/
theorem onMap_append (hm : Increasing m) (entries : List Entry) (rule : OverlapRule) :
    (¬ Increasing entries → onMap m (.append entries rule) = .error .outOfOrder) ∧
    (Increasing entries → ¬ rule.Allows m entries →
      onMap m (.append entries rule) = .error .overlap) ∧
    (Increasing entries → rule.Allows m entries → ¬ rule.Moves m entries →
      onMap m (.append entries rule) = .ok ((0 : Nat), none)) ∧
    (Increasing entries → rule.Allows m entries → rule.Moves m entries →
      onMap m (.append entries rule) =
        .ok ((rule.inserted m entries).length, some (rule.joined m entries))) := by
  have honMap : Increasing entries →
      onMap m (.append entries rule) = appendOnMap m entries rule := fun hinc => if_pos hinc
  refine ⟨fun hnot => if_neg hnot, ?_, ?_, ?_⟩
  · intro hinc hnot
    rw [honMap hinc]
    exact appendOnMap_of_not_allows hm hinc hnot
  · intro hinc hallows hstill
    rw [honMap hinc, appendOnMap_of_allows hm hinc hallows, ifMoved,
      if_neg fun hmoved => hstill (moves_iff.mpr hmoved), (joined_of_not_moves hstill).1]
    rfl
  · intro hinc hallows hmoves
    rw [honMap hinc, appendOnMap_of_allows hm hinc hallows, ifMoved, if_pos (moves_iff.mp hmoves)]
    rfl

end Edit

namespace Series

variable {s : Series}

/-! ## Calls told by the map -/

section Calls

variable {e : Edit}

theorem Writable.run_of_onMap_refused (h : s.Writable) {r : Refusal}
    (hmap : e.onMap s.store.entries = .error r) :
    e.run s = { result := .error (.refused r), series := s } := by
  rw [← e.change_eq_onMap] at hmap
  cases hchange : e.change s.store with
  | error r' =>
      rw [hchange] at hmap
      cases hmap
      exact h.run_of_refused hchange
  | ok change =>
      rw [hchange] at hmap
      cases hmap

theorem Writable.run_of_onMap_unmoved (h : s.Writable) {a : e.Answer}
    (hmap : e.onMap s.store.entries = .ok (a, none)) :
    e.run s = { result := .ok a, series := s } := by
  rw [← e.change_eq_onMap] at hmap
  rcases hchange : e.change s.store with r | ⟨a', none | store⟩
  · rw [hchange] at hmap
    cases hmap
  · rw [hchange] at hmap
    cases hmap
    exact h.run_of_unchanged hchange
  · rw [hchange] at hmap
    cases hmap

theorem Writable.publishes_onMap (h : s.Writable) {a : e.Answer} {m : List Entry}
    (hmap : e.onMap s.store.entries = .ok (a, some m)) :
    ∃ store, store.entries = m ∧ (e.run s).Publishes a (.published (s.version + 1))
      (s.published store (s.version + 1)) := by
  rw [← e.change_eq_onMap] at hmap
  rcases hchange : e.change s.store with r | ⟨a', none | store⟩
  · rw [hchange] at hmap
    cases hmap
  · rw [hchange] at hmap
    cases hmap
  · rw [hchange] at hmap
    cases hmap
    exact ⟨store, rfl, h.publishes_run hchange⟩

end Calls

/-! ## Appends to a series -/

open OverlapRule

variable {entries : List Entry} {rule : OverlapRule}

/-- What an append does that its rule allows. -/
structure Appends (s : Series) (entries : List Entry) (rule : OverlapRule) : Prop where
  result : (s.append entries rule).result = .ok (rule.inserted s.store.entries entries).length
  stored : (s.append entries rule).settled.store.entries = rule.joined s.store.entries entries
  next : (s.append entries rule).settled.nextVersion = (s.append entries rule).settled.version
  moved : rule.Moves s.store.entries entries →
    (s.append entries rule).settled.version = s.version + 1 ∧
      (s.append entries rule).events = [.published (s.version + 1)] ∧
      (s.append entries rule).notice.isSome = true
  still : ¬ rule.Moves s.store.entries entries →
    s.append entries rule = { result := .ok 0, series := s }

theorem Writable.appends (h : s.Writable) (hinc : Increasing entries)
    (hallows : rule.Allows s.store.entries entries) : s.Appends entries rule := by
  obtain ⟨-, -, hunmoved, hjoined⟩ := Edit.onMap_append s.store.increasing entries rule
  by_cases hmoves : rule.Moves s.store.entries entries
  · obtain ⟨store, hstore, hrun⟩ := h.publishes_onMap (hjoined hinc hallows hmoves)
    have happend : (s.append entries rule).Publishes (rule.inserted s.store.entries entries).length
        (.published (s.version + 1)) (s.published store (s.version + 1)) := hrun
    refine ⟨happend.result, ?_, ?_, fun _ => ⟨?_, happend.events, happend.notice⟩,
      fun hstill => absurd hmoves hstill⟩
    · rw [happend.settled]
      exact hstore
    · rw [happend.settled]
      rfl
    · rw [happend.settled]
      rfl
  · have happend : s.append entries rule = { result := .ok 0, series := s } :=
      h.run_of_onMap_unmoved (e := .append entries rule) (hunmoved hinc hallows hmoves)
    obtain ⟨hnone, hsame⟩ := joined_of_not_moves hmoves
    refine ⟨?_, ?_, ?_, fun hmoved => absurd hmoved hmoves, fun _ => happend⟩
    · rw [happend, hnone]
      rfl
    · rw [happend, hsame]
      rfl
    · rw [happend]
      exact h.next

/-- An append that does not increase is refused, and so is one that its rule does not allow; the
series stays as it is. Any other answers how many entries it put in, and leaves the entries that its
rule keeps, followed by those that it put in, under the next version if there is anything that was
put in or gave way. An append of nothing is allowed by every rule, and answers zero. -/
theorem append_as_ruled (hs : s.AtRest) (hopen : s.isCompleted = false)
    (hbelow : s.version < Gate.lastVersion) (entries : List Entry) (rule : OverlapRule) :
    (¬ Increasing entries →
      s.append entries rule = { result := .error (.refused .outOfOrder), series := s }) ∧
    (entries = [] → s.append entries rule = { result := .ok 0, series := s }) ∧
    (Increasing entries → ¬ rule.Allows s.store.entries entries →
      s.append entries rule = { result := .error (.refused .overlap), series := s }) ∧
    (Increasing entries → rule.Allows s.store.entries entries → s.Appends entries rule) := by
  have h : s.Writable := ⟨hs, hopen, hbelow⟩
  obtain ⟨hdisorder, hoverlap, -, -⟩ := Edit.onMap_append s.store.increasing entries rule
  refine ⟨fun hnot => ?_, ?_, fun hinc hnot => ?_, fun hinc hallows => h.appends hinc hallows⟩
  · exact h.run_of_onMap_refused (hdisorder hnot)
  · rintro rfl
    have hchange : Edit.change s.store (.append [] rule) = .ok ((0 : Nat), none) := rfl
    exact h.run_of_unchanged hchange
  · exact h.run_of_onMap_refused (hoverlap hinc hnot)

/-- Three entries with room between them. -/
def spaced : Series := ofList [(.int 1, .int 10), (.int 3, .int 30), (.int 5, .int 50)]

/-- An append that repeats one entry adds the other, and one that falls into a gap is refused unless
it may drop what follows. -/
theorem append_as_ruled_spaced :
    spaced.AtRest ∧ spaced.isCompleted = false ∧ spaced.version < Gate.lastVersion ∧
      spaced.Appends [(.int 5, .int 50), (.int 7, .int 70)] .acceptEqual ∧
      (spaced.append [(.int 4, .int 40), (.int 7, .int 70)] .acceptEqual).result =
        .error (.refused .overlap) ∧
      (spaced.append [(.int 4, .int 40), (.int 7, .int 70)] .dropOld).settled.store.entries =
        [(.int 1, .int 10), (.int 3, .int 30), (.int 4, .int 40), (.int 7, .int 70)] := by
  have hrest : spaced.AtRest := ⟨rfl, rfl, by decide⟩
  have hruled := append_as_ruled hrest rfl (by decide)
  obtain ⟨-, -, -, hrepeats⟩ := hruled [(.int 5, .int 50), (.int 7, .int 70)] .acceptEqual
  obtain ⟨-, -, hrefused, -⟩ := hruled [(.int 4, .int 40), (.int 7, .int 70)] .acceptEqual
  obtain ⟨-, -, -, hdrops⟩ := hruled [(.int 4, .int 40), (.int 7, .int 70)] .dropOld
  refine ⟨hrest, rfl, by decide, hrepeats (by decide) (by decide), ?_, ?_⟩
  · rw [hrefused (by decide) (by decide)]
  · exact (hdrops (by decide) (by decide)).stored

end Series

end LiveSeries
