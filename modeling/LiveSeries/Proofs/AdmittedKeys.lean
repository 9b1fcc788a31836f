import LiveSeries.Proofs.SortedMap

/-!
# Finding and removing admitted keys

A lookup admits a key itself, or the keys on one side of it. A store that is asked to find answers
with the admitted entry nearest to the key: on the way from the key to any other admitted entry one
comes past it first (`Lookup.Nearest`). A store that is asked to remove takes away all admitted
entries. Both go by one notion of what is admitted, so a removal takes nothing away just where
nothing is found, and leaves nothing to be found (`Store.finds_and_removes_admitted`).

A removal can be made by a split, after which the entry at the key is in the second part whatever
the lookup says of it. Each lookup then keeps one part, and two of them must move that entry
(`Store.removeBySplit`). What is left is the same in all cases (`Store.removeBySplit_eq`).
-/

namespace LiveSeries

/-! ## The nearest of the admitted entries -/

namespace Key

theorem le_trans {a b c : Key} (hab : a ≤ b) (hbc : b ≤ c) : a ≤ c := by
  rcases le_iff_lt_or_eq.mp hab with h | rfl
  · exact le_of_lt (lt_of_lt_of_le h hbc)
  · exact hbc

/-- One comes past the key `m` on the way from `a` to `b`, in either direction. -/
def Between (a m b : Key) : Prop := a ≤ m ∧ m ≤ b ∨ b ≤ m ∧ m ≤ a

theorem between_iff_of_le {k a b : Key} (ha : a ≤ k) (hb : b ≤ k) :
    k.Between a b ↔ b ≤ a := by
  constructor
  · rintro (⟨hka, -⟩ | ⟨hba, -⟩)
    · exact le_trans hb hka
    · exact hba
  · intro hba
    exact .inr ⟨hba, ha⟩

theorem between_iff_of_ge {k a b : Key} (ha : k ≤ a) (hb : k ≤ b) :
    k.Between a b ↔ a ≤ b := by
  constructor
  · rintro (⟨-, hab⟩ | ⟨-, hak⟩)
    · exact hab
    · exact le_trans hak hb
  · intro hab
    exact .inl ⟨ha, hab⟩

end Key

namespace Lookup

/-- The entry is admitted, and one comes past it on the way from the key to all others that are. -/
structure Nearest (lookup : Lookup) (k : Key) (entries : List Entry) (e : Entry) : Prop where
  mem : e ∈ entries
  admitted : lookup.Admits k e.1
  between : ∀ x ∈ entries, lookup.Admits k x.1 → k.Between e.1 x.1

/-- Of two admitted keys the one on the way to the other does not come second in the direction of
the lookup. -/
theorem between_iff {lookup : Lookup} {k a b : Key} (ha : lookup.Admits k a)
    (hb : lookup.Admits k b) : k.Between a b ↔ ¬ b.Precedes (!lookup.isBackward) a := by
  cases lookup with
  | eq =>
      have ha' : a = k := ha
      have hb' : b = k := hb
      subst ha' hb'
      exact Key.between_iff_of_ge (Key.le_refl b) (Key.le_refl b)
  | lt => exact Key.between_iff_of_le (Key.le_of_lt ha) (Key.le_of_lt hb)
  | le => exact Key.between_iff_of_le ha hb
  | ge => exact Key.between_iff_of_ge ha hb
  | gt => exact Key.between_iff_of_ge (Key.le_of_lt ha) (Key.le_of_lt hb)

end Lookup

namespace Store

variable (s : Store) (k : Key) (lookup : Lookup)

theorem find?_eq_target :
    s.find? k lookup = (Motion.find k lookup).target s.entries none :=
  s.find?_eq_nearest k lookup

theorem find?_eq_some_iff {e : Entry} :
    s.find? k lookup = some e ↔ lookup.Nearest k s.entries e := by
  rw [find?_eq_target, Motion.target_eq_some_iff s.increasing]
  constructor
  · rintro ⟨hmem, hadmitted, hfirst⟩
    exact ⟨hmem, hadmitted, fun x hx hax =>
      (Lookup.between_iff hadmitted hax).mpr (hfirst x hx hax)⟩
  · rintro ⟨hmem, hadmitted, hbetween⟩
    exact ⟨hmem, hadmitted, fun x hx hax =>
      (Lookup.between_iff hadmitted hax).mp (hbetween x hx hax)⟩

theorem find?_eq_none_iff :
    s.find? k lookup = none ↔ ∀ e ∈ s.entries, ¬ lookup.Admits k e.1 := by
  rw [find?_eq_target]
  exact Motion.target_eq_none_iff

/-! ## Removals by a split -/

/-- The entries before a key, and those from it on. -/
def splitOff : Store × Store :=
  (⟨s.entries.filter fun e => e.1 < k, s.increasing.filter _⟩,
    ⟨s.entries.filter fun e => k ≤ e.1, s.increasing.filter _⟩)

/-- What a removal leaves if it is made by a split. The entry at the key has gone to the second part:
from there it is taken away, or brought back to the first. -/
def leftBySplit : Lookup → Store
  | .eq => (s.erase k).2
  | .lt => (s.splitOff k).2
  | .le => ((s.splitOff k).2.erase k).2
  | .ge => (s.splitOff k).1
  | .gt =>
    match ((s.splitOff k).2.erase k).1 with
    | some v => ((s.splitOff k).1.insert k v).2
    | none => (s.splitOff k).1

/-- A removal that is made by a split; with it, how many entries went. -/
def removeBySplit : Nat × Store :=
  (s.size - (s.leftBySplit k lookup).size, s.leftBySplit k lookup)

variable {s k} {x : Key}

/-- A store that keeps the entries at some keys has their values. -/
theorem get?_filter (p : Key → Prop) [DecidablePred p] :
    get? ⟨s.entries.filter fun e => p e.1, s.increasing.filter _⟩ x =
      if p x then s.get? x else none := by
  refine Option.ext fun v => ?_
  rw [get?_eq_some_iff, List.mem_filter, decide_eq_true_eq]
  by_cases hx : p x
  · rw [if_pos hx, get?_eq_some_iff]
    exact and_iff_left hx
  · rw [if_neg hx]
    exact iff_of_false (fun h => hx h.2) nofun

theorem get?_splitOff_fst : (s.splitOff k).1.get? x = if x < k then s.get? x else none :=
  get?_filter (· < k)

theorem get?_splitOff_snd : (s.splitOff k).2.get? x = if k ≤ x then s.get? x else none :=
  get?_filter (k ≤ ·)

theorem get?_erase : (s.erase k).2.get? x = if x = k then none else s.get? x :=
  s.get?_removeMany k x .eq

/-- The entry at the key is brought back to the first part, if there is one. -/
theorem get?_leftBySplit_gt :
    (s.leftBySplit k .gt).get? x = if k = x then s.get? k else (s.splitOff k).1.get? x := by
  have htaken : ((s.splitOff k).2.erase k).1 = s.get? k :=
    get?_splitOff_snd.trans (if_pos (Key.le_refl k))
  rw [leftBySplit, htaken]
  cases hhere : s.get? k with
  | some v => exact get?_insert _ k x v
  | none =>
      show (s.splitOff k).1.get? x = _
      by_cases hx : k = x
      · rw [if_pos hx, get?_splitOff_fst, ← hx, if_neg (Key.lt_irrefl k)]
      · rw [if_neg hx]

variable (s k)

/-- However the entry at the key has to be moved, a split leaves what the lookup does not admit. -/
theorem leftBySplit_eq : s.leftBySplit k lookup = (s.removeMany k lookup).2 := by
  refine ext_get? fun x => ?_
  rw [get?_removeMany]
  cases lookup with
  | eq => exact get?_erase
  | lt =>
      rw [leftBySplit, get?_splitOff_snd]
      exact ite_not (x < k) (s.get? x) none
  | ge =>
      rw [leftBySplit, get?_splitOff_fst]
      exact (ite_not (x < k) none (s.get? x)).symm
  | le =>
      show ((s.splitOff k).2.erase k).2.get? x = if x ≤ k then none else s.get? x
      rw [get?_erase, get?_splitOff_snd]
      rcases Key.lt_or_eq_or_gt x k with hlt | heq | hgt
      · rw [if_neg (Key.ne_of_lt hlt), if_neg (Key.not_le.mpr hlt), if_pos (Key.le_of_lt hlt)]
      · rw [if_pos heq, if_pos (heq ▸ Key.le_refl x)]
      · rw [if_neg (Key.ne_of_lt hgt).symm, if_pos (Key.le_of_lt hgt), if_neg (Key.not_le.mpr hgt)]
  | gt =>
      show (s.leftBySplit k .gt).get? x = if k < x then none else s.get? x
      rw [get?_leftBySplit_gt, get?_splitOff_fst]
      rcases Key.lt_or_eq_or_gt x k with hlt | heq | hgt
      · rw [if_neg (Key.ne_of_lt hlt).symm, if_pos hlt, if_neg (Key.lt_asymm hlt)]
      · rw [if_pos heq.symm, if_neg (heq ▸ Key.lt_irrefl x), heq]
      · rw [if_neg (Key.ne_of_lt hgt), if_neg (Key.lt_asymm hgt), if_pos hgt]

theorem removeBySplit_eq : s.removeBySplit k lookup = s.removeMany k lookup := by
  rw [removeBySplit, leftBySplit_eq]
  rfl

/-! ## One notion of admitted keys -/

/-- A removal takes entries away just where the lookup finds one. -/
theorem removeMany_eq_zero_iff :
    (s.removeMany k lookup).1 = 0 ↔ s.find? k lookup = none := by
  rw [removeMany_count, find?_eq_none_iff, List.countP_eq_zero]
  simp only [decide_eq_true_eq]

/-- What a lookup admits is not found after it was removed. -/
theorem find?_removeMany : (s.removeMany k lookup).2.find? k lookup = none := by
  rw [find?_eq_none_iff]
  intro e he
  exact (s.mem_sweep_iff.mp he).2

/-- A store finds the nearest of the entries that a lookup admits, and removes all of them and no
others. A removal by a split does the same, and so nothing is found where nothing is removed, and
nothing that was removed is found. -/
theorem finds_and_removes_admitted :
    (∀ e, s.find? k lookup = some e ↔ lookup.Nearest k s.entries e) ∧
      (s.find? k lookup = none ↔ ∀ e ∈ s.entries, ¬ lookup.Admits k e.1) ∧
      (s.removeMany k lookup).2.entries = s.entries.filter (fun e => ¬ lookup.Admits k e.1) ∧
      (s.removeMany k lookup).1 = (s.entries.filter fun e => lookup.Admits k e.1).length ∧
      s.removeBySplit k lookup = s.removeMany k lookup ∧
      s.nextAfter? k = s.find? k .gt ∧
      s.previousBefore? k = s.find? k .lt ∧
      ((s.removeMany k lookup).1 = 0 ↔ s.find? k lookup = none) ∧
      (s.removeMany k lookup).2.find? k lookup = none := by
  have hcount := s.removeMany_count k lookup
  rw [List.countP_eq_length_filter] at hcount
  exact ⟨fun _ => s.find?_eq_some_iff k lookup, s.find?_eq_none_iff k lookup,
    s.entries_sweep k lookup, hcount, s.removeBySplit_eq k lookup, rfl, rfl,
    s.removeMany_eq_zero_iff k lookup, s.find?_removeMany k lookup⟩

end Store

end LiveSeries
