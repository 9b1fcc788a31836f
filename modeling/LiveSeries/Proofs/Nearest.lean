import LiveSeries.Cursor.Behaviour

/-!
# The nearest entry of a list

A walk over entries in the order of their keys goes forward or backward. Every move of a cursor
asks for the first entry, in one of the two directions, among those that it admits: all of them,
or those that a lookup admits. Over an increasing list the answer of a move is therefore settled
by membership alone (`target_eq_some_iff`, `target_eq_none_iff`), and two moves with one
direction that admit the same entries have the same answer (`target_congr`).

A store answers its lookups in just this way (`Store.find?_eq_nearest`).
-/

namespace LiveSeries

/-! ## Directions -/

/-- In a walk in this direction the key `a` comes before the key `b`. -/
def Key.Precedes (forward : Bool) (a b : Key) : Prop := if forward then a < b else b < a

namespace Key

instance (forward : Bool) (a b : Key) : Decidable (a.Precedes forward b) := by
  unfold Precedes
  infer_instance

theorem precedes_irrefl (forward : Bool) (a : Key) : ¬ a.Precedes forward a := by
  cases forward
  · exact lt_irrefl a
  · exact lt_irrefl a

theorem precedes_trans {forward : Bool} {a b c : Key} (hab : a.Precedes forward b)
    (hbc : b.Precedes forward c) : a.Precedes forward c := by
  cases forward
  · exact lt_trans hbc hab
  · exact lt_trans hab hbc

theorem precedes_or_eq_or_precedes (forward : Bool) (a b : Key) :
    a.Precedes forward b ∨ a = b ∨ b.Precedes forward a := by
  rcases lt_or_eq_or_gt a b with h | h | h
  · cases forward
    · exact .inr (.inr h)
    · exact .inl h
  · exact .inr (.inl h)
  · cases forward
    · exact .inl h
    · exact .inr (.inr h)

/-- Of two different keys the one that does not come first comes second. -/
theorem precedes_of_ne {forward : Bool} {a b : Key} (hne : a ≠ b)
    (hba : ¬ b.Precedes forward a) : a.Precedes forward b := by
  rcases precedes_or_eq_or_precedes forward a b with h | h | h
  · exact h
  · exact absurd h hne
  · exact absurd h hba

/-- Not to come before is transitive, too. -/
theorem not_precedes_trans {forward : Bool} {a b c : Key} (hab : ¬ a.Precedes forward b)
    (hbc : ¬ b.Precedes forward c) : ¬ a.Precedes forward c := by
  intro hac
  rcases precedes_or_eq_or_precedes forward a b with h | rfl | h
  · exact hab h
  · exact hbc hac
  · exact hbc (precedes_trans h hac)

/-- Of two keys the one that comes first in a direction. -/
theorem earlier_eq (forward : Bool) (a b : Key) :
    (if (if forward then decide (a ≤ b) else decide (b ≤ a)) then a else b) =
      if b.Precedes forward a then b else a := by
  by_cases h : b.Precedes forward a
  · rw [if_pos h]
    cases forward
    · exact if_neg fun h' => (of_decide_eq_true h' : b ≤ a) h
    · exact if_neg fun h' => (of_decide_eq_true h' : a ≤ b) h
  · rw [if_neg h]
    cases forward
    · exact if_pos (decide_eq_true h)
    · exact if_pos (decide_eq_true h)

end Key

/-! ## The ends of an increasing list -/

/-- There is one way only to list given elements in a strict order. -/
theorem eq_of_pairwise_of_mem_iff {α : Type} {r : α → α → Prop} (hasymm : ∀ a b, r a b → ¬ r b a)
    {l m : List α} (hl : l.Pairwise r) (hm : m.Pairwise r) (hmem : ∀ a, a ∈ l ↔ a ∈ m) :
    l = m := by
  have hnodup : ∀ n : List α, n.Pairwise r → n.Nodup := by
    intro n hn
    refine hn.imp ?_
    rintro a b hab rfl
    exact hasymm a a hab hab
  have hperm : l.Perm m := (List.perm_ext_iff_of_nodup (hnodup l hl) (hnodup m hm)).mpr hmem
  refine hperm.eq_of_pairwise ?_ hl hm
  intro a b _ _ hab hba
  exact absurd hba (hasymm a b hab)

theorem Increasing.filter {entries : List Entry} (h : Increasing entries) (p : Entry → Bool) :
    Increasing (entries.filter p) :=
  List.Pairwise.filter p h

/-- Increasing lists with the same members are one list. -/
theorem Increasing.eq_of_mem_iff {l m : List Entry} (hl : Increasing l) (hm : Increasing m)
    (h : ∀ e, e ∈ l ↔ e ∈ m) : l = m :=
  eq_of_pairwise_of_mem_iff (fun _ _ => Key.lt_asymm) hl hm h

/-- Two entries of an increasing list with one key are one entry. -/
theorem Increasing.eq_of_key_eq {entries : List Entry} (h : Increasing entries) {a b : Entry}
    (ha : a ∈ entries) (hb : b ∈ entries) (hkey : a.1 = b.1) : a = b := by
  induction entries with
  | nil => simp at ha
  | cons e rest ih =>
      obtain ⟨hlt, hrest⟩ := List.pairwise_cons.mp h
      rcases List.mem_cons.mp ha with hae | ha' <;> rcases List.mem_cons.mp hb with hbe | hb'
      · rw [hae, hbe]
      · exact absurd (hae ▸ hkey) (Key.ne_of_lt (hlt b hb'))
      · exact absurd (hbe ▸ hkey.symm) (Key.ne_of_lt (hlt a ha'))
      · exact ih hrest ha' hb'

/-- The end of a list at which a walk in this direction starts. -/
def startOf (forward : Bool) (entries : List Entry) : Option Entry :=
  if forward then entries.head? else entries.getLast?

theorem startOf_eq_none_iff (forward : Bool) (entries : List Entry) :
    startOf forward entries = none ↔ entries = [] := by
  cases forward <;> simp [startOf]

theorem mem_of_startOf {forward : Bool} {entries : List Entry} {e : Entry}
    (h : startOf forward entries = some e) : e ∈ entries := by
  cases forward
  · exact List.mem_of_getLast? h
  · exact List.mem_of_head? h

/-- No entry of an increasing list comes before the one at which a walk starts. -/
theorem not_precedes_startOf {forward : Bool} {entries : List Entry} (hinc : Increasing entries)
    {e : Entry} (h : startOf forward entries = some e) :
    ∀ x ∈ entries, ¬ x.1.Precedes forward e.1 := by
  intro x hx
  cases forward with
  | true =>
      obtain ⟨rest, rfl⟩ := List.head?_eq_some_iff.mp h
      rcases List.mem_cons.mp hx with rfl | hx
      · exact Key.lt_irrefl _
      · exact Key.lt_asymm ((List.pairwise_cons.mp hinc).1 x hx)
  | false =>
      obtain ⟨front, rfl⟩ := List.getLast?_eq_some_iff.mp h
      rcases List.mem_append.mp hx with hx | hx
      · exact Key.lt_asymm ((List.pairwise_append.mp hinc).2.2 x hx e (by simp))
      · rw [List.mem_singleton.mp hx]
        exact Key.lt_irrefl _

theorem startOf_eq_some_iff {forward : Bool} {entries : List Entry} (hinc : Increasing entries)
    {e : Entry} :
    startOf forward entries = some e ↔
      e ∈ entries ∧ ∀ x ∈ entries, ¬ x.1.Precedes forward e.1 := by
  constructor
  · intro h
    exact ⟨mem_of_startOf h, not_precedes_startOf hinc h⟩
  · rintro ⟨hmem, hfirst⟩
    cases hs : startOf forward entries with
    | none => simp [(startOf_eq_none_iff forward entries).mp hs] at hmem
    | some d =>
        have hkey : d.1 = e.1 := by
          rcases Key.precedes_or_eq_or_precedes forward d.1 e.1 with h | h | h
          · exact absurd h (hfirst d (mem_of_startOf hs))
          · exact h
          · exact absurd h (not_precedes_startOf hinc hs e hmem)
        rw [hinc.eq_of_key_eq (mem_of_startOf hs) hmem hkey]

theorem startOf_map (f : Entry → Entry) (forward : Bool) (entries : List Entry) :
    startOf forward (entries.map f) = (startOf forward entries).map f := by
  cases forward
  · exact List.getLast?_map
  · exact List.head?_map

/-! ## The answer of a move -/

/-- The entry nearest to a key among those that a lookup admits. -/
def nearest (entries : List Entry) (k : Key) (lookup : Lookup) : Option Entry :=
  startOf (!lookup.isBackward) (entries.filter fun e => lookup.Admits k e.1)

namespace Motion

/-- The entry of a list to which a move leads that starts at a key, or outside the list. -/
def target (entries : List Entry) : Motion → Option Key → Option Entry
  | .first, _ | .next, none => entries.head?
  | .last, _ | .previous, none => entries.getLast?
  | .next, some k => nearest entries k .gt
  | .previous, some k => nearest entries k .lt
  | .find k lookup, _ => nearest entries k lookup

/-- The direction in which a move looks for its entry. -/
def forward : Motion → Bool
  | .first | .next => true
  | .last | .previous => false
  | .find _ lookup => !lookup.isBackward

/-- The keys at which a move may land that starts outside the list. -/
def Admits : Motion → Key → Prop
  | .find k lookup, x => lookup.Admits k x
  | _, _ => True

instance (m : Motion) (x : Key) : Decidable (m.Admits x) := by
  cases m <;> unfold Admits <;> infer_instance

/-- The move that goes on beyond a key. -/
def beyond (forward : Bool) (k : Key) : Motion := .find k (if forward then .gt else .lt)

@[simp] theorem forward_beyond (forward : Bool) (k : Key) :
    (beyond forward k).forward = forward := by
  cases forward <;> rfl

theorem beyond_ne_find_eq (forward : Bool) (k q : Key) : beyond forward k ≠ .find q .eq := by
  cases forward <;> simp [beyond]

theorem admits_beyond {forward : Bool} {k x : Key} :
    (beyond forward k).Admits x ↔ k.Precedes forward x := by
  cases forward <;> exact Iff.rfl

/-- A move that is not after one exact key admits all that lies beyond an admitted key. -/
theorem admits_of_precedes {m : Motion} (hm : ∀ k, m ≠ .find k .eq) {x y : Key}
    (hx : m.Admits x) (hxy : x.Precedes m.forward y) : m.Admits y := by
  match m, hm with
  | .first, _ | .last, _ | .next, _ | .previous, _ => trivial
  | .find k .eq, hm => exact absurd rfl (hm k)
  | .find k .lt, _ => exact Key.lt_trans hxy hx
  | .find k .le, _ => exact Key.le_of_lt (Key.lt_of_lt_of_le hxy hx)
  | .find k .ge, _ => exact Key.le_of_lt (Key.lt_of_le_of_lt hx hxy)
  | .find k .gt, _ => exact Key.lt_trans hx hxy

/-- A move answers with the start of what it admits. -/
theorem target_none_eq (entries : List Entry) (m : Motion) :
    m.target entries none = startOf m.forward (entries.filter fun e => m.Admits e.1) := by
  have hall : entries.filter (fun _ => decide True) = entries :=
    List.filter_eq_self.mpr fun _ _ => rfl
  match m with
  | .first | .next => exact congrArg List.head? hall.symm
  | .last | .previous => exact congrArg List.getLast? hall.symm
  | .find _ _ => rfl

/-- A move from a key is a move from outside: the one with which a search begins. -/
theorem target_eq_target_search (entries : List Entry) (m : Motion) (from? : Option Key) :
    m.target entries from? = (m.search from?).start.target entries none := by
  cases m <;> cases from? <;> rfl

theorem target_eq_some_iff {entries : List Entry} (hinc : Increasing entries) {m : Motion}
    {e : Entry} :
    m.target entries none = some e ↔
      e ∈ entries ∧ m.Admits e.1 ∧ ∀ x ∈ entries, m.Admits x.1 → ¬ x.1.Precedes m.forward e.1 := by
  rw [target_none_eq, startOf_eq_some_iff (hinc.filter _)]
  simp only [List.mem_filter, decide_eq_true_eq]
  constructor
  · rintro ⟨⟨hmem, hadm⟩, hfirst⟩
    exact ⟨hmem, hadm, fun x hx hax => hfirst x ⟨hx, hax⟩⟩
  · rintro ⟨hmem, hadm, hfirst⟩
    exact ⟨⟨hmem, hadm⟩, fun x hx => hfirst x hx.1 hx.2⟩

theorem target_eq_none_iff {entries : List Entry} {m : Motion} :
    m.target entries none = none ↔ ∀ x ∈ entries, ¬ m.Admits x.1 := by
  rw [target_none_eq, startOf_eq_none_iff, List.filter_eq_nil_iff]
  simp

/-- Moves in one direction that admit the same entries lead to the same entry. -/
theorem target_congr {entries : List Entry} {m m' : Motion} (hdir : m.forward = m'.forward)
    (hadm : ∀ x ∈ entries, m.Admits x.1 ↔ m'.Admits x.1) :
    m.target entries none = m'.target entries none := by
  rw [target_none_eq, target_none_eq, hdir]
  congr 1
  apply List.filter_congr
  intro x hx
  simp only [hadm x hx]

theorem mem_of_target {entries : List Entry} {m : Motion} {from? : Option Key} {e : Entry}
    (h : m.target entries from? = some e) : e ∈ entries := by
  rw [target_eq_target_search, target_none_eq] at h
  exact (List.mem_filter.mp (mem_of_startOf h)).1

/-- A change of values only changes the answer in the same way. -/
theorem target_map {f : Entry → Entry} (hf : ∀ e, (f e).1 = e.1) (entries : List Entry)
    (m : Motion) (from? : Option Key) :
    m.target (entries.map f) from? = (m.target entries from?).map f := by
  rw [target_eq_target_search, target_eq_target_search entries, target_none_eq, target_none_eq,
    List.filter_map]
  simp only [Function.comp_def, hf]
  exact startOf_map f _ _

end Motion

theorem mem_of_nearest {entries : List Entry} {k : Key} {lookup : Lookup} {e : Entry}
    (h : nearest entries k lookup = some e) : e ∈ entries :=
  (List.mem_filter.mp (mem_of_startOf h)).1

theorem nearest_map {f : Entry → Entry} (hf : ∀ e, (f e).1 = e.1) (entries : List Entry) (k : Key)
    (lookup : Lookup) :
    nearest (entries.map f) k lookup = (nearest entries k lookup).map f :=
  Motion.target_map hf entries (.find k lookup) none

/-! ## From one entry to the next -/

/-- The entries in the order in which a walk in this direction comes to them. -/
def along (forward : Bool) (entries : List Entry) : List Entry :=
  if forward then entries else entries.reverse

theorem head?_along (forward : Bool) (entries : List Entry) :
    (along forward entries).head? = startOf forward entries := by
  cases forward
  · exact List.head?_reverse
  · rfl

theorem filter_along (forward : Bool) (entries : List Entry) (p : Entry → Bool) :
    (along forward entries).filter p = along forward (entries.filter p) := by
  cases forward
  · exact List.filter_reverse
  · rfl

theorem pairwise_along {entries : List Entry} (hinc : Increasing entries) (forward : Bool) :
    (along forward entries).Pairwise fun a b => a.1.Precedes forward b.1 := by
  cases forward
  · exact List.pairwise_reverse.mpr hinc
  · exact hinc

/-- Beyond the last of some entries lie just those to which the walk comes after them. -/
theorem filter_beyond_last {forward : Bool} {shown rest : List Entry}
    (h : (shown ++ rest).Pairwise fun a b => a.1.Precedes forward b.1) {e : Entry}
    (hlast : shown.getLast? = some e) :
    (shown ++ rest).filter (fun x => (Motion.beyond forward e.1).Admits x.1) = rest := by
  obtain ⟨hshown, -, hcross⟩ := List.pairwise_append.mp h
  obtain ⟨front, rfl⟩ := List.getLast?_eq_some_iff.mp hlast
  have hupto : ∀ d ∈ front ++ [e], ¬ e.1.Precedes forward d.1 := by
    intro d hd hbeyond
    rcases List.mem_append.mp hd with hd | hd
    · have hbefore := (List.pairwise_append.mp hshown).2.2 d hd e List.mem_cons_self
      exact Key.precedes_irrefl forward _ (Key.precedes_trans hbefore hbeyond)
    · rw [List.mem_singleton.mp hd] at hbeyond
      exact Key.precedes_irrefl forward _ hbeyond
  have hafter : ∀ d ∈ rest, e.1.Precedes forward d.1 :=
    hcross e (List.mem_append_right front List.mem_cons_self)
  have hnone : (front ++ [e]).filter (fun x => (Motion.beyond forward e.1).Admits x.1) = [] :=
    List.filter_eq_nil_iff.mpr fun d hd => by
      rw [decide_eq_true_eq, Motion.admits_beyond]
      exact hupto d hd
  have hall : rest.filter (fun x => (Motion.beyond forward e.1).Admits x.1) = rest :=
    List.filter_eq_self.mpr fun d hd => decide_eq_true (Motion.admits_beyond.mpr (hafter d hd))
  rw [List.filter_append, hnone, hall, List.nil_append]

/-- The move to the next entry in a direction. -/
def Motion.step (forward : Bool) : Motion := if forward then .next else .previous

/-- A step from the last of the entries that a walk has come to leads to the first of the others. -/
theorem Motion.target_step {forward : Bool} {entries shown rest : List Entry}
    (hinc : Increasing entries) (h : along forward entries = shown ++ rest) :
    (step forward).target entries (shown.getLast?.map (·.1)) = rest.head? := by
  cases hlast : shown.getLast? with
  | none =>
      rw [List.getLast?_eq_none_iff.mp hlast, List.nil_append] at h
      rw [← h, head?_along]
      cases forward <;> rfl
  | some e =>
      have hbeyond : (step forward).target entries (some e.1) =
          startOf forward (entries.filter fun x => (beyond forward e.1).Admits x.1) := by
        cases forward <;> rfl
      have hpairwise := pairwise_along hinc forward
      rw [h] at hpairwise
      rw [Option.map_some, hbeyond, ← head?_along, ← filter_along, h,
        filter_beyond_last hpairwise hlast]

/-! ## Stores answer with the nearest entry -/

/-- The entry at a key, as the list of what is admitted there. -/
theorem head?_cut_middle (cut : Cut) (k : Key) :
    (cut.middle k).head? = cut.here.map fun v => (k, v) := by
  unfold Cut.middle
  cases cut.here <;> rfl

theorem getLast?_cut_middle (cut : Cut) (k : Key) :
    (cut.middle k).getLast? = cut.here.map fun v => (k, v) := by
  unfold Cut.middle
  cases cut.here <;> rfl

theorem filter_admits_of_forall (k : Key) (lookup : Lookup) {part : List Entry}
    (h : ∀ e ∈ part, lookup.Admits k e.1) :
    part.filter (fun e => lookup.Admits k e.1) = part :=
  List.filter_eq_self.mpr fun e he => decide_eq_true (h e he)

theorem filter_admits_of_forall_not (k : Key) (lookup : Lookup) {part : List Entry}
    (h : ∀ e ∈ part, ¬ lookup.Admits k e.1) :
    part.filter (fun e => lookup.Admits k e.1) = [] :=
  List.filter_eq_nil_iff.mpr fun e he => by simpa using h e he

/-- A filter acts on the three parts of a cut apart. -/
theorem filter_entries_cut (s : Store) (k : Key) (p : Entry → Bool) :
    s.entries.filter p =
      (s.cut k).below.filter p ++ ((s.cut k).middle k).filter p ++ (s.cut k).above.filter p := by
  rw [← List.filter_append, ← List.filter_append]
  exact congrArg (List.filter p) (cutAt_rejoin k s.entries).symm

/-- A store finds the nearest of its entries. Each lookup keeps or drops whole parts of the cut. -/
theorem Store.find?_eq_nearest (s : Store) (k : Key) (lookup : Lookup) :
    s.find? k lookup = nearest s.entries k lookup := by
  have hlow : ∀ e ∈ (s.cut k).below, e.1 < k := cutAt_below_lt k s.entries
  have hmid : ∀ e ∈ (s.cut k).middle k, e.1 = k := fun e he => mem_cut_middle he
  have hhigh : ∀ e ∈ (s.cut k).above, k < e.1 := cutAt_lt_above s.increasing
  have hle : ∀ e ∈ (s.cut k).middle k, e.1 ≤ k := fun e he => hmid e he ▸ Key.le_refl _
  have hge : ∀ e ∈ (s.cut k).middle k, k ≤ e.1 := fun e he => hmid e he ▸ Key.le_refl _
  unfold nearest
  rw [filter_entries_cut s k]
  cases lookup with
  | eq =>
      rw [filter_admits_of_forall_not k .eq fun e he => Key.ne_of_lt (hlow e he),
        filter_admits_of_forall k .eq hmid,
        filter_admits_of_forall_not k .eq fun e he => (Key.ne_of_lt (hhigh e he)).symm]
      simp [startOf, Lookup.isBackward, Store.find?, head?_cut_middle]
  | lt =>
      rw [filter_admits_of_forall k .lt hlow, filter_admits_of_forall_not k .lt hge,
        filter_admits_of_forall_not k .lt fun e he => Key.lt_asymm (hhigh e he)]
      simp [startOf, Lookup.isBackward, Store.find?]
  | le =>
      rw [filter_admits_of_forall k .le fun e he => Key.le_of_lt (hlow e he),
        filter_admits_of_forall k .le hle,
        filter_admits_of_forall_not k .le fun e he => Key.not_le.mpr (hhigh e he)]
      simp [startOf, Lookup.isBackward, Store.find?, getLast?_cut_middle, List.getLast?_append]
  | ge =>
      rw [filter_admits_of_forall_not k .ge fun e he => Key.not_le.mpr (hlow e he),
        filter_admits_of_forall k .ge hge,
        filter_admits_of_forall k .ge fun e he => Key.le_of_lt (hhigh e he)]
      simp [startOf, Lookup.isBackward, Store.find?, head?_cut_middle, List.head?_append]
  | gt =>
      rw [filter_admits_of_forall_not k .gt fun e he => Key.lt_asymm (hlow e he),
        filter_admits_of_forall_not k .gt hle, filter_admits_of_forall k .gt hhigh]
      simp [startOf, Lookup.isBackward, Store.find?]

end LiveSeries
