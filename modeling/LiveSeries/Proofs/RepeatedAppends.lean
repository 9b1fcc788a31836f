import Mathlib
import LiveSeries.Proofs.AppendRules

/-!
# Appends made twice

After an append the appended keys are stored, so the same entries can be appended once more only
under the rule that accepts what is equal. That rule compares what is stored with what was appended,
and a value in which a float is not a number differs from itself (`Value.equals_self_iff`). Without
such values the second append changes nothing, under whatever rule the first one was made; with one
it is refused (`Series.append_again_iff`).
-/

namespace LiveSeries

namespace Value

/-! ## Values that are equal to themselves -/

/-- No float in the value fails to be a number. -/
def NanFree : Value → Prop
  | .float x => x.isNaN = false
  | .pair a b => a.NanFree ∧ b.NanFree
  | .int _ | .text _ | .bool _ => True

theorem beq_self_iff_isNaN (x : Float) : (x == x) = true ↔ x.isNaN = false := by
  rw [Float.isNaN_eq_decide_eq_nan, decide_eq_false_iff_not]
  exact Float.beq_self_iff

/-- A value is equal to itself if all floats in it are numbers. -/
theorem equals_self_iff (v : Value) : v.equals v = true ↔ v.NanFree := by
  induction v with
  | int n => simp [equals, NanFree]
  | float x => exact beq_self_iff_isNaN x
  | text s => simp [equals, NanFree]
  | bool b => simp [equals, NanFree]
  | pair a b iha ihb => rw [equals, Bool.and_eq_true, iha, ihb, NanFree]

/-- What equals some value is equal to itself. -/
theorem nanFree_of_equals {v w : Value} (h : v.equals w = true) : w.NanFree := by
  induction w generalizing v with
  | int n => trivial
  | float y =>
      cases v with
      | float x => exact (beq_self_iff_isNaN y).mp (BEq.trans (BEq.symm h) h)
      | int _ | text _ | bool _ | pair _ _ => cases h
  | text s => trivial
  | bool b => trivial
  | pair c d ihc ihd =>
      cases v with
      | pair a b =>
          rw [equals, Bool.and_eq_true] at h
          exact ⟨ihc h.1, ihd h.2⟩
      | int _ | float _ | text _ | bool _ => cases h

end Value

namespace OverlapRule

/-! ## What was appended is stored -/

variable {stored entries : List Entry} {rule : OverlapRule}

/-- An entry that its rule allows is put in, or an equal one is stored and stays. -/
theorem exists_joined (h : rule.Allows stored entries) {d : Entry} (hd : d ∈ entries) :
    d ∈ rule.joined stored entries ∨
      ∃ e ∈ rule.joined stored entries, e.1 = d.1 ∧ e.2.equals d.2 = true := by
  cases rule with
  | reject | dropOld => exact .inl (List.mem_append_right _ hd)
  | acceptEqual =>
      by_cases hbeyond : Beyond stored d.1
      · exact .inl (List.mem_append_right _ (List.mem_filter.mpr ⟨hd, decide_eq_true hbeyond⟩))
      · obtain ⟨e, he, hequal⟩ := h d hd hbeyond
        exact .inr ⟨e, List.mem_append_left _ he, hequal⟩

/-- Nothing that was appended lies beyond what is then stored. -/
theorem not_beyond_joined (h : rule.Allows stored entries)
    (hjoined : Increasing (rule.joined stored entries)) {d : Entry} (hd : d ∈ entries) :
    ¬ Beyond (rule.joined stored entries) d.1 := by
  rw [hjoined.beyond_iff]
  intro habove
  rcases exists_joined h hd with hmem | ⟨e, he, hkey, -⟩
  · exact Key.lt_irrefl d.1 (habove d hmem)
  · exact Key.ne_of_lt (habove e he) hkey

/-- The rule that accepts what is equal allows the same entries once more if their values are equal
to themselves. -/
theorem allows_again_iff (h : rule.Allows stored entries)
    (hjoined : Increasing (rule.joined stored entries)) :
    OverlapRule.acceptEqual.Allows (rule.joined stored entries) entries ↔
      ∀ d ∈ entries, d.2.NanFree := by
  constructor
  · intro hagain d hd
    obtain ⟨e, -, -, hequals⟩ := hagain d hd (not_beyond_joined h hjoined hd)
    exact Value.nanFree_of_equals hequals
  · intro hfree d hd _
    rcases exists_joined h hd with hmem | hequal
    · exact ⟨d, hmem, rfl, (Value.equals_self_iff d.2).mpr (hfree d hd)⟩
    · exact hequal

/-- To append the same entries once more moves nothing. -/
theorem not_moves_again (h : rule.Allows stored entries)
    (hjoined : Increasing (rule.joined stored entries)) :
    ¬ OverlapRule.acceptEqual.Moves (rule.joined stored entries) entries := by
  have hnone : OverlapRule.acceptEqual.inserted (rule.joined stored entries) entries = [] :=
    List.filter_eq_nil_iff.mpr fun d hd hbeyond =>
      not_beyond_joined h hjoined hd (of_decide_eq_true hbeyond)
  exact not_or.mpr ⟨not_not.mpr hnone, not_not.mpr rfl⟩

end OverlapRule

namespace Series

variable {s : Series} {entries : List Entry} {rule : OverlapRule}

/-! ## The same append again -/

/-- A call leaves a series open. -/
theorem AtRest.isCompleted_run (h : s.AtRest) (e : Edit) :
    (e.run s).settled.isCompleted = s.isCompleted := by
  rcases h.run_cases e with ⟨-, hsame⟩ | ⟨-, a, store, -, hrun⟩
  · rw [hsame]
  · rw [hrun.settled]
    rfl

/-- An append that is answered was allowed by its rule. -/
theorem Writable.allows_of_appended (h : s.Writable) (hinc : Increasing entries) {n : Nat}
    (happended : (s.append entries rule).result = .ok n) : rule.Allows s.store.entries entries := by
  by_contra hnot
  have hrefused := h.run_of_onMap_refused (e := .append entries rule)
    ((Edit.onMap_append s.store.increasing entries rule).2.1 hinc hnot)
  have hresult : (s.append entries rule).result = .error (.refused .overlap) :=
    congrArg Write.result hrefused
  rw [hresult] at happended
  cases happended

/-- After an append, the same entries are appended once more under the rule that accepts what is
equal. That answers zero and leaves the series as it is if all floats among the values are numbers,
and else it is refused, and leaves the series as it is too. -/
theorem append_again_iff (hs : s.AtRest) (hopen : s.isCompleted = false)
    (hbelow : s.version < Gate.lastVersion) (hinc : Increasing entries) {n : Nat}
    (happended : (s.append entries rule).result = .ok n) {s' : Series}
    (hs' : (s.append entries rule).settled = s') (hroom : s'.version < Gate.lastVersion) :
    (s'.append entries .acceptEqual = { result := .ok 0, series := s' } ↔
      ∀ d ∈ entries, d.2.NanFree) ∧
    (¬ (∀ d ∈ entries, d.2.NanFree) →
      s'.append entries .acceptEqual =
        { result := .error (.refused .overlap), series := s' }) := by
  have h : s.Writable := ⟨hs, hopen, hbelow⟩
  have hallows := h.allows_of_appended hinc happended
  have hstored : s'.store.entries = rule.joined s.store.entries entries :=
    hs' ▸ (h.appends hinc hallows).stored
  have hjoined : Increasing (rule.joined s.store.entries entries) :=
    hstored ▸ s'.store.increasing
  have hrest : s'.AtRest := hs' ▸ hs.settled_run (.append entries rule)
  have hopen' : s'.isCompleted = false :=
    hs' ▸ (hs.isCompleted_run (.append entries rule)).trans hopen
  have h' : s'.Writable := ⟨hrest, hopen', hroom⟩
  have hagain := OverlapRule.allows_again_iff hallows hjoined
  have hstill := OverlapRule.not_moves_again hallows hjoined
  rw [← hstored] at hagain hstill
  have hrefused : ¬ (∀ d ∈ entries, d.2.NanFree) → s'.append entries .acceptEqual =
      { result := .error (.refused .overlap), series := s' } := by
    intro hnan
    exact h'.run_of_onMap_refused (e := .append entries .acceptEqual)
      ((Edit.onMap_append s'.store.increasing entries .acceptEqual).2.1 hinc
        fun hallowed => hnan (hagain.mp hallowed))
  refine ⟨⟨?_, fun hfree => ?_⟩, hrefused⟩
  · intro hidle
    by_contra hnan
    rw [hrefused hnan] at hidle
    cases hidle
  · exact (h'.appends hinc (hagain.mpr hfree)).still hstill

/-- Two entries, with a float in one of them. -/
def readings : List Entry := [(.int 1, .pair (.int 7) (.float 1.5)), (.int 2, .text "low")]

theorem append_again_readings :
    (({} : Series).append readings .dropOld).result = .ok 2 ∧
      ((({} : Series).append readings .dropOld).settled.append readings .acceptEqual) =
        { result := .ok 0, series := (({} : Series).append readings .dropOld).settled } := by
  have hrest : ({} : Series).AtRest := ⟨rfl, rfl, by decide⟩
  have hagain := @append_again_iff {} readings .dropOld hrest rfl (by decide) (by decide) 2 rfl _ rfl
    (by decide)
  have hnumber : (1.5 : Float).isNaN = false := by decide
  refine ⟨rfl, hagain.1.mpr fun d hd => ?_⟩
  rcases List.mem_pair.mp hd with rfl | rfl
  · exact ⟨trivial, hnumber⟩
  · trivial

/-- An entry whose value is not a number. -/
def unmeasured : List Entry := [(.int 1, .float (0 / 0))]

/-- A series with one version left. -/
def oneLeft : Series :=
  { gate := { version := Gate.lastVersion - 1, nextVersion := Gate.lastVersion - 1 } }

/-- What is not a number is stored, and does not equal what is appended again. After the last
version not even an append that would change nothing is answered. -/
theorem append_again_refused :
    ({} : Series).AtRest ∧ ({} : Series).isCompleted = false ∧ Increasing unmeasured ∧
      (({} : Series).append unmeasured .reject).result = .ok 1 ∧
      ((({} : Series).append unmeasured .reject).settled.append unmeasured .acceptEqual).result =
        .error (.refused .overlap) ∧
      oneLeft.AtRest ∧ oneLeft.isCompleted = false ∧ oneLeft.version < Gate.lastVersion ∧
      (oneLeft.append readings .reject).result = .ok 2 ∧
      ((oneLeft.append readings .reject).settled.append readings .acceptEqual).result =
        .error (.fault .addOverflow) := by
  have hrest : ({} : Series).AtRest := ⟨rfl, rfl, by decide⟩
  have hrest' : oneLeft.AtRest := ⟨rfl, rfl, by decide⟩
  refine ⟨hrest, rfl, by decide, rfl, ?_, hrest', rfl, by decide, rfl, rfl⟩
  decide

end Series

end LiveSeries
