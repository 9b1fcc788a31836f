import LiveSeries.Proofs.Walk

/-!
# Arithmetic that never wraps

Integers of a fixed width are computed with exactly. A sum, a difference or a product is the exact
one where the width holds it, and a fault elsewhere. Quotient and remainder are those of the division
toward zero (`IntKind.Divides`). They fault together: where the divisor is zero, and at the one
quotient that leaves the width, of the least integer by minus one, whose remainder alone would fit.

So whatever comes out lies in the width again (`Arith.holds_of_onInt`). A cursor that computes with
its values does so in three places: at the entry at which it stands, at the value of a point lookup
and at the entry that a lookup finds. All three give one result for one value (`Arith.never_wraps`).
-/

namespace LiveSeries

namespace IntKind

variable {t : IntKind} {a b n : Int}

/-! ## The integers of a kind -/

theorem holds_iff_of_signed (hsigned : t.signed = true) :
    t.Holds n ↔ -(Nat.pow 2 (t.bits - 1)) ≤ n ∧ n < Nat.pow 2 (t.bits - 1) := by
  rw [Holds, least, greatest, if_pos hsigned, if_pos hsigned]
  exact and_congr_right fun _ => Int.le_sub_one_iff

theorem holds_iff_of_unsigned (hsigned : t.signed = false) :
    t.Holds n ↔ 0 ≤ n ∧ n < Nat.pow 2 t.bits := by
  have hnot : ¬ t.signed = true := by simp [hsigned]
  rw [Holds, least, greatest, if_neg hnot, if_neg hnot]
  exact and_congr_right fun _ => Int.le_sub_one_iff

theorem holds_zero (t : IntKind) : t.Holds 0 := by
  cases hsigned : t.signed with
  | true =>
      have hpos : 0 < Nat.pow 2 (t.bits - 1) := Nat.two_pow_pos _
      rw [holds_iff_of_signed hsigned]
      omega
  | false =>
      have hpos : 0 < Nat.pow 2 t.bits := Nat.two_pow_pos _
      rw [holds_iff_of_unsigned hsigned]
      omega

/-- A kind holds all that lies between zero and an integer that it holds. -/
theorem Holds.of_between (ha : t.Holds a) (h : 0 ≤ n ∧ n ≤ a ∨ a ≤ n ∧ n ≤ 0) : t.Holds n := by
  obtain ⟨hlow, hhigh⟩ := holds_zero t
  rcases h with ⟨hn, hna⟩ | ⟨han, hn⟩
  · exact ⟨Int.le_trans hlow hn, Int.le_trans hna ha.2⟩
  · exact ⟨Int.le_trans ha.1 han, Int.le_trans hn hhigh⟩

/-- Only the least integer of a signed kind has a negative that the kind does not hold. -/
theorem Holds.neg_iff (ha : t.Holds a) (hsigned : t.signed = true) :
    t.Holds (-a) ↔ a ≠ t.least := by
  have hleast : t.least = -(Nat.pow 2 (t.bits - 1)) := if_pos hsigned
  rw [holds_iff_of_signed hsigned] at ha ⊢
  rw [hleast]
  omega

/-! ## Quotients and remainders -/

/-- The divisor is zero, or the quotient leaves the kind. -/
def Indivisible (t : IntKind) (a b : Int) : Prop :=
  b = 0 ∨ (t.signed = true ∧ a = t.least ∧ b = -1)

/-- A divisor that is neither one nor minus one at least halves what it divides. -/
theorem two_mul_natAbs_tdiv_le (h : 2 ≤ b.natAbs) : 2 * (a.tdiv b).natAbs ≤ a.natAbs := by
  have hquotient : (a.tdiv b).natAbs = a.natAbs / b.natAbs := Int.natAbs_tdiv a b
  have hhalf : a.natAbs / b.natAbs ≤ a.natAbs / 2 := Nat.div_le_div_left h Nat.two_pos
  omega

/-- The one quotient that leaves its kind is that of the least integer by minus one. -/
theorem Holds.tdiv_iff (ha : t.Holds a) (hb : t.Holds b) (h0 : b ≠ 0) :
    t.Holds (a.tdiv b) ↔ ¬ t.Indivisible a b := by
  cases hsigned : t.signed with
  | false =>
      have ha' := (holds_iff_of_unsigned hsigned).mp ha
      have hb' := (holds_iff_of_unsigned hsigned).mp hb
      have hdivisible : ¬ t.Indivisible a b := by simp [Indivisible, h0, hsigned]
      have hholds : t.Holds (a.tdiv b) :=
        ha.of_between (.inl ⟨Int.tdiv_nonneg ha'.1 hb'.1, Int.tdiv_le_self b ha'.1⟩)
      exact iff_of_true hholds hdivisible
  | true =>
      by_cases hminus : b = -1
      · have hquotient : a.tdiv b = -a := by rw [hminus, Int.tdiv_neg, Int.tdiv_one]
        rw [hquotient, ha.neg_iff hsigned]
        simp [Indivisible, hsigned, hminus]
      · have hdivisible : ¬ t.Indivisible a b := by simp [Indivisible, h0, hminus]
        refine iff_of_true ?_ hdivisible
        by_cases hone : b = 1
        · rw [hone, Int.tdiv_one]
          exact ha
        · -- half of an integer is held together with its negative
          have hhalf : 2 * (a.tdiv b).natAbs ≤ a.natAbs := two_mul_natAbs_tdiv_le (by omega)
          have hpos : 0 < Nat.pow 2 (t.bits - 1) := Nat.two_pow_pos _
          rw [holds_iff_of_signed hsigned] at ha ⊢
          omega

/-- A remainder lies between zero and what was divided. -/
theorem tmod_between (a b : Int) : 0 ≤ a.tmod b ∧ a.tmod b ≤ a ∨ a ≤ a.tmod b ∧ a.tmod b ≤ 0 := by
  have hsize : (a.tmod b).natAbs ≤ a.natAbs := by
    rw [Int.natAbs_tmod]
    exact Nat.mod_le _ _
  rcases Int.le_total 0 a with ha | ha
  · have hnonneg := Int.tmod_nonneg b ha
    exact .inl (by omega)
  · have hnonneg := Int.tmod_nonneg b (Int.neg_nonneg_of_nonpos ha)
    rw [Int.neg_tmod] at hnonneg
    exact .inr (by omega)

/-- A remainder is smaller than the divisor, and zero or of the sign of what was divided. -/
theorem natAbs_tmod_lt_and_sign (a : Int) (h0 : b ≠ 0) :
    (a.tmod b).natAbs < b.natAbs ∧ (a.tmod b = 0 ∨ (a.tmod b).sign = a.sign) := by
  constructor
  · rw [Int.natAbs_tmod]
    exact Nat.mod_lt _ (Int.natAbs_pos.mpr h0)
  · by_cases hdvd : b ∣ a
    · exact .inl (Int.tmod_eq_zero_of_dvd hdvd)
    · exact .inr ((Int.sign_tmod a b).trans (if_neg hdvd))

/-- Quotient and remainder of two integers, as a whole: both fault, or both are what a division
toward zero gives. -/
structure Divides (t : IntKind) (a b : Int) (quotient remainder : Except Fault Int) : Prop where
  faults : t.Indivisible a b →
    quotient = .error (if b = 0 then .divideByZero else .divideOverflow) ∧
      remainder = .error (if b = 0 then .remainderByZero else .remainderOverflow)
  divides : ¬ t.Indivisible a b → ∃ q r, quotient = .ok q ∧ remainder = .ok r ∧
    q * b + r = a ∧ r.natAbs < b.natAbs ∧ (r = 0 ∨ r.sign = a.sign)

theorem Holds.divides (ha : t.Holds a) (hb : t.Holds b) :
    t.Divides a b (t.divide a b) (t.remainder a b) where
  faults hindivisible := by
    by_cases h0 : b = 0
    · simp only [divide, remainder, if_pos h0, and_self]
    · have hquotient : ¬ t.Holds (a.tdiv b) := fun h =>
        (ha.tdiv_iff hb h0).mp h hindivisible
      simp only [divide, remainder, keep, if_neg h0, if_neg hquotient, and_self]
  divides hdivisible := by
    have h0 : b ≠ 0 := fun h => hdivisible (.inl h)
    have hquotient : t.Holds (a.tdiv b) := (ha.tdiv_iff hb h0).mpr hdivisible
    refine ⟨a.tdiv b, a.tmod b, ?_, ?_, Int.tdiv_mul_add_tmod a b, natAbs_tmod_lt_and_sign a h0⟩
    · rw [divide, if_neg h0, keep, if_pos hquotient]
    · rw [remainder, if_neg h0, if_pos hquotient]

theorem Holds.of_remainder (ha : t.Holds a) (h : t.remainder a b = .ok n) : t.Holds n := by
  unfold remainder at h
  split at h
  · cases h
  · split at h
    · cases h
      exact ha.of_between (tmod_between a b)
    · cases h

theorem holds_of_divide (h : t.divide a b = .ok n) : t.Holds n := by
  unfold divide at h
  split at h
  · cases h
  · obtain ⟨hholds, rfl⟩ := keep_eq_ok_iff.mp h
    exact hholds

/-! ## Exact results -/

/-- The answer is the exact integer if the kind holds it, and the fault otherwise. -/
def Keeps (t : IntKind) (fault : Fault) (answer : Except Fault Int) (exact : Int) : Prop :=
  (t.Holds exact → answer = .ok exact) ∧ (¬ t.Holds exact → answer = .error fault)

theorem keeps_keep (t : IntKind) (fault : Fault) (n : Int) : t.Keeps fault (t.keep fault n) n :=
  ⟨fun h => if_pos h, fun h => if_neg h⟩

end IntKind

/-- What arithmetic makes of integers of a kind is an integer of the kind. -/
theorem Arith.holds_of_onInt {t : IntKind} {op : Arith} {v o n : Int} (hv : t.Holds v)
    (ho : t.Holds o) (h : op.onInt t v o = .ok n) : t.Holds n := by
  cases op with
  | add | subtract | subtractReverse | multiply =>
      obtain ⟨hholds, rfl⟩ := IntKind.keep_eq_ok_iff.mp h
      exact hholds
  | divide | divideReverse => exact IntKind.holds_of_divide h
  | modulo => exact hv.of_remainder h
  | moduloReverse => exact ho.of_remainder h

/-! ## Arithmetic on the values of a cursor -/

namespace Operation

/-- Arithmetic against an operand on integers of a kind, as a function of values. -/
def arithIn (t : IntKind) (op : Arith) (operand : Int) : Operation :=
  .function fun
    | .int n => (op.onInt t n operand).map .int
    | _ => .error Arith.mismatch

/-- The operations on values that are arithmetic against an operand on integers of a kind. The values
themselves have arithmetic of 64 bits; that of another width is supplied as a function. -/
inductive Computes (op : Arith) (operand : Int) : IntKind → Operation → Prop where
  | arith : Computes op operand .int64 (.arith op (.int operand))
  | arithIn (t : IntKind) : Computes op operand t (.arithIn t op operand)

theorem Computes.outcome_apply {op : Arith} {operand : Int} {t : IntKind} {o : Operation}
    (h : Computes op operand t o) (n : Int) :
    (o.apply (.int n)).outcome = (op.onInt t n operand).map .int := by
  cases h with
  | arith => rfl
  | arithIn => rfl

end Operation

namespace Cursor

variable {sources : Sources} {c : Cursor} {v : Value}

/-- Where a cursor stands, an operation is applied to its value. -/
theorem outcome_value_op (o : Operation) (h : (c.value sources).outcome = .ok v) :
    ((c.op o).value sources).outcome = (o.apply v).outcome := by
  show (c.value sources >>= o.apply).outcome = _
  rw [Eval.outcome_bind, h, ok_bind]

/-- What a point lookup finds, an operation is applied to. -/
theorem outcome_get?_op (o : Operation) {k : Key}
    (h : (c.get? sources k).outcome = .ok (some v)) :
    ((c.op o).get? sources k).outcome = (o.apply v).outcome.map some := by
  show (c.get? sources k >>= _ : Eval (Option Value)).outcome = _
  rw [Eval.outcome_bind, h, ok_bind]
  exact Eval.outcome_map some (o.apply v)

/-- To the value of the entry that a lookup finds, an operation is applied. -/
theorem outcome_find?_op (o : Operation) {k found : Key} {lookup : Lookup}
    (h : (c.find? sources k lookup).outcome = .ok (some (found, v))) :
    ((c.op o).find? sources k lookup).outcome =
      (o.apply v).outcome.map fun w => some (found, w) := by
  show (c.find? sources k lookup >>= _ : Eval (Option Entry)).outcome = _
  rw [Eval.outcome_bind, h, ok_bind]
  exact Eval.outcome_map _ (o.apply v)

end Cursor

namespace Arith

/-- On integers of any width, sums, differences and products are exact or fault, quotient and
remainder divide toward zero or fault together, and a reversed operation is the plain one of the
operand and the value. No result leaves the width. Wherever a cursor applies such an operation, it
does so with this result. -/
theorem never_wraps {t : IntKind} {v o : Int} (hv : t.Holds v) (ho : t.Holds o) :
    t.Keeps .addOverflow (add.onInt t v o) (v + o) ∧
      t.Keeps .subtractOverflow (subtract.onInt t v o) (v - o) ∧
      t.Keeps .multiplyOverflow (multiply.onInt t v o) (v * o) ∧
      t.Divides v o (divide.onInt t v o) (modulo.onInt t v o) ∧
      subtractReverse.onInt t v o = subtract.onInt t o v ∧
      divideReverse.onInt t v o = divide.onInt t o v ∧
      moduloReverse.onInt t v o = modulo.onInt t o v ∧
      (∀ (op : Arith) (n : Int), op.onInt t v o = .ok n → t.Holds n) ∧
      ∀ (op : Arith) (s : Operation), s.Computes op o t → ∀ (sources : Sources) (c : Cursor),
        ((c.value sources).outcome = .ok (.int v) →
          ((c.op s).value sources).outcome = (op.onInt t v o).map .int) ∧
        (∀ k, (c.get? sources k).outcome = .ok (some (.int v)) →
          ((c.op s).get? sources k).outcome = (op.onInt t v o).map fun n => some (.int n)) ∧
        ∀ k lookup found, (c.find? sources k lookup).outcome = .ok (some (found, .int v)) →
          ((c.op s).find? sources k lookup).outcome =
            (op.onInt t v o).map fun n => some (found, .int n) := by
  refine ⟨t.keeps_keep _ _, t.keeps_keep _ _, t.keeps_keep _ _, hv.divides ho, rfl, rfl, rfl,
    fun op n => holds_of_onInt hv ho, ?_⟩
  intro op s hs sources c
  have hresult := hs.outcome_apply v
  refine ⟨fun h => ?_, fun k h => ?_, fun k lookup found h => ?_⟩
  · rw [Cursor.outcome_value_op s h, hresult]
  · rw [Cursor.outcome_get?_op s h, hresult]
    exact (comp_map Value.int some (op.onInt t v o)).symm
  · rw [Cursor.outcome_find?_op s h, hresult]
    exact (comp_map Value.int (fun w => some (found, w)) (op.onInt t v o)).symm

/-- A series with the least integer of 8 bits. -/
def leastOfByte : Sources := fun _ => .ofList [(.int 1, .int (-128))]

/-- The remainder of the least integer by minus one would be zero, but it faults with the quotient. -/
theorem never_wraps_leastOfByte :
    divide.onInt ⟨true, 8⟩ (-128) (-1) = .error .divideOverflow ∧
      modulo.onInt ⟨true, 8⟩ (-128) (-1) = .error .remainderOverflow ∧
      (((Cursor.ofSeries 0).op (.arithIn ⟨true, 8⟩ .subtract (-1))).get? leastOfByte
        (.int 1)).outcome = .ok (some (.int (-127))) ∧
      (((Cursor.ofSeries 0).op (.arithIn ⟨true, 8⟩ .add (-1))).find? leastOfByte
        (.int 5) .le).outcome = .error .addOverflow := by
  obtain ⟨-, -, -, hdivides, -, -, -, -, hcursor⟩ :=
    never_wraps (t := ⟨true, 8⟩) (v := -128) (o := -1) (by decide) (by decide)
  have hfaults := hdivides.faults (by simp [IntKind.Indivisible, IntKind.least])
  have hsubtract := hcursor .subtract _ (.arithIn _) leastOfByte (Cursor.ofSeries 0)
  have hadd := hcursor .add _ (.arithIn _) leastOfByte (Cursor.ofSeries 0)
  exact ⟨hfaults.1, hfaults.2, hsubtract.2.1 (.int 1) rfl, hadd.2.2 (.int 5) .le (.int 1) rfl⟩

end Arith

end LiveSeries
