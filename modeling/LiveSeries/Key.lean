/-!
# Keys

A key is an integer or a text. Integers come before texts; texts are ordered by code points.
The order is linear, which is all that a store of entries needs of it.
-/

namespace LiveSeries

/-- A position in a series. -/
inductive Key where
  | int (n : Int)
  | text (s : String)
  deriving DecidableEq, Repr, Inhabited

namespace Key

/-- The order of keys. -/
protected def Lt : Key → Key → Prop
  | .int a, .int b => a < b
  | .int _, .text _ => True
  | .text _, .int _ => False
  | .text a, .text b => a < b

instance : LT Key := ⟨Key.Lt⟩

/-- At or before: not after. -/
instance : LE Key := ⟨fun a b => ¬ b < a⟩

instance (a b : Key) : Decidable (a < b) :=
  match a, b with
  | .int a, .int b => inferInstanceAs (Decidable (a < b))
  | .int _, .text _ => .isTrue trivial
  | .text _, .int _ => .isFalse id
  | .text a, .text b => inferInstanceAs (Decidable (a < b))

instance (a b : Key) : Decidable (a ≤ b) := inferInstanceAs (Decidable (¬ b < a))

@[simp] theorem int_lt_int {a b : Int} : Key.int a < Key.int b ↔ a < b := Iff.rfl

@[simp] theorem int_lt_text {a : Int} {b : String} : Key.int a < Key.text b := trivial

@[simp] theorem not_text_lt_int {a : String} {b : Int} : ¬ Key.text a < Key.int b := id

@[simp] theorem text_lt_text {a b : String} : Key.text a < Key.text b ↔ a < b := Iff.rfl

theorem lt_irrefl (a : Key) : ¬ a < a := by
  cases a with
  | int a => exact Int.lt_irrefl a
  | text a => exact String.lt_irrefl a

theorem lt_trans {a b c : Key} (hab : a < b) (hbc : b < c) : a < c :=
  match a, b, c, hab, hbc with
  | .int _, .int _, .int _, hab, hbc => Int.lt_trans hab hbc
  | .int _, _, .text _, _, _ => trivial
  | .text _, .text _, .text _, hab, hbc => String.lt_trans hab hbc

theorem lt_asymm {a b : Key} (h : a < b) : ¬ b < a := fun h' => lt_irrefl a (lt_trans h h')

theorem not_lt {a b : Key} : ¬ a < b ↔ b ≤ a := Iff.rfl

theorem not_le {a b : Key} : ¬ a ≤ b ↔ b < a := Decidable.not_not

/-- Two keys of which neither comes first are one key. -/
theorem eq_of_not_lt {a b : Key} (hab : ¬ a < b) (hba : ¬ b < a) : a = b :=
  match a, b, hab, hba with
  | .int _, .int _, hab, hba =>
    congrArg Key.int (Int.le_antisymm (Int.not_lt.1 hba) (Int.not_lt.1 hab))
  | .int _, .text _, hab, _ => absurd trivial hab
  | .text _, .int _, _, hba => absurd trivial hba
  | .text _, .text _, hab, hba =>
    congrArg Key.text (String.le_antisymm (String.not_lt.1 hba) (String.not_lt.1 hab))

theorem lt_or_eq_or_gt (a b : Key) : a < b ∨ a = b ∨ b < a := by
  by_cases hab : a < b
  · exact .inl hab
  · by_cases hba : b < a
    · exact .inr (.inr hba)
    · exact .inr (.inl (eq_of_not_lt hab hba))

theorem le_refl (a : Key) : a ≤ a := lt_irrefl a

theorem le_of_lt {a b : Key} (h : a < b) : a ≤ b := lt_asymm h

theorem ne_of_lt {a b : Key} (h : a < b) : a ≠ b := fun e => lt_irrefl b (e ▸ h)

theorem le_iff_lt_or_eq {a b : Key} : a ≤ b ↔ a < b ∨ a = b := by
  constructor
  · intro h
    rcases lt_or_eq_or_gt a b with hlt | heq | hgt
    · exact .inl hlt
    · exact .inr heq
    · exact absurd hgt h
  · rintro (h | rfl)
    · exact le_of_lt h
    · exact le_refl a

theorem lt_of_le_of_lt {a b c : Key} (hab : a ≤ b) (hbc : b < c) : a < c := by
  rcases le_iff_lt_or_eq.1 hab with h | rfl
  · exact lt_trans h hbc
  · exact hbc

theorem lt_of_lt_of_le {a b c : Key} (hab : a < b) (hbc : b ≤ c) : a < c := by
  rcases le_iff_lt_or_eq.1 hbc with h | rfl
  · exact lt_trans hab h
  · exact hab

end Key

end LiveSeries
