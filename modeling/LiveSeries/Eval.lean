import LiveSeries.Fault

/-!
# Lazy evaluation

The values of a cursor are computed when they are asked for, by functions that may fault. An
evaluation is what came out, together with how many functions supplied by the user were called
on the way; the count stands also when the evaluation faulted.
-/

namespace LiveSeries

/-- The outcome of an evaluation and the number of calls it took. -/
structure Eval (α : Type) where
  outcome : Except Fault α
  calls : Nat := 0

namespace Eval

variable {α β : Type}

protected def pure (a : α) : Eval α := ⟨.ok a, 0⟩

protected def bind (x : Eval α) (f : α → Eval β) : Eval β :=
  match x.outcome with
  | .error e => ⟨.error e, x.calls⟩
  | .ok a => ⟨(f a).outcome, x.calls + (f a).calls⟩

instance : Monad Eval where
  pure := Eval.pure
  bind := Eval.bind

/-- A fault. -/
def fault (e : Fault) : Eval α := ⟨.error e, 0⟩

/-- A result that took no call. -/
def lift (x : Except Fault α) : Eval α := ⟨x, 0⟩

/-- The result of one call of a function. -/
def call (x : Except Fault α) : Eval α := ⟨x, 1⟩

@[simp] theorem outcome_pure (a : α) : (pure a : Eval α).outcome = .ok a := rfl

/-- What comes out does not depend on the count. -/
@[simp] theorem outcome_bind (x : Eval α) (f : α → Eval β) :
    (x >>= f).outcome = x.outcome >>= fun a => (f a).outcome := by
  cases x with
  | mk outcome calls => cases outcome <;> rfl

@[simp] theorem outcome_fault (e : Fault) : (fault e : Eval α).outcome = .error e := rfl

@[simp] theorem outcome_lift (x : Except Fault α) : (lift x).outcome = x := rfl

@[simp] theorem outcome_call (x : Except Fault α) : (call x).outcome = x := rfl

end Eval

end LiveSeries
