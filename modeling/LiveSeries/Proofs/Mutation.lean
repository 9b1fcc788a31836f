import LiveSeries.Command

/-!
# What mutations do to those who wait

Every mutation of a series either changes nothing that a cursor can see, and tells nobody, or it
notifies the registry (`effect_mutation`). There is no third kind, and this is all that waiting
needs to know of mutations.
-/

namespace LiveSeries

/-- A mutation of a series, made directly or by a command. -/
inductive Mutation where
  | set (k : Key) (v : Value)
  | add (k : Key) (v : Value)
  | addFirst (k : Key) (v : Value)
  | addLast (k : Key) (v : Value)
  | tryAdd (k : Key) (v : Value)
  | remove (k : Key)
  | removeMany (k : Key) (lookup : Lookup)
  | append (entries : List Entry) (option : OverlapRule)
  | complete
  | command (c : StampedCommand)

/-- The write without its answer. -/
def Write.discard {α : Type} (w : Write α) : Write Unit :=
  { result := w.result.map fun _ => ()
    series := w.series
    events := w.events
    notice := w.notice }

/-- The write of a mutation. -/
def Mutation.write (s : Series) : Mutation → Write Unit
  | .set k v => (s.set k v).discard
  | .add k v => s.add k v
  | .addFirst k v => s.addFirst k v
  | .addLast k v => s.addLast k v
  | .tryAdd k v => (s.tryAdd k v).discard
  | .remove k => (s.remove k).discard
  | .removeMany k lookup => (s.removeMany k lookup).discard
  | .append entries option => (s.append entries option).discard
  | .complete => s.complete.discard
  | .command c => (s.apply c).discard

theorem Write.discard_eq (w : Write Unit) : w.discard = w := by
  obtain ⟨_ | _, _, _, _⟩ := w <;> rfl

/-- A mutation is a write, or is refused before it is one, or completes the series, or is a
command. -/
inductive Mutation.Kind (s : Series) : Mutation → Prop where
  | write {m : Mutation} {α : Type} (f : Store → Except Refusal (Change α))
      (is : m.write s = (s.write f).discard) : Kind s m
  | refused {m : Mutation} (r : Refusal)
      (is : m.write s = { result := .error (.refused r), series := s }) : Kind s m
  | complete : Kind s .complete
  | command (c : StampedCommand) : Kind s (.command c)

theorem Mutation.kind (s : Series) (m : Mutation) : m.Kind s := by
  cases m with
  | set k v => exact .write _ rfl
  | add k v => exact .write _ (Write.discard_eq _).symm
  | addFirst k v => exact .write _ (Write.discard_eq _).symm
  | addLast k v => exact .write _ (Write.discard_eq _).symm
  | tryAdd k v => exact .write _ rfl
  | remove k => exact .write _ rfl
  | removeMany k lookup => exact .write _ rfl
  | append entries option =>
      -- entries that do not increase are refused before the gate is entered
      by_cases hincreases : increases entries = true
      · refine .write (fun store => store.append entries option) ?_
        rw [Mutation.write, Series.append, if_pos hincreases]
      · refine .refused .outOfOrder ?_
        rw [Mutation.write, Series.append, if_neg hincreases]
        rfl
  | complete => exact .complete
  | command c => exact .command c

namespace Series

/-- What a write did to its series. -/
inductive Effect {α : Type} (s : Series) (w : Write α) : Prop where
  /-- Nothing changed that could be seen. -/
  | quiet (notice : w.notice = none) (store : w.series.store = s.store)
      (completed : w.series.isCompleted = s.isCompleted) (registry : w.series.registry = s.registry)
  /-- The registry was notified. -/
  | loud (force : Bool) (notice : w.notice = some (s.registry.notify force).1)
      (registry : w.series.registry = (s.registry.notify force).2)

theorem isCompleted_giveUp {s : Series} {g : Gate} (h : s.gate.enter = .ok g) :
    (s.giveUp g).isCompleted = s.isCompleted := by
  obtain ⟨-, -, rfl⟩ := Gate.of_enter h
  rfl

variable {α : Type} (s : Series)

theorem effect_write (f : Store → Except Refusal (Change α)) : Effect s (s.write f) := by
  unfold write
  split
  · exact .quiet rfl rfl rfl rfl
  · next gate henter =>
      split
      · exact .quiet rfl rfl (isCompleted_giveUp henter) rfl
      · exact .quiet rfl rfl (isCompleted_giveUp henter) rfl
      · exact .loud false rfl rfl

theorem effect_writeAs (version : Nat) (f : Store → Except Refusal (Change α)) :
    Effect s (s.writeAs version f) := by
  unfold writeAs
  split
  · exact .quiet rfl rfl rfl rfl
  · next gate henter =>
      split
      · exact .quiet rfl rfl (isCompleted_giveUp henter) rfl
      · split
        · exact .quiet rfl rfl (isCompleted_giveUp henter) rfl
        · split
          · exact .quiet rfl rfl (isCompleted_giveUp henter) rfl
          · exact .loud false rfl rfl

theorem effect_complete : Effect s s.complete := by
  unfold complete
  split
  · exact .quiet rfl rfl rfl rfl
  · exact .quiet rfl rfl rfl rfl
  · exact .loud true rfl rfl

/-- The effect of a write is in its series and its notification only. -/
theorem Effect.congr {s : Series} {β : Type} {w : Write α} {w' : Write β} (h : Effect s w)
    (hseries : w'.series = w.series) (hnotice : w'.notice = w.notice) : Effect s w' := by
  cases h with
  | quiet notice store completed registry =>
      exact .quiet (hnotice.trans notice) (hseries ▸ store) (hseries ▸ completed)
        (hseries ▸ registry)
  | loud force notice registry =>
      exact .loud force (hnotice.trans notice) (hseries ▸ registry)

theorem Effect.discard {s : Series} {w : Write α} (h : Effect s w) : Effect s w.discard :=
  h.congr rfl rfl

theorem effect_perform (version : Nat) (c : Command) : Effect s (s.perform version c) := by
  have hversioned : ∀ {β : Type} (f : Store → Except Refusal (Change β)),
      Effect s (asApplied version (s.writeAs version f)) := fun f =>
    (effect_writeAs s version f).congr rfl rfl
  cases c with
  | set k v => exact hversioned _
  | append entries option =>
      simp only [perform]
      split
      · exact hversioned _
      · exact .quiet rfl rfl rfl rfl
  | remove k lookup => exact hversioned _
  | complete => exact (effect_complete s).congr rfl rfl

theorem effect_apply (c : StampedCommand) : Effect s (s.apply c) := by
  unfold apply
  dsimp only
  split
  · exact .quiet rfl rfl rfl rfl
  · split
    · exact .quiet rfl rfl rfl rfl
    · exact (effect_perform s c.version c.command).congr rfl rfl

/-- Every mutation is quiet or notifies. -/
theorem effect_mutation (m : Mutation) : Effect s (m.write s) := by
  cases m.kind s with
  | write f is =>
      rw [is]
      exact (effect_write s f).discard
  | refused r is =>
      rw [is]
      exact .quiet rfl rfl rfl rfl
  | complete => exact (effect_complete s).discard
  | command c => exact (effect_apply s c).discard

end Series

end LiveSeries
