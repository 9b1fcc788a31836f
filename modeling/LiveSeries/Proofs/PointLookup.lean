import LiveSeries.Proofs.CursorMoves
import LiveSeries.Proofs.HubSubscriptions

/-!
# Point lookups

A cursor can be asked for the value at a key without being moved. Every combinator answers such a
lookup in its own way, and never by a move. Yet the answers agree with the entries of the tree: at
the key of an entry the lookup finds the value of the entry, and a tree without values between its
keys has no other answers (`Behaviour.Agrees`). Every combinator but one keeps this, by whatever
way it answers. The exception is the tree that only counts as having no values between its keys.

Since the moves of a cursor lead through the same entries, the point lookup at a key and the move to
that very key agree (`Cursor.get?_agrees_with_find`).
-/

namespace LiveSeries

/-- Of increasing entries the one nearest to a key, if only the key itself will do, is the one
there. -/
theorem nearest_eq_some_iff {entries : List Entry} (hinc : Increasing entries) {k : Key}
    {e : Entry} : nearest entries k .eq = some e ↔ e ∈ entries ∧ e.1 = k := by
  have htarget : (Motion.find k .eq).target entries none = nearest entries k .eq := rfl
  rw [← htarget, Motion.target_eq_some_iff hinc]
  constructor
  · rintro ⟨hmem, hkey, -⟩
    exact ⟨hmem, hkey⟩
  · rintro ⟨hmem, rfl⟩
    refine ⟨hmem, rfl, ?_⟩
    intro x _ hx
    have hkey : x.1 = e.1 := hx
    rw [hkey]
    exact Key.precedes_irrefl _ _

namespace Behaviour

variable {σ τ : Type}

/-- The point lookups find the values of the entries. If there are no values between the keys, they
find nothing else. -/
structure Agrees (b : Behaviour σ) (entries : List Entry) : Prop where
  at_entry : ∀ e ∈ entries, (b.get? e.1).outcome = .ok (some e.2)
  of_discrete : b.continuous = false → ∀ k v, (b.get? k).outcome = .ok (some v) →
    (k, v) ∈ entries

theorem agrees_ofSeries (s : Series) : (ofSeries s).Agrees s.store.entries := by
  have hget : ∀ k, ((ofSeries s).get? k).outcome = .ok (s.store.get? k) := fun k =>
    congrArg Except.ok (s.read_eq _)
  constructor
  · intro e he
    rw [hget, s.store.get?_eq_some_iff.mpr he]
  · intro _ k v h
    rw [hget] at h
    exact s.store.get?_eq_some_iff.mp (Except.ok.inj h)

/-! ## Changed values -/

/-- If a function does not fault on the entries, the lookups that apply it to what they find agree
with the changed entries. -/
theorem Agrees.change {b b' : Behaviour σ} {entries : List Entry} (h : b.Agrees entries)
    (hcontinuous : b'.continuous = b.continuous) {f : Key → Value → Eval Value}
    (hget : ∀ k, b'.get? k = do
      match ← b.get? k with
      | some v => some <$> f k v
      | none => return none)
    (hresult : ∀ e ∈ entries, (f e.1 e.2).outcome = .ok (resultOf (f e.1 e.2).outcome)) :
    b'.Agrees (entries.map fun e => (e.1, resultOf (f e.1 e.2).outcome)) where
  at_entry e he := by
    obtain ⟨d, hd, rfl⟩ := List.mem_map.mp he
    show (b'.get? d.1).outcome = .ok (some (resultOf (f d.1 d.2).outcome))
    rw [hget, Eval.outcome_bind, h.at_entry d hd, ok_bind]
    show (some <$> f d.1 d.2).outcome = _
    rw [Eval.outcome_map, hresult d hd]
    rfl
  of_discrete hdiscrete k w hw := by
    rw [hget, Eval.outcome_bind] at hw
    obtain ⟨answer, hanswer, hw⟩ := bind_eq_ok_iff.mp hw
    cases answer with
    | none => cases hw
    | some v =>
        have hmem : (k, v) ∈ entries := h.of_discrete (hcontinuous ▸ hdiscrete) k v hanswer
        have hchanged : (some <$> f k v).outcome = .ok (some w) := hw
        rw [Eval.outcome_map, hresult (k, v) hmem] at hchanged
        exact List.mem_map.mpr ⟨(k, v), hmem, congrArg (Prod.mk k) (Option.some.inj
          (Except.ok.inj hchanged))⟩

theorem Agrees.op {b : Behaviour σ} {entries : List Entry} (h : b.Agrees entries) (o : Operation)
    (hresult : ∀ e ∈ entries, ∃ w, (o.apply e.2).outcome = .ok w) :
    (b.op o).Agrees (entries.map fun e => (e.1, resultOf (o.apply e.2).outcome)) := by
  refine h.change (show (b.op o).continuous = b.continuous from rfl) (f := fun _ v => o.apply v)
    (fun _ => rfl) ?_
  intro e he
  obtain ⟨w, hw⟩ := hresult e he
  rw [hw, resultOf_ok]

theorem Agrees.map {b : Behaviour σ} {entries : List Entry} (h : b.Agrees entries) (f : Selector)
    (hresult : ∀ e ∈ entries, ∃ w, f e.1 e.2 = .ok w) :
    (b.map f).Agrees (entries.map fun e => (e.1, resultOf (f e.1 e.2))) := by
  refine h.change (show (b.map f).continuous = b.continuous from rfl)
    (f := fun k v => .call (f k v)) (fun _ => rfl) ?_
  intro e he
  obtain ⟨w, hw⟩ := hresult e he
  rw [Eval.outcome_call, hw, resultOf_ok]

/-! ## Values between the keys -/

section Between

variable {b : Behaviour σ} {Sound : σ → Prop} {entries : List Entry} {Kind : Value → Prop}

/-- What is carried forward to a key is the value of the last entry up to it. -/
theorem outcome_get?_carry (hb : b.Answers Sound entries Kind) (k : Key) :
    (b.carry.get? k).outcome = .ok ((nearest entries k .le).map (·.2)) := by
  show (b.find? k .le >>= _ : Eval (Option Value)).outcome = _
  rw [Eval.outcome_bind, hb.finds, ok_bind]
  cases nearest entries k .le <;> rfl

theorem Agrees.carry (hb : b.Answers Sound entries Kind) : b.carry.Agrees entries where
  at_entry e he := by
    -- no entry up to the key of `e` lies above it
    have hnearest : nearest entries e.1 .le = some e := by
      refine (Motion.target_eq_some_iff (m := .find e.1 .le) hb.increasing).mpr
        ⟨he, Key.le_refl _, ?_⟩
      intro x _ hx hlt
      exact Key.not_le.mpr hlt hx
    rw [outcome_get?_carry hb, hnearest]
    rfl
  of_discrete h := nomatch h

/-- A fixed value stands in for the answer that is missing. -/
theorem outcome_get?_fill (otherwise : Value) {k : Key} {answer : Option Value}
    (h : (b.get? k).outcome = .ok answer) :
    ((b.fill otherwise).get? k).outcome = .ok (some (answer.getD otherwise)) := by
  show (b.get? k >>= _ : Eval (Option Value)).outcome = _
  rw [Eval.outcome_bind, h, ok_bind]
  rfl

theorem Agrees.fill (h : b.Agrees entries) (otherwise : Value) :
    (b.fill otherwise).Agrees entries where
  at_entry e he := outcome_get?_fill otherwise (h.at_entry e he)
  of_discrete h := nomatch h

end Between

/-! ## Pairs -/

/-- Two point lookups make a pair if both of them answer. -/
theorem outcome_getBoth {l : Behaviour σ} {r : Behaviour τ} {k : Key}
    {left right : Option Value} (hl : (l.get? k).outcome = .ok left)
    (hr : (r.get? k).outcome = .ok right) :
    (getBoth l r k).outcome = .ok (left.bind fun v => right.map fun w => .pair v w) := by
  rw [getBoth, Eval.outcome_bind, hl, ok_bind]
  cases left with
  | none => rfl
  | some v =>
      rw [Eval.outcome_bind, hr, ok_bind]
      cases right <;> rfl

/-- A pair is made of two answers. -/
theorem pair_eq_some_iff {left right : Option Value} {u : Value} :
    (left.bind fun v => right.map fun w => Value.pair v w) = some u ↔
      ∃ v w, left = some v ∧ right = some w ∧ u = .pair v w := by
  cases left <;> cases right <;> simp [eq_comm]

section Zip

variable {l : Behaviour σ} {r : Behaviour τ} {SoundL : σ → Prop} {SoundR : τ → Prop}
  {left right : List Entry} {KindL KindR : Value → Prop}

/-- The value that one side of a zip has at a key is what its point lookup finds there, also where
the side stands at an entry. -/
theorem Agrees.valueAt_eq_some_iff (h : l.Agrees left) (hl : l.Answers SoundL left KindL) {k : Key}
    {v : Value} : l.valueAt left k = some v ↔ (l.get? k).outcome = .ok (some v) := by
  unfold valueAt
  cases hlookup : left.lookup k with
  | some w =>
      have hget := h.at_entry (k, w) ((lookup_eq_some_iff_mem hl.increasing).mp hlookup)
      rw [hget]
      exact ⟨congrArg Except.ok, Except.ok.inj⟩
  | none =>
      cases hcontinuous : l.continuous with
      | true =>
          obtain ⟨answer, hanswer, -⟩ := hl.gets k
          rw [hanswer]
          exact ⟨congrArg Except.ok, Except.ok.inj⟩
      | false =>
          refine ⟨nofun, fun hget => ?_⟩
          have hmem := h.of_discrete hcontinuous k v hget
          rw [(lookup_eq_some_iff_mem hl.increasing).mpr hmem] at hlookup
          cases hlookup

theorem Agrees.zip (h : l.Agrees left) (h' : r.Agrees right) (hl : l.Answers SoundL left KindL)
    (hr : r.Answers SoundR right KindR) : (l.zip r).Agrees (l.zipEntries r left right) where
  at_entry e he := by
    obtain ⟨-, v, w, hv, hw, hpair⟩ := mem_zipEntries.mp he
    show (getBoth l r e.1).outcome = _
    rw [outcome_getBoth ((h.valueAt_eq_some_iff hl).mp hv) ((h'.valueAt_eq_some_iff hr).mp hw),
      hpair]
    rfl
  of_discrete hdiscrete k u hu := by
    obtain ⟨a, ha, -⟩ := hl.gets k
    obtain ⟨a', ha', -⟩ := hr.gets k
    have hboth : (getBoth l r k).outcome = .ok (some u) := hu
    rw [outcome_getBoth ha ha'] at hboth
    obtain ⟨v, w, rfl, rfl, rfl⟩ := pair_eq_some_iff.mp (Except.ok.inj hboth)
    refine mem_zipEntries.mpr ⟨?_, v, w, (h.valueAt_eq_some_iff hl).mpr ha,
      (h'.valueAt_eq_some_iff hr).mpr ha', rfl⟩
    -- one of the sides has no values between its keys, so the key is one of that side
    have hside : (l.continuous && r.continuous) = false := hdiscrete
    rcases Bool.and_eq_false_iff.mp hside with hleft | hright
    · exact .inl (mem_keysOf.mpr ⟨v, h.of_discrete hleft k v ha⟩)
    · exact .inr (mem_keysOf.mpr ⟨w, h'.of_discrete hright k w ha'⟩)

end Zip

end Behaviour

namespace Tree

variable {sources : Sources}

/-- Every tree that does not merely count as having no values between its keys agrees with its
entries, one combinator after the other. -/
theorem agrees {t : Tree} (hplain : t.Plain) (htotal : t.Total sources) :
    (t.behaviour sources).Agrees (t.entries sources) := by
  induction t with
  | series id => exact Behaviour.agrees_ofSeries (sources id)
  | op t o ih =>
      have hkind := (answers sources htotal.1).kind
      exact (ih hplain htotal.1).op o fun e he => htotal.2 e.2 (hkind e he)
  | map t f ih =>
      have hkind := (answers sources htotal.1).kind
      exact (ih hplain htotal.1).map f fun e he => htotal.2 e.1 e.2 (hkind e he)
  | zip l r ihl ihr =>
      exact (ihl hplain.1 htotal.1).zip (ihr hplain.2 htotal.2) (answers sources htotal.1)
        (answers sources htotal.2)
  | carry t ih => exact .carry (answers sources htotal)
  | fill t otherwise ih => exact (ih hplain htotal).fill otherwise
  | refuse t ih => exact hplain.elim

end Tree

namespace Cursor

variable (sources : Sources)

theorem isReady_fresh (c : Cursor) : ((c.fresh sources).state sources).isReady = true :=
  congrArg Stage.isReady (c.tree.steady sources).fresh_state

/-- A fresh cursor lands at a key if its tree has an entry there, and shows that entry. -/
theorem find_of_mem {c : Cursor} (htotal : c.tree.Total sources) {e : Entry}
    (he : e ∈ c.tree.entries sources) :
    ((c.fresh sources).move sources (.find e.1 .eq)).2.outcome = .ok true ∧
      ((c.fresh sources).move sources (.find e.1 .eq)).1.Shows sources e := by
  have hanswers := Tree.answers sources htotal
  have htarget := (nearest_eq_some_iff hanswers.increasing).mpr ⟨he, rfl⟩
  obtain ⟨hlanded, hstands⟩ := hanswers.walks.lands (.find e.1 .eq) _ e
    hanswers.steady.fresh_sound (isReady_fresh sources c) htarget
  exact ⟨hlanded, shows_of_standsOn sources hstands⟩

/-- A fresh cursor does not land at a key at which its tree has no entry. -/
theorem find_of_not_mem {c : Cursor} (htotal : c.tree.Total sources) {k : Key}
    (hk : ∀ v, (k, v) ∉ c.tree.entries sources) :
    ((c.fresh sources).move sources (.find k .eq)).2.outcome = .ok false := by
  have hanswers := Tree.answers sources htotal
  have htarget : nearest (c.tree.entries sources) k .eq = none := by
    refine Option.eq_none_iff_forall_ne_some.mpr fun e he => ?_
    obtain ⟨hmem, rfl⟩ := (nearest_eq_some_iff hanswers.increasing).mp he
    exact hk e.2 hmem
  exact (hanswers.walks.stays (.find k .eq) _ hanswers.steady.fresh_sound (isReady_fresh sources c)
    htarget).1

/-- If a fresh cursor lands at a key, the point lookup there finds the value at which it landed, and
where there are no values between the keys it finds a value only then. Carried forward, the value
at a key is that of the last entry up to the key; filled, it is what the inner cursor finds or else
the fixed value; and a zip finds the pair of what both of its sides find. -/
theorem get?_agrees_with_find {c : Cursor} (hplain : c.tree.Plain) (htotal : c.tree.Total sources)
    (k : Key) :
    ∃ landed answer,
      ((c.fresh sources).move sources (.find k .eq)).2.outcome = .ok landed ∧
      (c.get? sources k).outcome = .ok answer ∧
      (landed = true → ∃ v, answer = some v ∧
        ((c.fresh sources).move sources (.find k .eq)).1.Shows sources (k, v)) ∧
      (c.isContinuous sources = false → answer.isSome = true → landed = true) ∧
      (c.carry.get? sources k).outcome =
        .ok ((nearest (c.tree.entries sources) k .le).map (·.2)) ∧
      (∀ otherwise, ((c.fill otherwise).get? sources k).outcome =
        .ok (some (answer.getD otherwise))) ∧
      ∀ d : Cursor, d.tree.Total sources →
        ∃ answer', (d.get? sources k).outcome = .ok answer' ∧
          ((c.zip sources d).get? sources k).outcome =
            .ok (answer.bind fun v => answer'.map fun w => .pair v w) := by
  have hanswers := Tree.answers sources htotal
  have hagrees := Tree.agrees hplain htotal
  obtain ⟨answer, hget, -⟩ := hanswers.gets k
  have hcarry := Behaviour.outcome_get?_carry hanswers k
  have hfill := fun otherwise => Behaviour.outcome_get?_fill otherwise hget
  have hzip : ∀ d : Cursor, d.tree.Total sources →
      ∃ answer', (d.get? sources k).outcome = .ok answer' ∧
        ((c.zip sources d).get? sources k).outcome =
          .ok (answer.bind fun v => answer'.map fun w => .pair v w) := by
    intro d hd
    obtain ⟨answer', hget', -⟩ := (Tree.answers sources hd).gets k
    exact ⟨answer', hget', Behaviour.outcome_getBoth hget hget'⟩
  by_cases hk : ∃ v, (k, v) ∈ c.tree.entries sources
  · obtain ⟨v, hv⟩ := hk
    obtain ⟨hlanded, hshows⟩ := find_of_mem sources htotal hv
    have hvalue : answer = some v := Except.ok.inj (hget.symm.trans (hagrees.at_entry (k, v) hv))
    exact ⟨true, answer, hlanded, hget, fun _ => ⟨v, hvalue, hshows⟩, fun _ _ => rfl, hcarry,
      hfill, hzip⟩
  · have hlanded := find_of_not_mem sources htotal (k := k) fun v hv => hk ⟨v, hv⟩
    refine ⟨false, answer, hlanded, hget, nofun, ?_, hcarry, hfill, hzip⟩
    intro hdiscrete hsome
    obtain ⟨v, rfl⟩ := Option.isSome_iff_exists.mp hsome
    exact absurd ⟨v, hagrees.of_discrete hdiscrete k v hget⟩ hk

/-- At the key 3 of the first series the second one has the value that it carries on from 2. -/
theorem get?_at_key_of_one_side :
    ((((ofSeries 0).zip twoSeries (ofSeries 1).carry).fresh twoSeries).move twoSeries
        (.find (.int 3) .eq)).2.outcome = .ok true ∧
      (((ofSeries 0).zip twoSeries (ofSeries 1).carry).get? twoSeries (.int 3)).outcome =
        .ok (some (.pair (.int 30) (.int 20))) ∧
      ((((ofSeries 0).zip twoSeries (ofSeries 1).carry).zip twoSeries (ofSeries 1)).get? twoSeries
        (.int 3)).outcome = .ok none := by
  obtain ⟨landed, answer, hmove, hget, hlands, hdiscrete, -, -, hzip⟩ := get?_agrees_with_find
    twoSeries (c := (ofSeries 0).zip twoSeries (ofSeries 1).carry) ⟨trivial, trivial⟩
    ⟨trivial, trivial⟩ (.int 3)
  have hanswer : answer = some (.pair (.int 30) (.int 20)) :=
    (Except.ok.inj hget).symm.trans rfl
  subst hanswer
  obtain rfl : landed = true := hdiscrete rfl rfl
  obtain ⟨answer', hget', hboth⟩ := hzip (ofSeries 1) trivial
  have hmissing : answer' = none := (Except.ok.inj hget').symm.trans rfl
  subst hmissing
  exact ⟨hmove, hget, hboth⟩

end Cursor

end LiveSeries
