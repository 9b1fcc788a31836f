import LiveSeries.Proofs.ZipAlgebra

/-!
# Value transforms commute with the other combinators

A combinator that changes values can stand before or after another combinator. Two functions of key
and value that follow one another are one function, a function on one side of a zip is one on the
left of its pairs, and a transform that does not look at the key can be applied before or after
values are carried forward or filled in. However the transforms of a cursor are shifted in this way,
anywhere in its tree, nobody can tell from its use (`Cursor.twins_of_shifted`).

The ways that the two cursors go are different ones. A zip holds the values that it found, while a
transform computes anew whenever it is asked; between its keys a side of a zip is asked for the key
of the other side, while an entry is transformed under its own key. What they share is the entries
and the answers to lookups (`Tree.Same`), and that is all that a use depends on.
-/

namespace LiveSeries

/-! ## Functions of key and value -/

namespace Selector

/-- One function after the other, under one key. -/
def andThen (f g : Selector) : Selector := fun k v => f k v >>= g k

/-- The function on the left sides of pairs. -/
def onLeft (f : Selector) : Selector
  | k, .pair v w => (f k v).map fun u => .pair u w
  | _, v => .ok v

end Selector

/-- A transform that does not look at the key. -/
inductive Transform where
  | operation (o : Operation)
  | function (f : Value → Except Fault Value)

/-- What a transform makes of a value. -/
def Transform.result : Transform → Value → Except Fault Value
  | .operation o, v => (o.apply v).outcome
  | .function f, v => f v

/-- The tree with a transform applied to every value. -/
def Tree.transform (t : Tree) : Transform → Tree
  | .operation o => .op t o
  | .function f => .map t fun _ v => f v

/-- The cursor with a transform applied to every value. -/
def Cursor.transform (c : Cursor) : Transform → Cursor
  | .operation o => c.op o
  | .function f => c.map fun _ v => f v

theorem Eval.outcome_bind_congr {α β : Type} {x y : Eval α} (h : y.outcome = x.outcome)
    (f : α → Eval β) : (y >>= f).outcome = (x >>= f).outcome := by
  rw [Eval.outcome_bind, Eval.outcome_bind, h]

/-- A lookup that changes what another one finds, by a function that does not fault on it. -/
theorem Behaviour.outcome_get?_change {σ : Type} {b b' : Behaviour σ} {f : Key → Value → Eval Value}
    {k : Key}
    (hchange : b'.get? k = do
      match ← b.get? k with
      | some v => some <$> f k v
      | none => return none)
    {answer : Option Value} (hget : (b.get? k).outcome = .ok answer)
    (hresult : ∀ v, answer = some v → ∃ w, (f k v).outcome = .ok w) :
    (b'.get? k).outcome = .ok (answer.map fun v => resultOf (f k v).outcome) := by
  rw [hchange, Eval.outcome_bind, hget, ok_bind]
  cases answer with
  | none => rfl
  | some v =>
      obtain ⟨w, hw⟩ := hresult v rfl
      show (some <$> f k v).outcome = .ok (some (resultOf (f k v).outcome))
      rw [Eval.outcome_map, hw]
      rfl

namespace Tree

variable {sources : Sources} {t u l r l' r' : Tree}

/-! ## Lookups in changed trees -/

theorem yields_of_get? (h : t.Total sources) {k : Key} {v : Value}
    (hget : ((t.behaviour sources).get? k).outcome = .ok (some v)) : t.Yields sources v := by
  obtain ⟨answer, hanswer, hyields⟩ := (answers sources h).gets k
  exact hyields v (Except.ok.inj (hanswer.symm.trans hget))

theorem outcome_get?_map {f : Selector} (h : (map t f).Total sources) {k : Key}
    {answer : Option Value} (hget : ((t.behaviour sources).get? k).outcome = .ok answer) :
    (((map t f).behaviour sources).get? k).outcome =
      .ok (answer.map fun v => resultOf (f k v)) := by
  refine Behaviour.outcome_get?_change (f := fun k v => .call (f k v)) rfl hget ?_
  rintro v rfl
  exact h.2 k v (yields_of_get? h.1 hget)

section Transform

variable {o : Transform}

theorem total_transform_iff : (t.transform o).Total sources ↔
    t.Total sources ∧ ∀ v, t.Yields sources v → ∃ w, o.result v = .ok w := by
  cases o with
  | operation o => exact Iff.rfl
  | function f =>
      refine and_congr_right fun _ => ?_
      exact ⟨fun h v => h (.int 0) v, fun h _ v => h v⟩

theorem entries_transform (t : Tree) (o : Transform) :
    (t.transform o).entries sources =
      (t.entries sources).map fun e => (e.1, resultOf (o.result e.2)) := by
  cases o <;> rfl

theorem outcome_get?_transform (h : (t.transform o).Total sources) {k : Key}
    {answer : Option Value} (hget : ((t.behaviour sources).get? k).outcome = .ok answer) :
    (((t.transform o).behaviour sources).get? k).outcome =
      .ok (answer.map fun v => resultOf (o.result v)) := by
  cases o with
  | function f => exact outcome_get?_map h hget
  | operation o =>
      refine Behaviour.outcome_get?_change (f := fun _ v => o.apply v) rfl hget ?_
      rintro v rfl
      exact h.2 v (yields_of_get? h.1 hget)

end Transform

/-! ## Trees that answer the same -/

/-- The trees have the same entries, and the same answers to lookups. -/
structure Same (sources : Sources) (t u : Tree) : Prop where
  entries : u.entries sources = t.entries sources
  gets : ∀ k, ((u.behaviour sources).get? k).outcome = ((t.behaviour sources).get? k).outcome
  continuous : (u.behaviour sources).continuous = (t.behaviour sources).continuous
  completed : (u.behaviour sources).completed = (t.behaviour sources).completed

namespace Same

theorem refl (sources : Sources) (t : Tree) : t.Same sources t :=
  ⟨rfl, fun _ => rfl, rfl, rfl⟩

theorem symm (h : t.Same sources u) : u.Same sources t :=
  ⟨h.entries.symm, fun k => (h.gets k).symm, h.continuous.symm, h.completed.symm⟩

theorem trans {v : Tree} (h : t.Same sources u) (h' : u.Same sources v) : t.Same sources v where
  entries := h'.entries.trans h.entries
  gets k := (h'.gets k).trans (h.gets k)
  continuous := h'.continuous.trans h.continuous
  completed := h'.completed.trans h.completed

/-- Where no function faults, a tree is the image of another one that answers the same. -/
theorem image (h : t.Same sources u) (ht : t.Total sources) (hu : u.Total sources) :
    t.Image sources id u where
  total := ht
  total_image := hu
  entries := by
    rw [h.entries]
    exact (List.map_id _).symm
  gets k := by
    obtain ⟨answer, hanswer, -⟩ := (answers sources ht).gets k
    rw [h.gets, hanswer]
    exact congrArg Except.ok Option.map_id'.symm
  continuous := h.continuous
  completed := h.completed

/-! ### In the same surroundings -/

theorem op (h : t.Same sources u) (o : Operation) : (Tree.op t o).Same sources (Tree.op u o) where
  entries := by rw [Tree.entries, h.entries, Tree.entries]
  gets k := Eval.outcome_bind_congr (h.gets k) _
  continuous := h.continuous
  completed := h.completed

theorem map (h : t.Same sources u) (f : Selector) : (Tree.map t f).Same sources (Tree.map u f) where
  entries := by rw [Tree.entries, h.entries, Tree.entries]
  gets k := Eval.outcome_bind_congr (h.gets k) _
  continuous := h.continuous
  completed := h.completed

/-- What is carried forward is found among the entries. -/
theorem carry (h : t.Same sources u) (ht : t.Total sources) (hu : u.Total sources) :
    (Tree.carry t).Same sources (Tree.carry u) where
  entries := h.entries
  gets k := by
    have hfinds := (answers sources hu).finds k .le
    rw [h.entries, ← (answers sources ht).finds k .le] at hfinds
    exact Eval.outcome_bind_congr hfinds _
  continuous := rfl
  completed := h.completed

theorem fill (h : t.Same sources u) (otherwise : Value) :
    (Tree.fill t otherwise).Same sources (Tree.fill u otherwise) where
  entries := h.entries
  gets k := Eval.outcome_bind_congr (h.gets k) _
  continuous := rfl
  completed := h.completed

theorem refuse (h : t.Same sources u) : (Tree.refuse t).Same sources (Tree.refuse u) where
  entries := h.entries
  gets := h.gets
  continuous := rfl
  completed := h.completed

theorem valueAt (h : t.Same sources u) (k : Key) : u.valueAt sources k = t.valueAt sources k := by
  rw [Tree.valueAt, Behaviour.valueAt, h.entries, h.continuous, h.gets]
  rfl

theorem zip (hl : l.Same sources l') (hr : r.Same sources r') :
    (Tree.zip l r).Same sources (Tree.zip l' r') where
  entries := by
    show pairEntries (unionKeys (keysOf (l'.entries sources)) (keysOf (r'.entries sources)))
      (l'.valueAt sources) (r'.valueAt sources) = _
    rw [hl.entries, hr.entries, funext hl.valueAt, funext hr.valueAt]
    rfl
  gets k := by
    show (Behaviour.getBoth (l'.behaviour sources) (r'.behaviour sources) k).outcome =
      (Behaviour.getBoth (l.behaviour sources) (r.behaviour sources) k).outcome
    rw [Behaviour.getBoth, Behaviour.getBoth, Eval.outcome_bind, Eval.outcome_bind, hl.gets]
    refine congrArg (_ >>= ·) (funext fun answer => ?_)
    cases answer with
    | none => rfl
    | some v => exact Eval.outcome_bind_congr (hr.gets k) _
  continuous := by
    show (_ && _) = (_ && _)
    rw [hl.continuous, hr.continuous]
  completed := by
    show (_ && _) = (_ && _)
    rw [hl.completed, hr.completed]

end Same

/-! ## Shifted transforms -/

theorem continuous_map (t : Tree) (f : Selector) :
    ((map t f).behaviour sources).continuous = (t.behaviour sources).continuous := rfl

theorem continuous_zip (l r : Tree) : ((zip l r).behaviour sources).continuous =
    ((l.behaviour sources).continuous && (r.behaviour sources).continuous) := rfl

theorem completed_map (t : Tree) (f : Selector) :
    ((map t f).behaviour sources).completed = (t.behaviour sources).completed := rfl

theorem completed_zip (l r : Tree) : ((zip l r).behaviour sources).completed =
    ((l.behaviour sources).completed && (r.behaviour sources).completed) := rfl

theorem keys_map (t : Tree) (f : Selector) : (map t f).keys sources = t.keys sources := by
  simp [keys, keysOf, entries]

/-- The values of a changed tree, as the side of a zip, are changed under the key of the zip. -/
theorem valueAt_map {f : Selector} (h : (map t f).Total sources) (k : Key) :
    (map t f).valueAt sources k = (t.valueAt sources k).map fun v => resultOf (f k v) := by
  by_cases hk : k ∈ t.keys sources
  · obtain ⟨v, hv⟩ := mem_keysOf.mp hk
    have hchanged : (k, resultOf (f k v)) ∈ (map t f).entries sources :=
      List.mem_map.mpr ⟨(k, v), hv, rfl⟩
    rw [valueAt, valueAt, Behaviour.valueAt_of_mem (t.increasing_entries sources) hv,
      Behaviour.valueAt_of_mem ((map t f).increasing_entries sources) hchanged]
    rfl
  · obtain ⟨answer, hanswer, -⟩ := (answers sources h.1).gets k
    have hk' : k ∉ keysOf ((map t f).entries sources) := by
      rw [← keys, keys_map]
      exact hk
    rw [valueAt, valueAt, Behaviour.valueAt_of_not_mem hk, Behaviour.valueAt_of_not_mem hk',
      outcome_get?_map h hanswer, hanswer, continuous_map]
    cases (t.behaviour sources).continuous <;> rfl

/-- Two functions that follow one another are one function. -/
theorem same_andThen {f g : Selector} (h : (map (map t f) g).Total sources)
    (h' : (map t (f.andThen g)).Total sources) :
    (map (map t f) g).Same sources (map t (f.andThen g)) where
  entries := by
    simp only [entries, List.map_map]
    refine List.map_congr_left fun e he => ?_
    obtain ⟨w, hw⟩ := h.1.2 e.1 e.2 ((answers sources h.1.1).kind e he)
    simp [Selector.andThen, hw, ok_bind]
  gets k := by
    obtain ⟨answer, hanswer, hyields⟩ := (answers sources h.1.1).gets k
    rw [outcome_get?_map h' hanswer, outcome_get?_map h (outcome_get?_map h.1 hanswer)]
    cases answer with
    | none => rfl
    | some v =>
        obtain ⟨w, hw⟩ := h.1.2 k v (hyields v rfl)
        simp [Selector.andThen, hw, ok_bind]
  continuous := rfl
  completed := rfl

/-- A function that does not fault on the left sides changes the left sides only. -/
theorem map_onLeft_pairOf {f : Selector} {k : Key} {a b : Option Value}
    (h : ∀ v, a = some v → ∃ w, f k v = .ok w) :
    pairOf (a.map fun v => resultOf (f k v)) b =
      (pairOf a b).map fun u => resultOf (f.onLeft k u) := by
  cases a with
  | none => rfl
  | some v =>
      obtain ⟨w, hw⟩ := h v rfl
      cases b with
      | none => rfl
      | some u => simp [pairOf, Selector.onLeft, hw, Except.map]

/-- A function on one side of a zip is one on the left of its pairs. -/
theorem same_onLeft {f : Selector} (h : (zip (map l f) r).Total sources)
    (h' : (map (zip l r) f.onLeft).Total sources) :
    (zip (map l f) r).Same sources (map (zip l r) f.onLeft) where
  entries := by
    have hl := answers sources h.1.1
    refine (entries_zip_eq_map (f := fun k v => resultOf (f.onLeft k v)) h'.1 h ?_ ?_).symm
    · intro k
      rw [valueAt_zip h.1 h.2, valueAt_zip h'.1.1 h'.1.2, valueAt_map h.1]
      exact map_onLeft_pairOf fun v hv => h.1.2 k v (hl.kind_valueAt hv)
    · intro k v _
      rw [keys_map]
  gets k := by
    obtain ⟨answer, hanswer, hyields⟩ := (answers sources h.1.1).gets k
    obtain ⟨answer', hanswer', -⟩ := (answers sources h.2).gets k
    rw [outcome_get?_map h' (outcome_get?_zip hanswer hanswer'),
      outcome_get?_zip (outcome_get?_map h.1 hanswer) hanswer',
      map_onLeft_pairOf fun v hv => h.1.2 k v (hyields v hv)]
  continuous := by rw [continuous_map, continuous_zip, continuous_zip, continuous_map]
  completed := by rw [completed_map, completed_zip, completed_zip, completed_map]

/-- What is carried forward may be transformed before or after. -/
theorem same_carry {o : Transform} (h : (carry (t.transform o)).Total sources)
    (h' : ((carry t).transform o).Total sources) :
    (carry (t.transform o)).Same sources ((carry t).transform o) where
  entries := by
    show _ = (t.transform o).entries sources
    rw [entries_transform, entries_transform]
    rfl
  gets k := by
    have ht := (total_transform_iff.mp h).1
    have hcarried := Behaviour.outcome_get?_carry (answers sources ht) k
    have hinner : (t.transform o).Total sources := h
    have hcarried' := Behaviour.outcome_get?_carry (answers sources hinner) k
    have hnearest := nearest_map (f := fun e => (e.1, resultOf (o.result e.2))) (fun _ => rfl)
      (t.entries sources) k .le
    rw [← entries_transform] at hnearest
    refine (outcome_get?_transform h' hcarried).trans (Eq.trans ?_ hcarried'.symm)
    rw [hnearest, Option.map_map, Option.map_map]
    rfl
  continuous := by cases o <;> rfl
  completed := by cases o <;> rfl

/-- What is filled in may be transformed before or after, if it is transformed itself. -/
theorem same_fill {o : Transform} {x y : Value} (hxy : o.result x = .ok y)
    (h : (fill (t.transform o) y).Total sources) (h' : ((fill t x).transform o).Total sources) :
    (fill (t.transform o) y).Same sources ((fill t x).transform o) where
  entries := by
    show _ = (t.transform o).entries sources
    rw [entries_transform, entries_transform]
    rfl
  gets k := by
    obtain ⟨answer, hanswer, -⟩ := (answers sources (total_transform_iff.mp h).1).gets k
    have hfilled := Behaviour.outcome_get?_fill x hanswer
    have hfilled' := Behaviour.outcome_get?_fill y (outcome_get?_transform h hanswer)
    refine (outcome_get?_transform h' hfilled).trans (Eq.trans ?_ hfilled'.symm)
    cases answer with
    | none =>
        show Except.ok (some (resultOf (o.result x))) = .ok (some y)
        rw [hxy, resultOf_ok]
    | some v => rfl
  continuous := by cases o <;> rfl
  completed := by cases o <;> rfl

end Tree

namespace Cursor

/-- The second cursor comes from the first by shifting transforms, anywhere in its tree. The four laws
start from any cursors that come about. What is built around them is built in the same way, and may
be used before it is built upon. -/
inductive Shifted : Cursor → Cursor → Prop where
  | andThen {c : Cursor} (f g : Selector) : c.Reachable →
      Shifted ((c.map f).map g) (c.map (f.andThen g))
  | onLeft {l r : Cursor} (f : Selector) (made : Sources) : l.Reachable → r.Reachable →
      Shifted ((l.map f).zip made r) ((l.zip made r).map f.onLeft)
  | transformCarry {c : Cursor} (o : Transform) : c.Reachable →
      Shifted (c.transform o).carry (c.carry.transform o)
  | transformFill {c : Cursor} (o : Transform) {x y : Value} : c.Reachable → o.result x = .ok y →
      Shifted ((c.transform o).fill y) ((c.fill x).transform o)
  | refl {c : Cursor} : c.Reachable → Shifted c c
  | symm {c d : Cursor} : Shifted c d → Shifted d c
  | trans {c d e : Cursor} : Shifted c d → (∀ sources, d.tree.Total sources) → Shifted d e →
      Shifted c e
  | op {c d : Cursor} (o : Operation) : Shifted c d → Shifted (c.op o) (d.op o)
  | map {c d : Cursor} (f : Selector) : Shifted c d → Shifted (c.map f) (d.map f)
  | zip {l r l' r' : Cursor} (made : Sources) : Shifted l l' → Shifted r r' →
      Shifted (l.zip made r) (l'.zip made r')
  | carry {c d : Cursor} : Shifted c d → Shifted c.carry d.carry
  | fill {c d : Cursor} (otherwise : Value) : Shifted c d →
      Shifted (c.fill otherwise) (d.fill otherwise)
  | refuse {c d : Cursor} : Shifted c d → Shifted c.refuse d.refuse
  | uses {c d : Cursor} (used : List (Sources × Use)) : Shifted c d →
      (∀ s ∈ used.map (·.1), c.tree.Total s ∧ d.tree.Total s) →
      Shifted (c.uses used).2 (d.uses used).2

theorem tree_transform (c : Cursor) (o : Transform) :
    (c.transform o).tree = c.tree.transform o := by
  cases o <;> rfl

variable {c d : Cursor}

/-- Where no function faults, trees with shifted transforms answer the same. -/
theorem Shifted.same {sources : Sources} (h : c.Shifted d) (hc : c.tree.Total sources)
    (hd : d.tree.Total sources) : c.tree.Same sources d.tree := by
  induction h with
  | andThen f g _ => exact Tree.same_andThen hc hd
  | onLeft f made _ _ => exact Tree.same_onLeft hc hd
  | @transformCarry c o _ =>
      have htree : (c.transform o).carry.tree = .carry (c.tree.transform o) :=
        congrArg Tree.carry (tree_transform c o)
      rw [htree] at hc ⊢
      rw [tree_transform] at hd ⊢
      exact Tree.same_carry hc hd
  | @transformFill c o x y _ hxy =>
      have htree : ((c.transform o).fill y).tree = .fill (c.tree.transform o) y :=
        congrArg (Tree.fill · y) (tree_transform c o)
      rw [htree] at hc ⊢
      rw [tree_transform] at hd ⊢
      exact Tree.same_fill hxy hc hd
  | refl _ => exact .refl sources _
  | symm _ ih => exact (ih hd hc).symm
  | trans _ hmiddle _ ih ih' => exact (ih hc (hmiddle sources)).trans (ih' (hmiddle sources) hd)
  | op o _ ih => exact (ih hc.1 hd.1).op o
  | map f _ ih => exact (ih hc.1 hd.1).map f
  | zip made _ _ ihl ihr => exact (ihl hc.1 hd.1).zip (ihr hc.2 hd.2)
  | carry _ ih => exact (ih hc hd).carry hc hd
  | fill otherwise _ ih => exact (ih hc hd).fill otherwise
  | refuse _ ih => exact (ih hc hd).refuse
  | uses used _ _ ih =>
      rw [tree_uses] at hc hd
      rw [tree_uses, tree_uses]
      exact ih hc hd

/-! ## Cursors with shifted transforms -/

theorem outcome_value_map (sources : Sources) (c : Cursor) (f : Selector) :
    ((c.map f).value sources).outcome =
      c.key sources >>= fun k => (c.value sources).outcome >>= f k := by
  show (Eval.lift (c.key sources) >>= fun k => c.value sources >>= fun v =>
    Eval.call (f k v)).outcome = _
  simp only [Eval.outcome_bind, Eval.outcome_lift, Eval.outcome_call]

/-- Cursors that show the same look alike. -/
theorem alike_id (hsound : c.tree.Sound c.position) (hsound' : d.tree.Sound d.position)
    (hstate : ∀ sources, d.state sources = c.state sources)
    (hkey : ∀ sources, d.key sources = c.key sources)
    (hvalue : ∀ sources, (d.value sources).outcome = (c.value sources).outcome) :
    c.Alike id d where
  sound := hsound
  sound_image := hsound'
  state := hstate
  key := hkey
  value sources := by
    rw [hvalue]
    cases (c.value sources).outcome <;> rfl

theorem Alike.value_id (h : c.Alike id d) (sources : Sources) :
    (d.value sources).outcome = (c.value sources).outcome := by
  rw [h.value]
  cases (c.value sources).outcome <;> rfl

theorem alike_andThen (f g : Selector) (hsound : c.tree.Sound c.position) :
    ((c.map f).map g).Alike id (c.map (f.andThen g)) := by
  refine alike_id hsound hsound (fun _ => rfl) (fun _ => rfl) fun sources => ?_
  have hkey : (c.map f).key sources = c.key sources := rfl
  rw [outcome_value_map, outcome_value_map, outcome_value_map, hkey]
  cases c.key sources with
  | error e => rfl
  | ok k => cases (c.value sources).outcome <;> rfl

theorem alike_onLeft {l r : Cursor} (f : Selector) (made : Sources)
    (hl : l.tree.Sound l.position) (hr : r.tree.Sound r.position) :
    ((l.map f).zip made r).Alike id ((l.zip made r).map f.onLeft) := by
  have hstate : ((l.zip made r).map f.onLeft).state made = ((l.map f).zip made r).state made := rfl
  exact alike_of_nowhere (sound_zip made (l := l.map f) hl hr) (sound_zip made hl hr) hstate
    ⟨rfl, rfl⟩ ⟨rfl, rfl⟩

theorem alike_transformCarry (o : Transform) (hsound : c.tree.Sound c.position) :
    (c.transform o).carry.Alike id (c.carry.transform o) := by
  cases o <;> exact alike_id hsound hsound (fun _ => rfl) (fun _ => rfl) fun _ => rfl

theorem alike_transformFill (o : Transform) (x y : Value) (hsound : c.tree.Sound c.position) :
    ((c.transform o).fill y).Alike id ((c.fill x).transform o) := by
  cases o <;> exact alike_id hsound hsound (fun _ => rfl) (fun _ => rfl) fun _ => rfl

/-- Cursors with shifted transforms look alike. -/
theorem Shifted.alike (h : c.Shifted d) : c.Alike id d := by
  induction h with
  | andThen f g hc => exact alike_andThen f g (sound_of_reachable hc)
  | onLeft f made hl hr => exact alike_onLeft f made (sound_of_reachable hl) (sound_of_reachable hr)
  | transformCarry o hc => exact alike_transformCarry o (sound_of_reachable hc)
  | transformFill o hc _ => exact alike_transformFill o _ _ (sound_of_reachable hc)
  | refl hc =>
      exact alike_id (sound_of_reachable hc) (sound_of_reachable hc) (fun _ => rfl) (fun _ => rfl)
        fun _ => rfl
  | symm _ ih =>
      exact alike_id ih.sound_image ih.sound (fun s => (ih.state s).symm)
        (fun s => (ih.key s).symm) fun s => (ih.value_id s).symm
  | trans _ _ _ ih ih' =>
      exact alike_id ih.sound ih'.sound_image (fun s => (ih'.state s).trans (ih.state s))
        (fun s => (ih'.key s).trans (ih.key s)) fun s => (ih'.value_id s).trans (ih.value_id s)
  | op o _ ih =>
      exact alike_id ih.sound ih.sound_image ih.state ih.key fun s =>
        Eval.outcome_bind_congr (ih.value_id s) _
  | map f _ ih =>
      refine alike_id ih.sound ih.sound_image ih.state ih.key fun s => ?_
      rw [outcome_value_map, outcome_value_map, ih.key, ih.value_id]
  | zip made _ _ ihl ihr =>
      refine alike_zip id made ihl.sound ihr.sound ihl.sound_image ihr.sound_image ?_
      rw [ihl.state, ihr.state]
  | carry _ ih => exact alike_id ih.sound ih.sound_image ih.state ih.key ih.value_id
  | fill otherwise _ ih => exact alike_id ih.sound ih.sound_image ih.state ih.key ih.value_id
  | refuse _ ih => exact alike_id ih.sound ih.sound_image ih.state ih.key ih.value_id
  | uses used hshifted htotal ih =>
      refine (ih.uses used fun use huse => ?_).2
      obtain ⟨hc, hd⟩ := htotal use.1 (List.mem_map_of_mem huse)
      exact (hshifted.same hc hd).image hc hd

/-- Cursors with shifted transforms cannot be told apart: however they are used, whatever becomes of
the sources in between, they give the same answers and show the same. -/
theorem twins_of_shifted (h : c.Shifted d) (used : List (Sources × Use)) (now : Sources)
    (htotal : ∀ s ∈ now :: used.map (·.1), c.tree.Total s ∧ d.tree.Total s) :
    c.Twins id used now d :=
  h.alike.twins fun s hs =>
    (h.same (htotal s hs).1 (htotal s hs).2).image (htotal s hs).1 (htotal s hs).2

/-! A series whose values are kept together with their keys is zipped with another one, of which only
a comparison is carried forward. Both transforms can be shifted out of the zip, which stands inside a
further one. -/

/-- A value together with its key. -/
def withKey : Selector
  | .int n, v => .ok (.pair (.int n) v)
  | .text s, v => .ok (.pair (.text s) v)

theorem withKey_returns (k : Key) (v : Value) : ∃ w, withKey k v = .ok w := by
  cases k <;> exact ⟨_, rfl⟩

theorem onLeft_withKey_returns (k : Key) (v : Value) : ∃ w, withKey.onLeft k v = .ok w := by
  cases v with
  | pair v w =>
      obtain ⟨u, hu⟩ := withKey_returns k v
      exact ⟨.pair u w, congrArg (Except.map fun u => Value.pair u w) hu⟩
  | _ => exact ⟨_, rfl⟩

/-- The zip with the transforms on its sides. -/
def transformsInside : Cursor :=
  (((ofSeries 0).map withKey).zip twoSeries ((ofSeries 1).op (.compare .lt (.int 25))).carry).zip
    twoSeries ((ofSeries 0).fill (.int 0))

/-- The zip with its pairs transformed, and the comparison made of what was carried forward. -/
def transformsOutside : Cursor :=
  (((ofSeries 0).zip twoSeries ((ofSeries 1).carry.op (.compare .lt (.int 25)))).map
    withKey.onLeft).zip twoSeries ((ofSeries 0).fill (.int 0))

theorem shifted_outside : transformsInside.Shifted transformsOutside := by
  have hcompare : ((ofSeries 1).op (.compare .lt (.int 25))).carry.Shifted
      ((ofSeries 1).carry.op (.compare .lt (.int 25))) :=
    .transformCarry (.operation (.compare .lt (.int 25))) (.ofSeries 1)
  have hwithKey := Shifted.onLeft withKey twoSeries (.ofSeries 0)
    (.op (.compare .lt (.int 25)) (.carry (.ofSeries 1)))
  refine .zip twoSeries (.trans (.zip twoSeries (.refl (.map withKey (.ofSeries 0))) hcompare) ?_
    hwithKey) (.refl (.fill (.int 0) (.ofSeries 0)))
  exact fun _ => ⟨⟨trivial, fun k v _ => withKey_returns k v⟩, trivial, fun _ _ => ⟨_, rfl⟩⟩

/-- Between the two moves the key at which the zips stand goes, and the key 5 comes. -/
theorem twins_of_shifted_outside :
    (transformsOutside.uses
        [(twoSeries, .move .first), (changedSeries, .move .next)]).1 = [.ok true, .ok true] ∧
      ((transformsOutside.uses
        [(twoSeries, .move .first), (changedSeries, .move .next)]).2.value changedSeries).outcome =
        .ok (.pair (.pair (.pair (.int 5) (.int 50)) (.bool true)) (.int 50)) := by
  have htwins := twins_of_shifted shifted_outside
    [(twoSeries, .move .first), (changedSeries, .move .next)] changedSeries fun _ _ =>
      ⟨⟨⟨⟨trivial, fun k v _ => withKey_returns k v⟩, trivial, fun _ _ => ⟨_, rfl⟩⟩, trivial⟩,
        ⟨⟨trivial, trivial, fun _ _ => ⟨_, rfl⟩⟩, fun k v _ => onLeft_withKey_returns k v⟩, trivial⟩
  exact ⟨htwins.answers.trans rfl, htwins.shows.value.trans rfl⟩

end Cursor

end LiveSeries
