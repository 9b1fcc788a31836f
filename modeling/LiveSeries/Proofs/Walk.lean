import LiveSeries.Cursor.Inspection
import LiveSeries.Proofs.EntryList
import LiveSeries.Proofs.StoreEntries

/-!
# Walking over a list of entries

What it means that a behaviour walks over a list of entries (`Behaviour.Walks`): from any sound
position each move lands at the entry to which it leads in the list, or fails and stays where it
was. A behaviour that also answers lookups from the list (`Behaviour.Answers`) can be built upon:
every combinator but the zip takes such a behaviour to one with the transformed list.

Which positions are sound does not depend on the sources, and no move leaves them, not even one
that faults (`Behaviour.Steady`).
-/

namespace LiveSeries

theorem Eval.outcome_map {α β : Type} (f : α → β) (x : Eval α) :
    (f <$> x).outcome = x.outcome.map f := by
  show (x >>= fun a => pure (f a)).outcome = _
  rw [Eval.outcome_bind]
  cases x.outcome <;> rfl

namespace Behaviour

variable {σ : Type}

/-! ## Positions -/

/-- The sound positions: a fresh cursor has one, and nothing that a cursor does leaves them.
A move keeps the cursor ready. -/
structure Steady (b : Behaviour σ) (Sound : σ → Prop) : Prop where
  fresh_sound : Sound b.fresh
  fresh_state : b.state b.fresh = .ready
  move_sound : ∀ m p, Sound p → Sound (b.move m p).position
  move_ready : ∀ m p, Sound p → (b.state p).isReady = true →
    (b.state (b.move m p).position).isReady = true
  reset_sound : ∀ p, Sound p → Sound (b.reset p)
  reset_ready : ∀ p, Sound p → (b.state (b.reset p)).isReady = (b.state p).isReady
  dispose_sound : ∀ p, Sound p → Sound (b.dispose p)
  key_of_moving : ∀ p, Sound p → b.state p = .moving → ∃ k, b.key p = .ok k

/-- The cursor stands at an entry. -/
structure StandsOn (b : Behaviour σ) (p : σ) (e : Entry) : Prop where
  state : b.state p = .moving
  key : b.key p = .ok e.1
  value : (b.value p).outcome = .ok e.2

/-- A cursor at an entry starts its next move from the key of that entry. -/
theorem StandsOn.place_key {b : Behaviour σ} {p : σ} {e : Entry} (h : b.StandsOn p e) :
    (b.place p).key = some e.1 := by
  rw [place, h.state, h.key]
  rfl

theorem StandsOn.outcome_current {b : Behaviour σ} {p : σ} {e : Entry} (h : b.StandsOn p e) :
    (b.current p).outcome = .ok e := by
  rw [current, Eval.outcome_bind, Eval.outcome_lift, h.key, ok_bind, Eval.outcome_bind, h.value]
  rfl

/-- From each sound position of a ready cursor a move lands at the entry to which it leads. If
there is none it fails, and the cursor stays. -/
structure Walks (b : Behaviour σ) (Sound : σ → Prop) (entries : List Entry) : Prop where
  lands : ∀ m p e, Sound p → (b.state p).isReady = true →
    m.target entries (b.place p).key = some e →
    (b.move m p).landed.outcome = .ok true ∧ b.StandsOn (b.move m p).position e
  stays : ∀ m p, Sound p → (b.state p).isReady = true →
    m.target entries (b.place p).key = none →
    (b.move m p).landed.outcome = .ok false ∧ (b.move m p).position = p

/-- A behaviour that walks over increasing entries, finds the nearest of them, and faults at no
point lookup. All its values are of a kind. -/
structure Answers (b : Behaviour σ) (Sound : σ → Prop) (entries : List Entry)
    (Kind : Value → Prop) : Prop where
  steady : b.Steady Sound
  walks : b.Walks Sound entries
  increasing : Increasing entries
  length_le : entries.length ≤ b.extent
  finds : ∀ k lookup, (b.find? k lookup).outcome = .ok (nearest entries k lookup)
  gets : ∀ k, ∃ answer, (b.get? k).outcome = .ok answer ∧ ∀ v, answer = some v → Kind v
  kind : ∀ e ∈ entries, Kind e.2

/-- A move answers with the entry to which it leads, if it is asked for the entry. -/
theorem Walks.outcome_sent {b : Behaviour σ} {Sound : σ → Prop} {entries : List Entry}
    (hwalks : b.Walks Sound entries) (m : Motion) {p : σ} (hsound : Sound p)
    (hready : (b.state p).isReady = true) :
    (do if ← (b.move m p).landed then some <$> b.current (b.move m p).position
        else return none : Eval (Option Entry)).outcome =
      .ok (m.target entries (b.place p).key) := by
  rw [Eval.outcome_bind]
  cases htarget : m.target entries (b.place p).key with
  | none =>
      rw [(hwalks.stays m p hsound hready htarget).1, ok_bind]
      rfl
  | some e =>
      obtain ⟨hlanded, hstands⟩ := hwalks.lands m p e hsound hready htarget
      rw [hlanded, ok_bind, if_pos rfl, Eval.outcome_map, hstands.outcome_current]
      rfl

/-- A fresh cursor that is sent out finds the nearest entry. -/
theorem outcome_probe {b : Behaviour σ} {Sound : σ → Prop} {entries : List Entry}
    (hsteady : b.Steady Sound) (hwalks : b.Walks Sound entries) (k : Key) (lookup : Lookup) :
    (b.probe k lookup).outcome = .ok (nearest entries k lookup) := by
  have hready : (b.state b.fresh).isReady = true := by
    rw [hsteady.fresh_state]
    rfl
  exact hwalks.outcome_sent (.find k lookup) hsteady.fresh_sound hready

/-! ## A series -/

end Behaviour

/-- A cursor over a series holds an entry exactly while it is moving. -/
def SeriesPosition.Sound (p : SeriesPosition) : Prop := p.state = .moving ↔ p.current.isSome = true

theorem Stage.reset_ne_moving (s : Stage) : s.reset ≠ .moving := by cases s <;> simp [Stage.reset]

theorem Stage.isReady_reset (s : Stage) : s.reset.isReady = s.isReady := by cases s <;> rfl

theorem SeriesPosition.sound_land {p : SeriesPosition} (h : p.Sound) (entry : Option Entry) :
    (p.land entry).position.Sound := by
  cases entry with
  | none => exact h
  | some e => simp [SeriesPosition.land, SeriesPosition.Sound]

namespace Behaviour

theorem steady_ofSeries (s : Series) : (ofSeries s).Steady SeriesPosition.Sound where
  fresh_sound := by simp [ofSeries, SeriesPosition.Sound]
  fresh_state := rfl
  move_sound m p h := by
    simp only [ofSeries]
    split
    · exact p.sound_land h _
    · exact h
  move_ready m p h hready := by
    have hready' : p.state.isReady = true := hready
    simp only [ofSeries, hready', if_true]
    cases destination s m p.key? with
    | none => exact hready'
    | some e => rfl
  reset_sound p h := by simp [ofSeries, SeriesPosition.Sound, Stage.reset_ne_moving]
  reset_ready p h := Stage.isReady_reset p.state
  dispose_sound p h := by simp [ofSeries, SeriesPosition.Sound]
  key_of_moving p h hmoving := by
    obtain ⟨e, he⟩ := Option.isSome_iff_exists.mp (h.mp hmoving)
    exact ⟨e.1, by simp [ofSeries, he]⟩

/-- The key from which a cursor over a series moves is that of its place. -/
theorem place_key_ofSeries (s : Series) (p : SeriesPosition) :
    ((ofSeries s).place p).key = p.key? := by
  simp only [place, ofSeries, SeriesPosition.key?]
  cases p.current <;> rfl

/-- A move over a series leads where it leads in the list of stored entries. -/
theorem destination_eq_target (s : Series) (m : Motion) (from? : Option Key) :
    destination s m from? = m.target s.store.entries from? := by
  match m, from? with
  | .first, _ | .next, none => exact s.read_eq _
  | .last, _ | .previous, none => exact s.read_eq _
  | .next, some k =>
      show s.read (fun store => store.find? k .gt) = nearest s.store.entries k .gt
      rw [Series.read_eq, Store.find?_eq_nearest]
  | .previous, some k =>
      show s.read (fun store => store.find? k .lt) = nearest s.store.entries k .lt
      rw [Series.read_eq, Store.find?_eq_nearest]
  | .find k lookup, _ =>
      show s.read (fun store => store.find? k lookup) = nearest s.store.entries k lookup
      rw [Series.read_eq, Store.find?_eq_nearest]

theorem walks_ofSeries (s : Series) :
    (ofSeries s).Walks SeriesPosition.Sound s.store.entries where
  lands m p e _ hready htarget := by
    have hready' : p.state.isReady = true := hready
    rw [place_key_ofSeries, ← destination_eq_target] at htarget
    simp only [ofSeries, hready', if_true, htarget, SeriesPosition.land]
    exact ⟨rfl, rfl, rfl, rfl⟩
  stays m p _ hready htarget := by
    have hready' : p.state.isReady = true := hready
    rw [place_key_ofSeries, ← destination_eq_target] at htarget
    simp only [ofSeries, hready', if_true, htarget, SeriesPosition.land]
    exact ⟨rfl, trivial⟩

theorem answers_ofSeries (s : Series) :
    (ofSeries s).Answers SeriesPosition.Sound s.store.entries
      (fun v => ∃ e ∈ s.store.entries, e.2 = v) where
  steady := steady_ofSeries s
  walks := walks_ofSeries s
  increasing := s.store.increasing
  length_le := by
    show s.store.entries.length ≤ s.size
    rw [Series.size, Series.read_eq]
    exact Nat.le_refl _
  finds k lookup := congrArg Except.ok ((s.read_eq _).trans (s.store.find?_eq_nearest k lookup))
  gets k := by
    refine ⟨s.store.get? k, congrArg Except.ok (s.read_eq _), ?_⟩
    intro v hv
    exact ⟨(k, v), s.store.get?_eq_some_iff.mp hv, rfl⟩
  kind e he := ⟨e, he, rfl⟩

/-! ## Other answers on the same walk -/

variable {σ : Type}

/-- The two behaviours move in the same way. They may differ in the values that they answer. -/
def SameWalk (b b' : Behaviour σ) : Prop :=
  b' = { b with
    value := b'.value
    get? := b'.get?
    find? := b'.find?
    continuous := b'.continuous }

theorem SameWalk.steady {b b' : Behaviour σ} {Sound : σ → Prop} (h : b.SameWalk b')
    (hb : b.Steady Sound) : b'.Steady Sound := by
  rw [SameWalk] at h
  rw [h]
  exact ⟨hb.fresh_sound, hb.fresh_state, hb.move_sound, hb.move_ready, hb.reset_sound,
    hb.reset_ready, hb.dispose_sound, hb.key_of_moving⟩

theorem SameWalk.state_eq {b b' : Behaviour σ} (h : b.SameWalk b') : b'.state = b.state := by
  rw [SameWalk] at h
  rw [h]

theorem SameWalk.key_eq {b b' : Behaviour σ} (h : b.SameWalk b') : b'.key = b.key := by
  rw [SameWalk] at h
  rw [h]

theorem SameWalk.move_eq {b b' : Behaviour σ} (h : b.SameWalk b') : b'.move = b.move := by
  rw [SameWalk] at h
  rw [h]

theorem SameWalk.place_eq {b b' : Behaviour σ} (h : b.SameWalk b') : b'.place = b.place := by
  rw [SameWalk] at h
  rw [h]
  rfl

theorem SameWalk.extent_eq {b b' : Behaviour σ} (h : b.SameWalk b') : b'.extent = b.extent := by
  rw [SameWalk] at h
  rw [h]

/-- A walk whose values are changed by a function of key and value walks over the changed
entries. -/
theorem SameWalk.walks {b b' : Behaviour σ} {Sound : σ → Prop} {entries : List Entry}
    (h : b.SameWalk b') (hb : b.Walks Sound entries) {f : Entry → Entry}
    (hf : ∀ e, (f e).1 = e.1)
    (hvalue : ∀ p, ∀ e ∈ entries, b.StandsOn p e → (b'.value p).outcome = .ok (f e).2) :
    b'.Walks Sound (entries.map f) where
  lands m p e hp hready htarget := by
    rw [h.state_eq] at hready
    rw [h.place_eq, Motion.target_map hf] at htarget
    obtain ⟨d, hd, rfl⟩ := Option.map_eq_some_iff.mp htarget
    obtain ⟨hlanded, hstands⟩ := hb.lands m p d hp hready hd
    rw [h.move_eq]
    refine ⟨hlanded, ?_, ?_, ?_⟩
    · rw [h.state_eq]
      exact hstands.state
    · rw [h.key_eq, hf]
      exact hstands.key
    · exact hvalue _ d (Motion.mem_of_target hd) hstands
  stays m p hp hready htarget := by
    rw [h.state_eq] at hready
    rw [h.place_eq, Motion.target_map hf, Option.map_eq_none_iff] at htarget
    rw [h.move_eq]
    exact hb.stays m p hp hready htarget

/-- A walk whose answers are all changed by one function of key and value, which does not fault
on what reaches it. -/
theorem Answers.change {b b' : Behaviour σ} {Sound : σ → Prop} {entries : List Entry}
    {Kind Kind' : Value → Prop} (hb : b.Answers Sound entries Kind) (h : b.SameWalk b')
    {f : Key → Value → Eval Value}
    (hvalue : ∀ p e, b.StandsOn p e → (b'.value p).outcome = (f e.1 e.2).outcome)
    (hget : ∀ k, b'.get? k = do
      match ← b.get? k with
      | some v => some <$> f k v
      | none => return none)
    (hfind : ∀ k lookup, b'.find? k lookup = do
      match ← b.find? k lookup with
      | some e => (fun w => some (e.1, w)) <$> f e.1 e.2
      | none => return none)
    (htotal : ∀ k v, Kind v → ∃ w, (f k v).outcome = .ok w)
    (hkind : ∀ k v w, Kind v → (f k v).outcome = .ok w → Kind' w) :
    b'.Answers Sound (entries.map fun e => (e.1, resultOf (f e.1 e.2).outcome)) Kind' := by
  -- the function does not fault on an entry, so the changed entry holds its result
  have hresult : ∀ e ∈ entries, (f e.1 e.2).outcome = .ok (resultOf (f e.1 e.2).outcome) := by
    intro e he
    obtain ⟨w, hw⟩ := htotal e.1 e.2 (hb.kind e he)
    rw [hw, resultOf_ok]
  constructor
  · exact h.steady hb.steady
  · refine h.walks hb.walks (fun _ => rfl) ?_
    intro p e he hstands
    exact (hvalue p e hstands).trans (hresult e he)
  · exact List.pairwise_map.mpr hb.increasing
  · rw [List.length_map, h.extent_eq]
    exact hb.length_le
  · intro k lookup
    rw [hfind, nearest_map (f := fun e => (e.1, resultOf (f e.1 e.2).outcome)) fun _ => rfl,
      Eval.outcome_bind, hb.finds, ok_bind]
    cases hn : nearest entries k lookup with
    | none => rfl
    | some e =>
        have he : e ∈ entries := mem_of_nearest hn
        simp only [Eval.outcome_map, Option.map_some]
        rw [hresult e he]
        rfl
  · intro k
    obtain ⟨answer, hanswer, hof⟩ := hb.gets k
    rw [hget, Eval.outcome_bind, hanswer, ok_bind]
    cases answer with
    | none => exact ⟨none, rfl, by simp⟩
    | some v =>
        obtain ⟨w, hw⟩ := htotal k v (hof v rfl)
        refine ⟨some w, ?_, ?_⟩
        · simp only [Eval.outcome_map, hw]
          rfl
        · intro u hu
          cases hu
          exact hkind k v w (hof v rfl) hw
  · intro e he
    obtain ⟨d, hd, rfl⟩ := List.mem_map.mp he
    exact hkind d.1 d.2 _ (hb.kind d hd) (hresult d hd)

theorem Answers.op {b : Behaviour σ} {Sound : σ → Prop} {entries : List Entry}
    {Kind : Value → Prop} (hb : b.Answers Sound entries Kind) (o : Operation)
    (htotal : ∀ v, Kind v → ∃ w, (o.apply v).outcome = .ok w) :
    (b.op o).Answers Sound (entries.map fun e => (e.1, resultOf (o.apply e.2).outcome))
      (fun w => ∃ v, Kind v ∧ (o.apply v).outcome = .ok w) := by
  refine hb.change (show b.SameWalk (b.op o) from rfl) (f := fun _ v => o.apply v)
    ?_ (fun _ => rfl) ?_ (fun _ v => htotal v) (fun _ v w hv hw => ⟨v, hv, hw⟩)
  · intro p e hstands
    show (b.value p >>= o.apply).outcome = (o.apply e.2).outcome
    rw [Eval.outcome_bind, hstands.value, ok_bind]
  · intro k lookup
    refine congrArg (b.find? k lookup >>= ·) (funext fun answer => ?_)
    cases answer <;> rfl

theorem Answers.map {b : Behaviour σ} {Sound : σ → Prop} {entries : List Entry}
    {Kind : Value → Prop} (hb : b.Answers Sound entries Kind) (f : Selector)
    (htotal : ∀ k v, Kind v → ∃ w, f k v = .ok w) :
    (b.map f).Answers Sound (entries.map fun e => (e.1, resultOf (f e.1 e.2)))
      (fun w => ∃ k v, Kind v ∧ f k v = .ok w) := by
  refine hb.change (show b.SameWalk (b.map f) from rfl) (f := fun k v => .call (f k v))
    ?_ (fun _ => rfl) ?_ htotal (fun k v w hv hw => ⟨k, v, hv, hw⟩)
  · intro p e hstands
    show (Eval.lift (b.key p) >>= fun k => b.value p >>= fun v => Eval.call (f k v)).outcome = _
    rw [Eval.outcome_bind, Eval.outcome_lift, hstands.key, ok_bind, Eval.outcome_bind,
      hstands.value, ok_bind]
  · intro k lookup
    refine congrArg (b.find? k lookup >>= ·) (funext fun answer => ?_)
    cases answer <;> rfl

/-- A walk with the same values, of which only the point lookups change. -/
theorem Answers.of_get {b b' : Behaviour σ} {Sound : σ → Prop} {entries : List Entry}
    {Kind Kind' : Value → Prop} (hb : b.Answers Sound entries Kind) (h : b.SameWalk b')
    (hvalue : b'.value = b.value)
    (hfinds : ∀ k lookup, (b'.find? k lookup).outcome = .ok (nearest entries k lookup))
    (hgets : ∀ k, ∃ answer, (b'.get? k).outcome = .ok answer ∧ ∀ v, answer = some v → Kind' v)
    (hkind : ∀ v, Kind v → Kind' v) :
    b'.Answers Sound entries Kind' where
  steady := h.steady hb.steady
  walks := by
    have hwalks := h.walks (f := id) hb.walks (fun _ => rfl) fun p e _ hstands => by
      rw [hvalue]
      exact hstands.value
    rwa [List.map_id] at hwalks
  increasing := hb.increasing
  length_le := by
    rw [h.extent_eq]
    exact hb.length_le
  finds := hfinds
  gets := hgets
  kind e he := hkind e.2 (hb.kind e he)

theorem Answers.carry {b : Behaviour σ} {Sound : σ → Prop} {entries : List Entry}
    {Kind : Value → Prop} (hb : b.Answers Sound entries Kind) :
    b.carry.Answers Sound entries Kind := by
  refine hb.of_get (show b.SameWalk b.carry from rfl) rfl hb.finds ?_ (fun _ hv => hv)
  intro k
  show ∃ answer, (b.find? k .le >>= _ : Eval (Option Value)).outcome = _ ∧ _
  rw [Eval.outcome_bind, hb.finds, ok_bind]
  cases hn : nearest entries k .le with
  | none => exact ⟨none, rfl, by simp⟩
  | some e =>
      refine ⟨some e.2, rfl, ?_⟩
      intro v hv
      cases hv
      exact hb.kind e (mem_of_nearest hn)

theorem Answers.fill {b : Behaviour σ} {Sound : σ → Prop} {entries : List Entry}
    {Kind : Value → Prop} (hb : b.Answers Sound entries Kind) (otherwise : Value) :
    (b.fill otherwise).Answers Sound entries (fun v => Kind v ∨ v = otherwise) := by
  refine hb.of_get (show b.SameWalk (b.fill otherwise) from rfl) rfl hb.finds ?_ (fun _ => .inl)
  intro k
  obtain ⟨answer, hanswer, hof⟩ := hb.gets k
  refine ⟨some (answer.getD otherwise), ?_, ?_⟩
  · show (b.get? k >>= _ : Eval (Option Value)).outcome = _
    rw [Eval.outcome_bind, hanswer, ok_bind]
    rfl
  · intro v hv
    cases hv
    cases answer with
    | none => exact .inr rfl
    | some w => exact .inl (hof w rfl)

theorem Answers.discrete {b : Behaviour σ} {Sound : σ → Prop} {entries : List Entry}
    {Kind : Value → Prop} (hb : b.Answers Sound entries Kind) :
    b.discrete.Answers Sound entries Kind :=
  hb.of_get (show b.SameWalk b.discrete from rfl) rfl (outcome_probe hb.steady hb.walks) hb.gets
    (fun _ hv => hv)

end Behaviour

end LiveSeries
