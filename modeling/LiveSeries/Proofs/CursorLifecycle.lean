import LiveSeries.Proofs.CursorImages

/-!
# The lifecycle of a cursor

A cursor only carries configuration, or it is ready, or it stands at an entry, and what it can be
asked depends on that alone. Where it stands nowhere it has no entry to show, and where it is not
ready it does not move. Where it stands, or is ready, nothing of its own stops it: all faults that
are left are those of the functions in its tree (`Behaviour.Sturdy`). A zip has a state of its own
beside those of its sides; what ties them is that the sides of a ready zip are ready, and that a zip
holds a pair exactly while it is moving (`ZipPosition.Sound`).

So the lifecycle of a cursor is that of its outermost node, whatever was done to it
(`Cursor.lifecycle_invariant`).
-/

namespace LiveSeries

/-! ## Faults -/

/-- All faults of the result are raised elsewhere. -/
def FaultsIn {α : Type} (Raises : Fault → Prop) (x : Except Fault α) : Prop :=
  ∀ e, x = .error e → Raises e

section Faults

variable {α β : Type} {Raises Raises' : Fault → Prop} {x : Except Fault α}

theorem faultsIn_ok (a : α) : FaultsIn Raises (.ok a) := nofun

theorem FaultsIn.mono (h : FaultsIn Raises x) (hraises : ∀ e, Raises e → Raises' e) :
    FaultsIn Raises' x := fun e he => hraises e (h e he)

theorem FaultsIn.bind {f : α → Except Fault β} (h : FaultsIn Raises x)
    (hf : ∀ a, x = .ok a → FaultsIn Raises (f a)) : FaultsIn Raises (x >>= f) := by
  cases x with
  | error e =>
      intro e' he
      cases he
      exact h e rfl
  | ok a => exact hf a rfl

theorem FaultsIn.map (h : FaultsIn Raises x) (f : α → β) : FaultsIn Raises (x.map f) := by
  cases x with
  | error e =>
      intro e' he
      cases he
      exact h e rfl
  | ok a => exact faultsIn_ok (f a)

end Faults

namespace Behaviour

variable {σ τ : Type}

/-- What becomes of a cursor that is asked where it stands nowhere, or stands, or is ready. The
functions of the cursor raise the given faults. -/
structure Sturdy (b : Behaviour σ) (Sound : σ → Prop) (Raises : Fault → Prop) : Prop where
  steady : b.Steady Sound
  nowhere : ∀ p, Sound p → b.state p ≠ .moving → b.Nowhere p
  value : ∀ p, Sound p → b.state p = .moving → FaultsIn Raises (b.value p).outcome
  move : ∀ m p, Sound p → (b.state p).isReady = true →
    FaultsIn Raises (b.move m p).landed.outcome
  lands : ∀ m p, Sound p → (b.move m p).landed.outcome = .ok true →
    b.state (b.move m p).position = .moving
  gets : ∀ k, FaultsIn Raises (b.get? k).outcome
  finds : ∀ k lookup, FaultsIn Raises (b.find? k lookup).outcome

theorem sturdy_ofSeries (s : Series) :
    (ofSeries s).Sturdy SeriesPosition.Sound fun _ => False where
  steady := steady_ofSeries s
  nowhere p hp hstate := by
    have hnone : p.current = none := by
      rw [← Option.not_isSome_iff_eq_none]
      exact fun hsome => hstate (hp.mpr hsome)
    constructor <;> simp [ofSeries, hnone]
  value p hp hstate := by
    obtain ⟨e, he⟩ := Option.isSome_iff_exists.mp (hp.mp hstate)
    simp only [ofSeries, he]
    exact faultsIn_ok e.2
  move m p _ hready := by
    have hready' : p.state.isReady = true := hready
    simp only [ofSeries, if_pos hready']
    cases destination s m p.key? <;> exact faultsIn_ok _
  lands m p _ hlanded := by
    simp only [ofSeries] at hlanded ⊢
    split at hlanded
    · next hready =>
        rw [if_pos hready]
        cases hentry : destination s m p.key? with
        | none =>
            rw [hentry] at hlanded
            cases hlanded
        | some e => rfl
    · cases hlanded
  gets k := faultsIn_ok _
  finds k lookup := faultsIn_ok _

/-! ## Other answers on the same walk -/

section Change

variable {b b' : Behaviour σ} {Sound : σ → Prop} {Raises Raises' : Fault → Prop}

theorem Sturdy.mono (hb : b.Sturdy Sound Raises) (hraises : ∀ e, Raises e → Raises' e) :
    b.Sturdy Sound Raises' where
  steady := hb.steady
  nowhere := hb.nowhere
  value p hp hstate := (hb.value p hp hstate).mono hraises
  move m p hp hready := (hb.move m p hp hready).mono hraises
  lands := hb.lands
  gets k := (hb.gets k).mono hraises
  finds k lookup := (hb.finds k lookup).mono hraises

/-- A walk with other values has the same lifecycle, if its values fault where its functions do,
and where there is no entry as before. -/
theorem Sturdy.change (hb : b.Sturdy Sound Raises) (h : b.SameWalk b')
    (hnowhere : ∀ p, b.Nowhere p → (b'.value p).outcome = .error .cursorNotPositioned)
    (hvalue : ∀ p, Sound p → b.state p = .moving → FaultsIn Raises (b'.value p).outcome)
    (hgets : ∀ k, FaultsIn Raises (b'.get? k).outcome)
    (hfinds : ∀ k lookup, FaultsIn Raises (b'.find? k lookup).outcome) :
    b'.Sturdy Sound Raises where
  steady := h.steady hb.steady
  nowhere p hp hstate := by
    rw [h.state_eq] at hstate
    have hnot := hb.nowhere p hp hstate
    exact ⟨by rw [h.key_eq]; exact hnot.key, hnowhere p hnot⟩
  value p hp hstate := by
    rw [h.state_eq] at hstate
    exact hvalue p hp hstate
  move m p hp hready := by
    rw [h.state_eq] at hready
    rw [h.move_eq]
    exact hb.move m p hp hready
  lands m p hp hlanded := by
    rw [h.move_eq] at hlanded
    rw [h.state_eq, h.move_eq]
    exact hb.lands m p hp hlanded
  gets := hgets
  finds := hfinds

/-- A walk whose answers are all computed by one more function of key and value. -/
theorem Sturdy.compute (hb : b.Sturdy Sound Raises) (h : b.SameWalk b')
    {f : Key → Value → Eval Value} (hf : ∀ k v, FaultsIn Raises (f k v).outcome)
    (hnowhere : ∀ p, b.Nowhere p → (b'.value p).outcome = .error .cursorNotPositioned)
    (hvalue : ∀ p k, b.key p = .ok k →
      (b'.value p).outcome = (b.value p).outcome >>= fun v => (f k v).outcome)
    (hget : ∀ k, b'.get? k = do
      match ← b.get? k with
      | some v => some <$> f k v
      | none => return none)
    (hfind : ∀ k lookup, b'.find? k lookup = do
      match ← b.find? k lookup with
      | some e => (fun w => some (e.1, w)) <$> f e.1 e.2
      | none => return none) :
    b'.Sturdy Sound Raises := by
  refine hb.change h hnowhere ?_ ?_ ?_
  · intro p hp hstate
    obtain ⟨k, hk⟩ := hb.steady.key_of_moving p hp hstate
    rw [hvalue p k hk]
    exact (hb.value p hp hstate).bind fun v _ => hf k v
  · intro k
    rw [hget, Eval.outcome_bind]
    refine (hb.gets k).bind fun v? _ => ?_
    cases v? with
    | none => exact faultsIn_ok none
    | some v =>
        rw [Eval.outcome_map]
        exact (hf k v).map some
  · intro k lookup
    rw [hfind, Eval.outcome_bind]
    refine (hb.finds k lookup).bind fun e? _ => ?_
    cases e? with
    | none => exact faultsIn_ok none
    | some e =>
        rw [Eval.outcome_map]
        exact (hf e.1 e.2).map fun w => some (e.1, w)

theorem Sturdy.op (hb : b.Sturdy Sound Raises) {o : Operation}
    (ho : ∀ v, FaultsIn Raises (o.apply v).outcome) : (b.op o).Sturdy Sound Raises := by
  refine hb.compute rfl (f := fun _ v => o.apply v) (fun _ v => ho v) ?_ ?_ (fun _ => rfl) ?_
  · intro p hp
    show (b.value p >>= o.apply).outcome = _
    rw [Eval.outcome_bind, hp.value]
    rfl
  · intro p k _
    exact Eval.outcome_bind (b.value p) o.apply
  · intro k lookup
    refine congrArg (b.find? k lookup >>= ·) (funext fun answer => ?_)
    cases answer <;> rfl

theorem Sturdy.map (hb : b.Sturdy Sound Raises) {f : Selector}
    (hf : ∀ k v, FaultsIn Raises (f k v)) : (b.map f).Sturdy Sound Raises := by
  refine hb.compute rfl (f := fun k v => .call (f k v)) hf ?_ ?_ (fun _ => rfl) ?_
  · intro p hp
    show (Eval.lift (b.key p) >>= fun k => b.value p >>= fun v => Eval.call (f k v)).outcome = _
    rw [Eval.outcome_bind, Eval.outcome_lift, hp.key]
    rfl
  · intro p k hk
    show (Eval.lift (b.key p) >>= fun k => b.value p >>= fun v => Eval.call (f k v)).outcome = _
    rw [Eval.outcome_bind, Eval.outcome_lift, hk, ok_bind, Eval.outcome_bind]
  · intro k lookup
    refine congrArg (b.find? k lookup >>= ·) (funext fun answer => ?_)
    cases answer <;> rfl

theorem Sturdy.carry (hb : b.Sturdy Sound Raises) : b.carry.Sturdy Sound Raises := by
  refine hb.change rfl (fun p hp => hp.value) hb.value ?_ hb.finds
  intro k
  show FaultsIn Raises (b.find? k .le >>= _ : Eval (Option Value)).outcome
  rw [Eval.outcome_bind]
  refine (hb.finds k .le).bind fun e? _ => ?_
  cases e? <;> exact faultsIn_ok _

theorem Sturdy.fill (hb : b.Sturdy Sound Raises) (otherwise : Value) :
    (b.fill otherwise).Sturdy Sound Raises := by
  refine hb.change rfl (fun p hp => hp.value) hb.value ?_ hb.finds
  intro k
  show FaultsIn Raises (b.get? k >>= _ : Eval (Option Value)).outcome
  rw [Eval.outcome_bind]
  exact (hb.gets k).bind fun v? _ => faultsIn_ok (some (v?.getD otherwise))

/-- A fresh cursor that is sent out faults where its functions do. -/
theorem Sturdy.faultsIn_probe (hb : b.Sturdy Sound Raises) (k : Key) (lookup : Lookup) :
    FaultsIn Raises (b.probe k lookup).outcome := by
  have hready : (b.state b.fresh).isReady = true := by
    rw [hb.steady.fresh_state]
    rfl
  have hsound := hb.steady.move_sound (.find k lookup) b.fresh hb.steady.fresh_sound
  rw [probe, Eval.outcome_bind]
  refine (hb.move _ _ hb.steady.fresh_sound hready).bind fun landed hlanded => ?_
  cases landed with
  | false => exact faultsIn_ok none
  | true =>
      have hmoving := hb.lands _ _ hb.steady.fresh_sound hlanded
      obtain ⟨key, hkey⟩ := hb.steady.key_of_moving _ hsound hmoving
      rw [if_pos rfl, Eval.outcome_map, current, Eval.outcome_bind, Eval.outcome_lift, hkey,
        ok_bind, Eval.outcome_bind]
      refine FaultsIn.map ((hb.value _ hsound hmoving).bind fun v _ => ?_) some
      exact faultsIn_ok (key, v)

theorem Sturdy.discrete (hb : b.Sturdy Sound Raises) : b.discrete.Sturdy Sound Raises :=
  hb.change rfl (fun _ hp => hp.value) hb.value hb.gets hb.faultsIn_probe

end Change

/-! ## Searches

A side of a search is ready, and stands at an entry once it has landed. So its key is there when the
next candidate is made, and its value when the candidate is resolved. -/

/-- The side is sound and ready, and stands at an entry if it has landed. -/
structure OnCourse (b : Behaviour σ) (Sound : σ → Prop) (side : Side σ) : Prop where
  sound : Sound side.position
  ready : (b.state side.position).isReady = true
  moving : side.landed = true → b.state side.position = .moving

section Side

variable {b : Behaviour σ} {Sound : σ → Prop} {Raises : Fault → Prop} {side side' : Side σ}

theorem Sturdy.faultsIn_advance (hb : b.Sturdy Sound Raises) {m : Motion} {p : σ} (hp : Sound p)
    (hready : (b.state p).isReady = true) : FaultsIn Raises (b.advance m p).outcome := by
  rw [outcome_advance]
  exact (hb.move m p hp hready).map _

theorem Sturdy.onCourse_advance (hb : b.Sturdy Sound Raises) {m : Motion} {p : σ} (hp : Sound p)
    (hready : (b.state p).isReady = true) (h : (b.advance m p).outcome = .ok side) :
    b.OnCourse Sound side := by
  obtain ⟨hsound, hready'⟩ := hb.steady.keeps_advance hp hready h
  refine ⟨hsound, hready', fun hlanded => ?_⟩
  rw [outcome_advance] at h
  cases hmove : (b.move m p).landed.outcome with
  | error e =>
      rw [hmove] at h
      cases h
  | ok landed =>
      rw [hmove] at h
      cases h
      cases hlanded
      exact hb.lands m p hp hmove

theorem Sturdy.faultsIn_pass (hb : b.Sturdy Sound Raises) (hside : b.OnCourse Sound side)
    (forward stands : Bool) : FaultsIn Raises (b.pass forward stands side).outcome := by
  cases stands with
  | true => exact hb.faultsIn_advance hside.sound hside.ready
  | false => exact faultsIn_ok side

theorem Sturdy.onCourse_pass (hb : b.Sturdy Sound Raises) {forward stands : Bool}
    (hside : b.OnCourse Sound side) (h : (b.pass forward stands side).outcome = .ok side') :
    b.OnCourse Sound side' := by
  cases stands with
  | true => exact hb.onCourse_advance hside.sound hside.ready h
  | false =>
      cases h
      exact hside

theorem Sturdy.exists_key (hb : b.Sturdy Sound Raises) (hside : b.OnCourse Sound side)
    (hlanded : side.landed = true) : ∃ k, b.key side.position = .ok k :=
  hb.steady.key_of_moving _ hside.sound (hside.moving hlanded)

/-- A side that stands at a key has landed. -/
theorem Sturdy.exists_standsAt (hb : b.Sturdy Sound Raises) (hside : b.OnCourse Sound side)
    (k : Key) :
    ∃ stands, b.standsAt side k = .ok stands ∧ (stands = true → side.landed = true) := by
  unfold standsAt
  cases hlanded : side.landed with
  | false => exact ⟨false, rfl, nofun⟩
  | true =>
      obtain ⟨key, hkey⟩ := hb.exists_key hside hlanded
      rw [if_pos rfl, hkey]
      exact ⟨key == k, rfl, fun _ => rfl⟩

theorem Sturdy.faultsIn_resolve (hb : b.Sturdy Sound Raises) (hside : b.OnCourse Sound side)
    {stands : Bool} (hstands : stands = true → side.landed = true) (k : Key) :
    FaultsIn Raises (b.resolve side stands k).outcome := by
  unfold resolve
  cases stands with
  | true =>
      rw [if_pos rfl, Eval.outcome_map]
      exact (hb.value _ hside.sound (hside.moving (hstands rfl))).map some
  | false =>
      rw [if_neg Bool.false_ne_true]
      split
      · exact hb.gets k
      · exact faultsIn_ok none

end Side

section Sides

variable {l : Behaviour σ} {r : Behaviour τ} {SoundL : σ → Prop} {SoundR : τ → Prop}
  {Raises : Fault → Prop} {a : Side σ} {b : Side τ}
  (hl : l.Sturdy SoundL Raises) (hr : r.Sturdy SoundR Raises)

include hl hr

/-- To look for a candidate never faults. -/
theorem Sturdy.exists_candidate (ha : l.OnCourse SoundL a) (hb : r.OnCourse SoundR b)
    (forward : Bool) : ∃ k?, candidate l r forward a b = .ok k? := by
  unfold candidate
  cases hla : a.landed with
  | true =>
      obtain ⟨k, hk⟩ := hl.exists_key ha hla
      cases hlb : b.landed with
      | true =>
          obtain ⟨m, hm⟩ := hr.exists_key hb hlb
          simp only [hk, hm, ok_bind]
          exact ⟨_, rfl⟩
      | false =>
          simp only [hk]
          split <;> exact ⟨_, rfl⟩
  | false =>
      cases hlb : b.landed with
      | true =>
          obtain ⟨m, hm⟩ := hr.exists_key hb hlb
          simp only [hm]
          split <;> exact ⟨_, rfl⟩
      | false => exact ⟨none, rfl⟩

/-- A search faults where a function of one of the sides does. The induction is on the tries. -/
theorem Sturdy.faultsIn_seek (search : Search) (tries : Nat) (ha : l.OnCourse SoundL a)
    (hb : r.OnCourse SoundR b) : FaultsIn Raises (seek l r search tries a b).outcome := by
  induction tries generalizing a b with
  | zero => exact faultsIn_ok none
  | succ tries ih =>
      obtain ⟨k?, hk⟩ := hl.exists_candidate hr ha hb search.forward
      cases k? with
      | none =>
          simp only [seek, Eval.outcome_bind, Eval.outcome_lift, hk, ok_bind]
          exact faultsIn_ok none
      | some k =>
          obtain ⟨stands, hstands, hlanded⟩ := hl.exists_standsAt ha k
          obtain ⟨stands', hstands', hlanded'⟩ := hr.exists_standsAt hb k
          have hresolve := hl.faultsIn_resolve ha hlanded k
          have hresolve' := hr.faultsIn_resolve hb hlanded' k
          -- a round goes on only if both sides answer at the candidate
          cases hanswer : (l.resolve a stands k).outcome with
          | error e =>
              rw [hanswer] at hresolve
              simp only [seek, Eval.outcome_bind, Eval.outcome_lift, hk, hstands, hstands', ok_bind,
                hanswer]
              exact hresolve.bind fun _ hok => by cases hok
          | ok answer =>
              cases hanswer' : (r.resolve b stands' k).outcome with
              | error e =>
                  rw [hanswer'] at hresolve'
                  simp only [seek, Eval.outcome_bind, Eval.outcome_lift, hk, hstands, hstands',
                    ok_bind, hanswer, hanswer']
                  exact hresolve'.bind fun _ hok => by cases hok
              | ok answer' =>
                  by_cases hboth : ∃ v w, answer = some v ∧ answer' = some w
                  · obtain ⟨v, w, hv, hw⟩ := hboth
                    rw [outcome_seek_of_values hk hstands hstands' hanswer hanswer' hv hw]
                    exact faultsIn_ok _
                  · rw [outcome_seek_of_missing hk hstands hstands' hanswer hanswer'
                      (none_or_none hboth)]
                    split
                    · exact faultsIn_ok none
                    · refine (hl.faultsIn_pass ha _ _).bind fun a' ha' => ?_
                      refine (hr.faultsIn_pass hb _ _).bind fun b' hb' => ?_
                      exact ih (hl.onCourse_pass ha ha') (hr.onCourse_pass hb hb')

theorem Sturdy.faultsIn_moveZip (m : Motion) {p : ZipPosition σ τ}
    (hp : p.Sound l.state r.state SoundL SoundR) (hready : p.state.isReady = true) :
    FaultsIn Raises (moveZip l r m p).landed.outcome := by
  have hsearch : FaultsIn Raises (searchFrom l r (m.search p.key?) p).outcome := by
    -- the sides of a ready zip are ready, so both of them start
    have hleft := hp.leftReady hready
    have hright := hp.rightReady hready
    rw [searchFrom, Eval.outcome_bind]
    refine (hl.faultsIn_advance hp.left hleft).bind fun a ha => ?_
    rw [Eval.outcome_bind]
    refine (hr.faultsIn_advance hp.right hright).bind fun b hb => ?_
    exact hl.faultsIn_seek hr _ _ (hl.onCourse_advance hp.left hleft ha)
      (hr.onCourse_advance hp.right hright hb)
  rw [moveZip, if_pos hready]
  dsimp only
  split
  · exact faultsIn_ok true
  · exact faultsIn_ok false
  · next e he =>
      rw [he] at hsearch
      exact hsearch.map fun _ => false

theorem Sturdy.faultsIn_getBoth (k : Key) : FaultsIn Raises (getBoth l r k).outcome := by
  rw [getBoth, Eval.outcome_bind]
  refine (hl.gets k).bind fun v? _ => ?_
  cases v? with
  | none => exact faultsIn_ok none
  | some v =>
      show FaultsIn Raises (r.get? k >>= _ : Eval (Option Value)).outcome
      rw [Eval.outcome_bind]
      refine (hr.gets k).bind fun w? _ => ?_
      cases w? <;> exact faultsIn_ok _

/-- A move of a zip that lands leaves it moving. -/
theorem Sturdy.moving_of_moveZip {m : Motion} {p : ZipPosition σ τ}
    (hp : p.Sound l.state r.state SoundL SoundR)
    (hlanded : (moveZip l r m p).landed.outcome = .ok true) :
    (moveZip l r m p).position.state = .moving := by
  unfold moveZip at hlanded ⊢
  split at hlanded
  · next hready =>
      rw [if_pos hready]
      dsimp only at hlanded ⊢
      split at hlanded
      · next p' hfound =>
          exact (sound_of_searchFrom hl.steady hr.steady hp hready hfound).2
      · cases hlanded
      · cases hlanded
  · cases hlanded

theorem Sturdy.zip :
    (l.zip r).Sturdy (ZipPosition.Sound l.state r.state SoundL SoundR) Raises := by
  -- a zip finds by sending out a fresh cursor, and what is sent out does not find
  have hwalk : ({ l.zip r with find? := fun _ _ => pure none } : Behaviour _).Sturdy
      (ZipPosition.Sound l.state r.state SoundL SoundR) Raises := by
    constructor
    · exact SameWalk.steady (b := l.zip r) rfl (hl.steady.zip hr.steady)
    · intro p hp hstate
      have hnone : p.current = none :=
        Option.not_isSome_iff_eq_none.mp fun hsome => hstate (hp.holds.mpr hsome)
      constructor <;> simp [Behaviour.zip, hnone]
    · intro p hp hstate
      obtain ⟨e, he⟩ := Option.isSome_iff_exists.mp (hp.holds.mp hstate)
      simp only [Behaviour.zip, he]
      exact faultsIn_ok _
    · intro m p hp hready
      exact hl.faultsIn_moveZip hr m hp hready
    · intro m p hp hlanded
      exact hl.moving_of_moveZip hr hp hlanded
    · exact hl.faultsIn_getBoth hr
    · intro k lookup
      exact faultsIn_ok none
  exact hwalk.change rfl (fun p hp => hp.value) hwalk.value hwalk.gets hwalk.faultsIn_probe

end Sides

end Behaviour

namespace Tree

/-- Some function of the tree raises the fault. -/
def Raises (e : Fault) : Tree → Prop
  | .series _ => False
  | .op t o => t.Raises e ∨ ∃ v, (o.apply v).outcome = .error e
  | .map t f => t.Raises e ∨ ∃ k v, f k v = .error e
  | .zip l r => l.Raises e ∨ r.Raises e
  | .carry t => t.Raises e
  | .fill t _ => t.Raises e
  | .refuse t => t.Raises e

/-- Every tree is sturdy, one combinator after the other. -/
theorem sturdy (sources : Sources) (t : Tree) :
    (t.behaviour sources).Sturdy t.Sound fun e => t.Raises e := by
  induction t with
  | series id => exact Behaviour.sturdy_ofSeries (sources id)
  | op t o ih => exact (ih.mono fun _ => .inl).op fun v e he => .inr ⟨v, he⟩
  | map t f ih => exact (ih.mono fun _ => .inl).map fun k v e he => .inr ⟨k, v, he⟩
  | zip l r ihl ihr =>
      have hleft : (l.behaviour sources).Sturdy l.Sound fun e => (l.zip r).Raises e :=
        ihl.mono fun _ => .inl
      have hzip := hleft.zip (ihr.mono fun _ => .inr)
      rw [state_behaviour, state_behaviour] at hzip
      exact hzip
  | carry t ih => exact ih.carry
  | fill t otherwise ih => exact ih.fill otherwise
  | refuse t ih => exact ih.discrete

/-- A cursor that was disposed is as it is disposed again, whatever became of the sources. -/
theorem dispose_dispose (sources later : Sources) (t : Tree) (p : t.Position) :
    (t.behaviour later).dispose ((t.behaviour sources).dispose p) =
      (t.behaviour sources).dispose p := by
  induction t with
  | series id => rfl
  | op t o ih => exact ih p
  | map t f ih => exact ih p
  | zip l r ihl ihr =>
      show ZipPosition.mk ((l.behaviour later).dispose ((l.behaviour sources).dispose _))
        ((r.behaviour later).dispose ((r.behaviour sources).dispose _)) _ _ = _
      rw [ihl, ihr]
      rfl
  | carry t ih => exact ih p
  | fill t otherwise ih => exact ih p
  | refuse t ih => exact ih p

/-- The cursor over the tree that is built anew, from ready cursors over its series. -/
def built (made : Sources) : Tree → Cursor
  | .series id => .ofSeries id
  | .op t o => (t.built made).op o
  | .map t f => (t.built made).map f
  | .zip l r => (l.built made).zip made (r.built made)
  | .carry t => (t.built made).carry
  | .fill t otherwise => (t.built made).fill otherwise
  | .refuse t => (t.built made).refuse

/-- A fresh cursor is one that is built anew. -/
theorem built_eq (made sources : Sources) (t : Tree) :
    t.built made = ⟨t, (t.behaviour sources).fresh⟩ := by
  induction t with
  | series id => rfl
  | op t o ih => rw [built, ih]; rfl
  | map t f ih => rw [built, ih]; rfl
  | zip l r ihl ihr =>
      have hready : ∀ t : Tree,
          Cursor.state made ⟨t, (t.behaviour sources).fresh⟩ = .ready := by
        intro t
        rw [Cursor.state, Cursor.behaviour, state_behaviour, ← state_behaviour sources]
        exact (t.steady sources).fresh_state
      rw [built, ihl, ihr, Cursor.zip, hready, hready]
      rfl
  | carry t ih => rw [built, ih]; rfl
  | fill t otherwise ih => rw [built, ih]; rfl
  | refuse t ih => rw [built, ih]; rfl

end Tree

/-- The result is a fault with this text. -/
def FailsWith {α : Type} (text : String) (x : Except Fault α) : Prop :=
  ∃ e, x = .error e ∧ e.message = text

/-- The faults of the operations that are not supplied by the user. -/
def arithmeticFaults : List Fault :=
  [.addOverflow, .subtractOverflow, .multiplyOverflow, .divideByZero, .divideOverflow,
    .remainderByZero, .remainderOverflow, .negateOverflow, Arith.mismatch]

section Arithmetic

variable (t : IntKind) (a b : Int)

theorem faultsIn_keep {fault : Fault} (h : fault ∈ arithmeticFaults) (n : Int) :
    FaultsIn (· ∈ arithmeticFaults) (t.keep fault n) := by
  intro e he
  rw [← (IntKind.keep_eq_error_iff.mp he).2]
  exact h

theorem faultsIn_divide : FaultsIn (· ∈ arithmeticFaults) (t.divide a b) := by
  unfold IntKind.divide
  split
  · rintro e ⟨⟩
    decide
  · exact faultsIn_keep t (by decide) _

theorem faultsIn_remainder : FaultsIn (· ∈ arithmeticFaults) (t.remainder a b) := by
  unfold IntKind.remainder
  split
  · rintro e ⟨⟩
    decide
  · split
    · exact faultsIn_ok _
    · rintro e ⟨⟩
      decide

theorem faultsIn_onInt (op : Arith) : FaultsIn (· ∈ arithmeticFaults) (op.onInt t a b) := by
  cases op with
  | add | subtract | subtractReverse | multiply => exact faultsIn_keep t (by decide) _
  | divide => exact faultsIn_divide t a b
  | divideReverse => exact faultsIn_divide t b a
  | modulo => exact faultsIn_remainder t a b
  | moduloReverse => exact faultsIn_remainder t b a

end Arithmetic

theorem faultsIn_mismatch {α : Type} :
    FaultsIn (· ∈ arithmeticFaults) (.error Arith.mismatch : Except Fault α) := by
  rintro e ⟨⟩
  decide

theorem faultsIn_arith (op : Arith) (v operand : Value) :
    FaultsIn (· ∈ arithmeticFaults) (op.apply v operand) := by
  unfold Arith.apply
  split
  · exact (faultsIn_onInt _ _ _ op).map _
  · exact faultsIn_ok _
  · exact faultsIn_mismatch

theorem faultsIn_negate (v : Value) : FaultsIn (· ∈ arithmeticFaults) v.negate := by
  unfold Value.negate
  split
  · exact FaultsIn.map (faultsIn_keep _ (by decide) _) _
  · exact faultsIn_ok _
  · exact faultsIn_mismatch

theorem arithmetic_or_function {o : Operation} {v : Value} {e : Fault}
    (h : (o.apply v).outcome = .error e) :
    e ∈ arithmeticFaults ∨ ∃ f, o = .function f ∧ f v = .error e := by
  cases o with
  | arith op operand => exact .inl (faultsIn_arith op v operand e h)
  | negate => exact .inl (faultsIn_negate v e h)
  | compare r operand => cases h
  | function f => exact .inr ⟨f, rfl, h⟩

/-- A function of the tree that is supplied by the user gives up with this text. -/
def Tree.Says (text : String) : Tree → Prop
  | .series _ => False
  | .op t o => t.Says text ∨ ∃ f v e, o = .function f ∧ f v = .error e ∧ e.message = text
  | .map t f => t.Says text ∨ ∃ k v e, f k v = .error e ∧ e.message = text
  | .zip l r => l.Says text ∨ r.Says text
  | .carry t => t.Says text
  | .fill t _ => t.Says text
  | .refuse t => t.Says text

/-- What arithmetic does not say is said by functions of the user alone. -/
theorem Tree.says_of_raises {text : String} (htext : ∀ e ∈ arithmeticFaults, e.message ≠ text)
    {e : Fault} (he : e.message = text) (t : Tree) (hraises : t.Raises e) : t.Says text := by
  induction t with
  | series id => exact hraises
  | op t o ih =>
      rcases hraises with hinner | ⟨v, hv⟩
      · exact .inl (ih hinner)
      · rcases arithmetic_or_function hv with harithmetic | ⟨f, ho, hf⟩
        · exact absurd he (htext e harithmetic)
        · exact .inr ⟨f, v, e, ho, hf, he⟩
  | map t f ih =>
      rcases hraises with hinner | ⟨k, v, hv⟩
      · exact .inl (ih hinner)
      · exact .inr ⟨k, v, e, hv, he⟩
  | zip l r ihl ihr =>
      rcases hraises with hleft | hright
      · exact .inl (ihl hleft)
      · exact .inr (ihr hright)
  | carry t ih | fill t _ ih | refuse t ih => exact ih hraises

namespace Cursor

/-- What a cursor answers in each state, and which state it has after each use. -/
structure Lifecycle (sources : Sources) (c : Cursor) : Prop where
  /-- It has no key exactly where it stands at no entry. -/
  key : FailsWith "cursor is not positioned" (c.key sources) ↔ c.state sources ≠ .moving
  /-- So it is with its value, unless a function of the user speaks as a cursor does. -/
  value : ¬ c.tree.Says "cursor is not positioned" →
    (FailsWith "cursor is not positioned" (c.value sources).outcome ↔ c.state sources ≠ .moving)
  nowhere : c.state sources ≠ .moving →
    (c.value sources).outcome = .error .cursorNotPositioned
  /-- Where it stands at an entry, nothing but a function can fail. -/
  stands : c.state sources = .moving → FaultsIn (c.tree.Raises ·) (c.value sources).outcome
  /-- It refuses to move exactly where it is not ready. -/
  move : ∀ m, ¬ c.tree.Says "cursor must be initialized before moving" →
    (FailsWith "cursor must be initialized before moving" (c.move sources m).2.outcome ↔
      c.state sources = .unready)
  unready : c.state sources = .unready → ∀ m, c.move sources m = (c, .fault .cursorNotReady)
  /-- Where it is ready, no part of it refuses, and nothing but a function can fail. -/
  ready : c.state sources ≠ .unready → ∀ m,
    FaultsIn (c.tree.Raises ·) (c.move sources m).2.outcome
  lands : ∀ m, (c.move sources m).2.outcome = .ok true →
    (c.move sources m).1.state sources = .moving
  reset : (c.reset sources).state sources =
    if c.state sources = .unready then .unready else .ready
  dispose : (c.dispose sources).state sources = .unready
  disposed : ∀ later, (c.dispose sources).dispose later = c.dispose sources
  fresh : (c.fresh sources).state sources = .ready
  /-- A fresh cursor is the very one that is built anew, and so answers as that does. -/
  built : ∀ made, c.fresh sources = c.tree.built made

section Reachable

variable {c : Cursor} (hc : c.Reachable) (sources : Sources)

include hc

theorem nowhere_of_not_moving (hstate : c.state sources ≠ .moving) :
    (c.behaviour sources).Nowhere c.position :=
  (c.tree.sturdy sources).nowhere c.position (sound_of_reachable hc) hstate

theorem faultsIn_value (hstate : c.state sources = .moving) :
    FaultsIn (c.tree.Raises ·) (c.value sources).outcome :=
  (c.tree.sturdy sources).value c.position (sound_of_reachable hc) hstate

theorem faultsIn_move (hstate : c.state sources ≠ .unready) (m : Motion) :
    FaultsIn (c.tree.Raises ·) (c.move sources m).2.outcome := by
  have hready : (c.state sources).isReady = true := by
    cases h : c.state sources with
    | unready => exact absurd h hstate
    | ready | moving => rfl
  exact (c.tree.sturdy sources).move m c.position (sound_of_reachable hc) hready

theorem failsWith_key_iff :
    FailsWith "cursor is not positioned" (c.key sources) ↔ c.state sources ≠ .moving := by
  constructor
  · rintro ⟨e, he, -⟩ hstate
    obtain ⟨k, hk⟩ :=
      (c.tree.steady sources).key_of_moving c.position (sound_of_reachable hc) hstate
    have hkey : c.key sources = .ok k := hk
    rw [hkey] at he
    cases he
  · intro hstate
    exact ⟨_, (nowhere_of_not_moving hc sources hstate).key, rfl⟩

/-- Where the functions of a tree do not speak as its cursors do, only a cursor that stands nowhere
says so. -/
theorem failsWith_value_iff (hspeaks : ¬ c.tree.Says "cursor is not positioned") :
    FailsWith "cursor is not positioned" (c.value sources).outcome ↔
      c.state sources ≠ .moving := by
  constructor
  · rintro ⟨e, he, htext⟩ hstate
    exact hspeaks (Tree.says_of_raises (by decide) htext c.tree
      (faultsIn_value hc sources hstate e he))
  · intro hstate
    exact ⟨_, (nowhere_of_not_moving hc sources hstate).value, rfl⟩

end Reachable

/-- A cursor that is not ready stays where it is. -/
theorem move_of_unready {sources : Sources} {c : Cursor} (hstate : c.state sources = .unready)
    (m : Motion) : c.move sources m = (c, .fault .cursorNotReady) := by
  have hready : (c.state sources).isReady = false := by
    rw [hstate]
    rfl
  have hmove := (c.tree.lifecycle sources).move_of_unready m c.position hready
  exact congrArg (fun move : Move _ => (c.standing move.position, move.landed)) hmove

theorem failsWith_move_iff {c : Cursor} (hc : c.Reachable) (sources : Sources) (m : Motion)
    (hspeaks : ¬ c.tree.Says "cursor must be initialized before moving") :
    FailsWith "cursor must be initialized before moving" (c.move sources m).2.outcome ↔
      c.state sources = .unready := by
  constructor
  · rintro ⟨e, he, htext⟩
    refine Decidable.byContradiction fun hstate => ?_
    exact hspeaks (Tree.says_of_raises (by decide) htext c.tree
      (faultsIn_move hc sources hstate m e he))
  · intro hstate
    rw [move_of_unready hstate]
    exact ⟨_, rfl, rfl⟩

/-- In whatever way a cursor came about, and whatever became of its sources meanwhile, it keeps to
its lifecycle. -/
theorem lifecycle_invariant {c : Cursor} (hc : c.Reachable) (sources : Sources) :
    c.Lifecycle sources where
  key := failsWith_key_iff hc sources
  value := failsWith_value_iff hc sources
  nowhere hstate := (nowhere_of_not_moving hc sources hstate).value
  stands := faultsIn_value hc sources
  move := failsWith_move_iff hc sources
  unready hstate := move_of_unready hstate
  ready := faultsIn_move hc sources
  lands m := (c.tree.sturdy sources).lands m c.position (sound_of_reachable hc)
  reset := by
    have hreset : (c.reset sources).state sources = (c.state sources).reset :=
      (c.tree.lifecycle sources).state_reset c.position
    rw [hreset]
    cases c.state sources <;> rfl
  dispose := (c.tree.lifecycle sources).state_dispose c.position
  disposed later := congrArg c.standing (c.tree.dispose_dispose sources later c.position)
  fresh := (c.tree.steady sources).fresh_state
  built made := (c.tree.built_eq made sources).symm

/-! A raw cursor is zipped with a ready one, and the zip with a third one that stands at an
entry. -/

/-- The zip of the three. -/
def mixedSides : Cursor :=
  ((raw 0).zip twoSeries (ofSeries 1).carry).zip twoSeries overTwoSeries

theorem reachable_mixedSides : mixedSides.Reachable :=
  .zip twoSeries (.zip twoSeries (.raw 0) (.carry (.ofSeries 1)))
    (.move twoSeries .first (.zip twoSeries (.ofSeries 0) (.carry (.ofSeries 1))))

theorem lifecycle_invariant_mixedSides :
    mixedSides.move twoSeries .next = (mixedSides, .fault .cursorNotReady) ∧
      mixedSides.fresh twoSeries = mixedSides.tree.built changedSeries ∧
      ((mixedSides.fresh twoSeries).move changedSeries .last).1.state changedSeries = .moving ∧
      (((mixedSides.fresh twoSeries).move changedSeries .last).1.reset changedSeries).state
        changedSeries = .ready := by
  have hbefore := lifecycle_invariant reachable_mixedSides twoSeries
  have hfresh := lifecycle_invariant (.fresh twoSeries reachable_mixedSides) changedSeries
  have hmoved := lifecycle_invariant
    (.move changedSeries .last (.fresh twoSeries reachable_mixedSides)) changedSeries
  have hmoving := hfresh.lands .last rfl
  refine ⟨hbefore.unready rfl .next, hbefore.built changedSeries, hmoving, ?_⟩
  rw [hmoved.reset, hmoving]
  rfl

end Cursor

end LiveSeries
