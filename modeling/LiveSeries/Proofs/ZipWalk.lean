import LiveSeries.Proofs.ZipSearch

/-!
# Zips as walks

The position of a zip is sound if its sides are, and the zip holds a pair exactly while it is
moving (`ZipPosition.Sound`). Every operation of a zip keeps its position sound
(`Behaviour.Steady.zip`), and its moves lead where its search ends, so a zip of walks is a walk
over the entries that its sides have in common (`Behaviour.Answers.zip`).
-/

namespace LiveSeries

/-! ## The positions of a zip -/

/-- The sides of a zip are sound, and ready while the zip is. The zip holds a pair exactly while
it is moving. -/
structure ZipPosition.Sound {σ τ : Type} (stageL : σ → Stage) (stageR : τ → Stage)
    (SoundL : σ → Prop) (SoundR : τ → Prop) (p : ZipPosition σ τ) : Prop where
  left : SoundL p.left
  right : SoundR p.right
  leftReady : p.state.isReady = true → (stageL p.left).isReady = true
  rightReady : p.state.isReady = true → (stageR p.right).isReady = true
  holds : p.state = .moving ↔ p.current.isSome = true

namespace Behaviour

variable {σ τ : Type}

section Steady

variable {l : Behaviour σ} {r : Behaviour τ} {SoundL : σ → Prop} {SoundR : τ → Prop}

/-- The side is sound and ready. -/
def Keeps (b : Behaviour σ) (Sound : σ → Prop) (side : Side σ) : Prop :=
  Sound side.position ∧ (b.state side.position).isReady = true

theorem Steady.keeps_advance {b : Behaviour σ} {Sound : σ → Prop} (hb : b.Steady Sound)
    {m : Motion} {p : σ} {side : Side σ} (hp : Sound p) (hready : (b.state p).isReady = true)
    (h : (b.advance m p).outcome = .ok side) : b.Keeps Sound side := by
  rw [outcome_advance] at h
  cases hlanded : (b.move m p).landed.outcome with
  | error e =>
      rw [hlanded] at h
      cases h
  | ok landed =>
      rw [hlanded] at h
      cases h
      exact ⟨hb.move_sound m p hp, hb.move_ready m p hp hready⟩

theorem Steady.keeps_pass {b : Behaviour σ} {Sound : σ → Prop} (hb : b.Steady Sound)
    {forward stands : Bool} {side side' : Side σ} (hside : b.Keeps Sound side)
    (h : (b.pass forward stands side).outcome = .ok side') : b.Keeps Sound side' := by
  cases stands with
  | true => exact hb.keeps_advance hside.1 hside.2 h
  | false =>
      cases h
      exact hside

/-- A round that ends without a fault has had the answers of both sides. -/
theorem answers_of_seek_succ {search : Search} {tries : Nat} {a : Side σ} {b : Side τ}
    {p : ZipPosition σ τ} (h : (seek l r search (tries + 1) a b).outcome = .ok (some p)) :
    ∃ k stands stands' answer answer', candidate l r search.forward a b = .ok (some k) ∧
      l.standsAt a k = .ok stands ∧ r.standsAt b k = .ok stands' ∧
      (l.resolve a stands k).outcome = .ok answer ∧
      (r.resolve b stands' k).outcome = .ok answer' := by
  simp only [seek, Eval.outcome_bind, Eval.outcome_lift, bind_eq_ok_iff] at h
  obtain ⟨found, hfound, h⟩ := h
  cases found with
  | none => cases h
  | some k =>
      simp only [Eval.outcome_bind, Eval.outcome_lift, bind_eq_ok_iff] at h
      obtain ⟨stands, hstands, stands', hstands', answer, hanswer, answer', hanswer', -⟩ := h
      exact ⟨k, stands, stands', answer, answer', hfound, hstands, hstands', hanswer, hanswer'⟩

/-- Whatever a search finds, it leaves the sides sound and ready. -/
theorem sound_of_seek (hl : l.Steady SoundL) (hr : r.Steady SoundR) {search : Search}
    {tries : Nat} {a : Side σ} {b : Side τ} {p : ZipPosition σ τ} (ha : l.Keeps SoundL a)
    (hb : r.Keeps SoundR b) (h : (seek l r search tries a b).outcome = .ok (some p)) :
    p.Sound l.state r.state SoundL SoundR ∧ p.state = .moving := by
  induction tries generalizing a b with
  | zero => cases h
  | succ tries ih =>
      obtain ⟨k, stands, stands', answer, answer', hk, hstands, hstands', hanswer, hanswer'⟩ :=
        answers_of_seek_succ h
      by_cases hboth : ∃ v w, answer = some v ∧ answer' = some w
      · obtain ⟨v, w, hv, hw⟩ := hboth
        rw [outcome_seek_of_values hk hstands hstands' hanswer hanswer' hv hw] at h
        cases h
        exact ⟨⟨ha.1, hb.1, fun _ => ha.2, fun _ => hb.2, by simp⟩, rfl⟩
      · have hmiss := none_or_none hboth
        rw [outcome_seek_of_missing hk hstands hstands' hanswer hanswer' hmiss] at h
        cases hex : search.exact with
        | true =>
            rw [hex, if_pos rfl] at h
            cases h
        | false =>
            rw [hex, if_neg Bool.false_ne_true] at h
            -- the round passes the candidate on both sides, which keeps them ready
            obtain ⟨a', hpass, h⟩ := bind_eq_ok_iff.mp h
            obtain ⟨b', hpass', h⟩ := bind_eq_ok_iff.mp h
            exact ih (hl.keeps_pass ha hpass) (hr.keeps_pass hb hpass') h

theorem sound_of_searchFrom (hl : l.Steady SoundL) (hr : r.Steady SoundR) {search : Search}
    {p p' : ZipPosition σ τ} (hp : p.Sound l.state r.state SoundL SoundR)
    (hready : p.state.isReady = true) (h : (searchFrom l r search p).outcome = .ok (some p')) :
    p'.Sound l.state r.state SoundL SoundR ∧ p'.state = .moving := by
  simp only [searchFrom, Eval.outcome_bind, bind_eq_ok_iff] at h
  obtain ⟨a, ha, b, hb, h⟩ := h
  exact sound_of_seek hl hr (hl.keeps_advance hp.left (hp.leftReady hready) ha)
    (hr.keeps_advance hp.right (hp.rightReady hready) hb) h

/-- A move of a zip stays, or lands in a sound position. -/
theorem moveZip_position (hl : l.Steady SoundL) (hr : r.Steady SoundR) (m : Motion)
    {p : ZipPosition σ τ} (hp : p.Sound l.state r.state SoundL SoundR) :
    (moveZip l r m p).position = p ∨
      (moveZip l r m p).position.Sound l.state r.state SoundL SoundR ∧
        (moveZip l r m p).position.state = .moving := by
  unfold moveZip
  split
  · next hready =>
      dsimp only
      split
      · next p' hfound => exact .inr (sound_of_searchFrom hl hr hp hready hfound)
      · exact .inl rfl
      · exact .inl rfl
  · exact .inl rfl

theorem Steady.zip (hl : l.Steady SoundL) (hr : r.Steady SoundR) :
    (l.zip r).Steady (ZipPosition.Sound l.state r.state SoundL SoundR) where
  fresh_sound :=
    { left := hl.fresh_sound
      right := hr.fresh_sound
      leftReady := by
        intro _
        show (l.state l.fresh).isReady = true
        rw [hl.fresh_state]
        rfl
      rightReady := by
        intro _
        show (r.state r.fresh).isReady = true
        rw [hr.fresh_state]
        rfl
      holds := by simp [Behaviour.zip] }
  fresh_state := rfl
  move_sound m p hp := by
    show (moveZip l r m p).position.Sound l.state r.state SoundL SoundR
    -- a move that faults or finds nothing puts back the position that it started from
    rcases moveZip_position hl hr m hp with h | h
    · rw [h]
      exact hp
    · exact h.1
  move_ready m p hp hready := by
    show (moveZip l r m p).position.state.isReady = true
    rcases moveZip_position hl hr m hp with h | h
    · rw [h]
      exact hready
    · rw [h.2]
      rfl
  reset_sound p hp :=
    { left := hl.reset_sound p.left hp.left
      right := hr.reset_sound p.right hp.right
      leftReady := by
        intro h
        show (l.state (l.reset p.left)).isReady = true
        rw [hl.reset_ready p.left hp.left]
        exact hp.leftReady ((Stage.isReady_reset p.state).symm.trans h)
      rightReady := by
        intro h
        show (r.state (r.reset p.right)).isReady = true
        rw [hr.reset_ready p.right hp.right]
        exact hp.rightReady ((Stage.isReady_reset p.state).symm.trans h)
      holds := by simp [Behaviour.zip, Stage.reset_ne_moving] }
  reset_ready p _ := Stage.isReady_reset p.state
  dispose_sound p hp :=
    { left := hl.dispose_sound p.left hp.left
      right := hr.dispose_sound p.right hp.right
      leftReady := nofun
      rightReady := nofun
      holds := by simp [Behaviour.zip] }
  key_of_moving p hp hmoving := by
    obtain ⟨⟨k, v, w⟩, hcurrent⟩ := Option.isSome_iff_exists.mp (hp.holds.mp hmoving)
    exact ⟨k, by simp [Behaviour.zip, hcurrent]⟩

end Steady

/-! ## The zip as a walk -/

theorem forward_start_search (m : Motion) (from? : Option Key) :
    (m.search from?).start.forward = (m.search from?).forward := by
  cases m <;> cases from? <;> rfl

/-- A search stops at its first candidate exactly if it starts at an exact key. -/
theorem exact_search_iff (m : Motion) (from? : Option Key) :
    (m.search from?).exact = true ↔ ∃ k, (m.search from?).start = .find k .eq := by
  match m, from? with
  | .first, _ | .last, _ | .next, none | .previous, none | .next, some _ | .previous, some _ =>
      simp [Motion.search]
  | .find k lookup, _ => simp [Motion.search]

/-- The move with which a search starts leads to the same entry from everywhere. -/
theorem target_start_search (entries : List Entry) (m : Motion) (from? to? : Option Key) :
    (m.search from?).start.target entries to? = (m.search from?).start.target entries none := by
  cases m <;> cases from? <;> rfl

/-- The key from which a zip moves is that of its place. -/
theorem place_key_zip (l : Behaviour σ) (r : Behaviour τ) (p : ZipPosition σ τ) :
    ((l.zip r).place p).key = p.key? := by
  simp only [place, zip, ZipPosition.key?]
  cases p.current <;> rfl

section Zip

variable {l : Behaviour σ} {r : Behaviour τ} {SoundL : σ → Prop} {SoundR : τ → Prop}
  {left right : List Entry} {KindL KindR : Value → Prop}

theorem ahead_le_length (m : Motion) (entries : List Entry) : ahead m entries ≤ entries.length :=
  List.countP_le_length

/-- The search of a zip finds the entry to which the move leads. -/
theorem outcome_searchFrom (hl : l.Answers SoundL left KindL) (hr : r.Answers SoundR right KindR)
    (m : Motion) {p : ZipPosition σ τ} (hp : p.Sound l.state r.state SoundL SoundR)
    (hready : p.state.isReady = true) :
    Finds (searchFrom l r (m.search p.key?) p).outcome
      (m.target (l.zipEntries r left right) ((l.zip r).place p).key) := by
  rw [place_key_zip, Motion.target_eq_target_search]
  obtain ⟨a, ha, hreacha⟩ := hl.outcome_advance hp.left (hp.leftReady hready)
    (target_start_search left m p.key? (l.place p.left).key)
  obtain ⟨b, hb, hreachb⟩ := hr.outcome_advance hp.right (hp.rightReady hready)
    (target_start_search right m p.key? (r.place p.right).key)
  rw [searchFrom, Eval.outcome_bind, ha, ok_bind, Eval.outcome_bind, hb, ok_bind]
  refine outcome_seek hl hr (forward_start_search m p.key?).symm (exact_search_iff m p.key?) ?_
    hreacha hreachb
  have hleft := ahead_le_length (m.search p.key?).start left
  have hright := ahead_le_length (m.search p.key?).start right
  have := hl.length_le
  have := hr.length_le
  omega

theorem Walks.zip (hl : l.Answers SoundL left KindL) (hr : r.Answers SoundR right KindR) :
    (l.zip r).Walks (ZipPosition.Sound l.state r.state SoundL SoundR)
      (l.zipEntries r left right) where
  lands m p e hp hready htarget := by
    have hready' : p.state.isReady = true := hready
    have hfinds := outcome_searchFrom hl hr m hp hready'
    rw [htarget] at hfinds
    obtain ⟨p', hfound, hmoving, v, w, hcurrent, hpair⟩ := hfinds
    show (moveZip l r m p).landed.outcome = _ ∧ (l.zip r).StandsOn (moveZip l r m p).position e
    simp only [moveZip, hready', if_true, hfound]
    refine ⟨trivial, hmoving, ?_, ?_⟩
    · simp [Behaviour.zip, hcurrent]
    · simp [Behaviour.zip, hcurrent, hpair]
  stays m p hp hready htarget := by
    have hready' : p.state.isReady = true := hready
    have hfinds : (searchFrom l r (m.search p.key?) p).outcome = .ok none := by
      have := outcome_searchFrom hl hr m hp hready'
      rwa [htarget] at this
    show (moveZip l r m p).landed.outcome = _ ∧ (moveZip l r m p).position = p
    simp only [moveZip, hready', if_true, hfinds]
    exact ⟨trivial, trivial⟩

/-- A value of a side at a key is of the kind of the side. -/
theorem Answers.kind_valueAt {b : Behaviour σ} {Sound : σ → Prop} {entries : List Entry}
    {Kind : Value → Prop} (hb : b.Answers Sound entries Kind) {k : Key} {v : Value}
    (h : b.valueAt entries k = some v) : Kind v := by
  unfold valueAt at h
  cases hlookup : entries.lookup k with
  | some w =>
      rw [hlookup] at h
      cases h
      exact hb.kind (k, v) ((lookup_eq_some_iff_mem hb.increasing).mp hlookup)
  | none =>
      rw [hlookup] at h
      cases hcont : b.continuous with
      | false =>
          rw [hcont] at h
          cases h
      | true =>
          obtain ⟨answer, hanswer, hof⟩ := hb.gets k
          rw [hcont, hanswer] at h
          exact hof v h

theorem Answers.zip (hl : l.Answers SoundL left KindL) (hr : r.Answers SoundR right KindR) :
    (l.zip r).Answers (ZipPosition.Sound l.state r.state SoundL SoundR)
      (l.zipEntries r left right) (fun w => ∃ u v, KindL u ∧ KindR v ∧ w = .pair u v) where
  steady := hl.steady.zip hr.steady
  walks := .zip hl hr
  increasing := l.increasing_zipEntries r hl.increasing right
  length_le := by
    have := l.length_zipEntries_le r left right
    have := hl.length_le
    have := hr.length_le
    show _ ≤ l.extent + r.extent
    omega
  finds k lookup := by
    show ((l.zip r).probe k lookup).outcome = _
    exact outcome_probe (hl.steady.zip hr.steady) (.zip hl hr) k lookup
  gets k := by
    obtain ⟨answer, hanswer, hof⟩ := hl.gets k
    obtain ⟨answer', hanswer', hof'⟩ := hr.gets k
    show ∃ answer, (getBoth l r k).outcome = .ok answer ∧ _
    rw [getBoth, Eval.outcome_bind, hanswer, ok_bind]
    cases answer with
    | none => exact ⟨none, rfl, nofun⟩
    | some v =>
        rw [Eval.outcome_bind, hanswer', ok_bind]
        cases answer' with
        | none => exact ⟨none, rfl, nofun⟩
        | some w =>
            refine ⟨some (.pair v w), rfl, ?_⟩
            rintro u ⟨⟩
            exact ⟨v, w, hof v rfl, hof' w rfl, rfl⟩
  kind e he := by
    obtain ⟨-, v, w, hv, hw, hpair⟩ := mem_zipEntries.mp he
    exact ⟨v, w, hl.kind_valueAt hv, hr.kind_valueAt hw, hpair⟩

end Zip

end Behaviour

end LiveSeries
