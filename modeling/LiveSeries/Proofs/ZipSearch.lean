import LiveSeries.Proofs.Walk

/-!
# The search of a zip

A zip looks for the next key at which both of its sides have a value. Its search walks over the
keys of both sides in one direction. The invariant of the loop is that there is one move `m`,
such that each side stands where `m` leads in its own entries (`Reached`). The first of the keys
on either side that `m` admits is the candidate (`Leads`). If a side has no value there, both
sides stand where the move beyond the candidate leads, and that move leads to the same entry of
the zip as `m`. So the search ends at the entry of the zip to which its first move leads
(`outcome_seek`).

Every candidate uses up an entry of a side that was still ahead (`ahead`), which bounds the
number of candidates.
-/

namespace LiveSeries

/-! ## What lies ahead -/

/-- How many entries a move admits. -/
def ahead (m : Motion) (entries : List Entry) : Nat := entries.countP fun e => m.Admits e.1

theorem ahead_beyond_le {m : Motion} (hm : ∀ k, m ≠ .find k .eq) {k : Key} (hk : m.Admits k)
    (entries : List Entry) : ahead (.beyond m.forward k) entries ≤ ahead m entries := by
  refine List.countP_mono_left ?_
  intro e _ he
  rw [decide_eq_true_eq] at he ⊢
  exact Motion.admits_of_precedes hm hk (Motion.admits_beyond.mp he)

/-- Beyond an admitted key there is less ahead, if there is an entry at the key. -/
theorem ahead_beyond_lt {m : Motion} (hm : ∀ k, m ≠ .find k .eq) {k : Key} (hk : m.Admits k)
    {entries : List Entry} (hmem : k ∈ keysOf entries) :
    ahead (.beyond m.forward k) entries < ahead m entries := by
  obtain ⟨v, hv⟩ := mem_keysOf.mp hmem
  obtain ⟨front, back, rfl⟩ := List.append_of_mem hv
  have hfront := ahead_beyond_le hm hk front
  have hback := ahead_beyond_le hm hk back
  have hnot : ¬ (Motion.beyond m.forward k).Admits k := by
    rw [Motion.admits_beyond]
    exact Key.precedes_irrefl _ _
  simp only [ahead, List.countP_append, List.countP_cons] at *
  simp only [hk, hnot, decide_true, decide_false, if_true]
  simp only [Bool.false_eq_true, if_false]
  omega

/-- An entry of a list that no admitted key of another comes before stays where it is, if the
list does not hold the key. -/
theorem target_beyond {m : Motion} (hm : ∀ k, m ≠ .find k .eq) {k : Key} (hk : m.Admits k)
    {entries : List Entry} (hfirst : ∀ e ∈ entries, m.Admits e.1 → ¬ e.1.Precedes m.forward k)
    (hmem : k ∉ keysOf entries) :
    (Motion.beyond m.forward k).target entries none = m.target entries none := by
  refine Motion.target_congr (Motion.forward_beyond _ _) ?_
  intro e he
  rw [Motion.admits_beyond]
  constructor
  · exact Motion.admits_of_precedes hm hk
  · intro hadm
    refine Key.precedes_of_ne ?_ (hfirst e he hadm)
    rintro rfl
    exact hmem (mem_keysOf.mpr ⟨e.2, he⟩)

/-- A move leads to an admitted key that no other admitted key comes before, if the list holds
it. -/
theorem exists_target_of_mem {m : Motion} {k : Key} (hk : m.Admits k) {entries : List Entry}
    (hinc : Increasing entries)
    (hfirst : ∀ e ∈ entries, m.Admits e.1 → ¬ e.1.Precedes m.forward k)
    (hmem : k ∈ keysOf entries) : ∃ v, m.target entries none = some (k, v) := by
  obtain ⟨v, hv⟩ := mem_keysOf.mp hmem
  exact ⟨v, (Motion.target_eq_some_iff hinc).mpr ⟨hv, hk, hfirst⟩⟩

/-- Of the keys of two lists that a move admits this one comes first. -/
structure Leads (m : Motion) (left right : List Entry) (k : Key) : Prop where
  admits : m.Admits k
  mem : k ∈ keysOf left ∨ k ∈ keysOf right
  firstLeft : ∀ e ∈ left, m.Admits e.1 → ¬ e.1.Precedes m.forward k
  firstRight : ∀ e ∈ right, m.Admits e.1 → ¬ e.1.Precedes m.forward k

theorem Leads.ahead_lt {m : Motion} {left right : List Entry} {k : Key}
    (h : Leads m left right k) (hm : ∀ k, m ≠ .find k .eq) :
    ahead (.beyond m.forward k) left + ahead (.beyond m.forward k) right <
      ahead m left + ahead m right := by
  have hleft := ahead_beyond_le hm h.admits left
  have hright := ahead_beyond_le hm h.admits right
  rcases h.mem with hmem | hmem
  · have := ahead_beyond_lt hm h.admits hmem
    omega
  · have := ahead_beyond_lt hm h.admits hmem
    omega

/-- If both sides have an entry for a move, the earlier of the two leads. -/
theorem Leads.of_both {m : Motion} {left right : List Entry} {d e : Entry}
    (hincl : Increasing left) (hincr : Increasing right) (hd : m.target left none = some d)
    (he : m.target right none = some e) :
    Leads m left right (if e.1.Precedes m.forward d.1 then e.1 else d.1) := by
  obtain ⟨hmemd, hadmd, hfirstd⟩ := (Motion.target_eq_some_iff hincl).mp hd
  obtain ⟨hmeme, hadme, hfirste⟩ := (Motion.target_eq_some_iff hincr).mp he
  by_cases hlt : e.1.Precedes m.forward d.1
  · rw [if_pos hlt]
    refine ⟨hadme, .inr (mem_keysOf.mpr ⟨e.2, hmeme⟩), ?_, hfirste⟩
    intro x hx hadm hxe
    exact hfirstd x hx hadm (Key.precedes_trans hxe hlt)
  · rw [if_neg hlt]
    refine ⟨hadmd, .inl (mem_keysOf.mpr ⟨d.2, hmemd⟩), hfirstd, ?_⟩
    intro x hx hadm
    exact Key.not_precedes_trans (hfirste x hx hadm) hlt

theorem Leads.symm {m : Motion} {left right : List Entry} {k : Key} (h : Leads m left right k) :
    Leads m right left k where
  admits := h.admits
  mem := h.mem.symm
  firstLeft := h.firstRight
  firstRight := h.firstLeft

/-- If one side only has an entry for a move, that entry leads. -/
theorem Leads.of_left {m : Motion} {left right : List Entry} {d : Entry}
    (hincl : Increasing left) (hd : m.target left none = some d)
    (hnone : m.target right none = none) : Leads m left right d.1 := by
  obtain ⟨hmem, hadm, hfirst⟩ := (Motion.target_eq_some_iff hincl).mp hd
  refine ⟨hadm, .inl (mem_keysOf.mpr ⟨d.2, hmem⟩), hfirst, ?_⟩
  intro x hx hadmx
  exact absurd hadmx (Motion.target_eq_none_iff.mp hnone x hx)

namespace Behaviour

variable {σ τ : Type}

/-! ## One side of a search -/

/-- The side stands where the move leads in its entries. -/
structure Reached (b : Behaviour σ) (Sound : σ → Prop) (entries : List Entry) (m : Motion)
    (side : Side σ) : Prop where
  sound : Sound side.position
  ready : (b.state side.position).isReady = true
  lands : ∀ e, m.target entries none = some e → side.landed = true ∧ b.StandsOn side.position e
  fails : m.target entries none = none → side.landed = false

section Side

variable {b : Behaviour σ} {Sound : σ → Prop} {entries : List Entry} {Kind : Value → Prop}
  {m : Motion} {side : Side σ}

theorem Reached.of_landed (h : b.Reached Sound entries m side) (hlanded : side.landed = true) :
    ∃ e, m.target entries none = some e ∧ b.StandsOn side.position e := by
  cases htarget : m.target entries none with
  | none =>
      rw [h.fails htarget] at hlanded
      cases hlanded
  | some e => exact ⟨e, rfl, (h.lands e htarget).2⟩

theorem Reached.of_not_landed (h : b.Reached Sound entries m side)
    (hlanded : side.landed = false) : m.target entries none = none := by
  cases htarget : m.target entries none with
  | none => rfl
  | some e =>
      rw [(h.lands e htarget).1] at hlanded
      cases hlanded

/-- What becomes of a side after a failed candidate: if it stands there, it makes a step. -/
def pass (b : Behaviour σ) (forward stands : Bool) (side : Side σ) : Eval (Side σ) :=
  if stands then b.advance (if forward then .next else .previous) side.position else pure side

theorem outcome_advance (b : Behaviour σ) (m : Motion) (p : σ) :
    (b.advance m p).outcome =
      (b.move m p).landed.outcome.map fun landed => ⟨(b.move m p).position, landed⟩ := by
  rw [advance, Eval.outcome_bind]
  cases (b.move m p).landed.outcome <;> rfl

/-- A step of a side leads where the move leads in its entries. -/
theorem Answers.outcome_advance (hb : b.Answers Sound entries Kind) {step : Motion} {p : σ}
    (hp : Sound p) (hready : (b.state p).isReady = true)
    (hstep : step.target entries (b.place p).key = m.target entries none) :
    ∃ side, (b.advance step p).outcome = .ok side ∧ b.Reached Sound entries m side := by
  rw [Behaviour.outcome_advance]
  have hsound := hb.steady.move_sound step p hp
  have hready' := hb.steady.move_ready step p hp hready
  cases htarget : m.target entries none with
  | none =>
      obtain ⟨hlanded, -⟩ := hb.walks.stays step p hp hready (hstep.trans htarget)
      rw [hlanded]
      refine ⟨_, rfl, hsound, hready', ?_, fun _ => rfl⟩
      rw [htarget]
      rintro e ⟨⟩
  | some e =>
      obtain ⟨hlanded, hstands⟩ := hb.walks.lands step p e hp hready (hstep.trans htarget)
      rw [hlanded]
      refine ⟨_, rfl, hsound, hready', ?_, ?_⟩
      · rw [htarget]
        rintro d ⟨⟩
        exact ⟨rfl, hstands⟩
      · rw [htarget]
        rintro ⟨⟩

/-- The side stands at the candidate exactly if it has an entry there. -/
theorem Reached.standsAt_eq (h : b.Reached Sound entries m side) (hinc : Increasing entries)
    {k : Key} (hk : m.Admits k)
    (hfirst : ∀ e ∈ entries, m.Admits e.1 → ¬ e.1.Precedes m.forward k) :
    b.standsAt side k = .ok (decide (k ∈ keysOf entries)) := by
  unfold standsAt
  by_cases hmem : k ∈ keysOf entries
  · obtain ⟨v, hv⟩ := exists_target_of_mem hk hinc hfirst hmem
    obtain ⟨hlanded, hstands⟩ := h.lands _ hv
    rw [hlanded, if_pos rfl, hstands.key, ok_bind, decide_eq_true hmem, beq_self_eq_true]
    rfl
  · rw [decide_eq_false hmem]
    cases hlanded : side.landed with
    | false => rfl
    | true =>
        obtain ⟨e, htarget, hstands⟩ := h.of_landed hlanded
        have hne : e.1 ≠ k := by
          rintro rfl
          exact hmem (mem_keysOf.mpr ⟨e.2, Motion.mem_of_target htarget⟩)
        rw [if_pos rfl, hstands.key, ok_bind, beq_eq_false_iff_ne.mpr hne]
        rfl

/-- A side answers at the candidate with its value there. -/
theorem Reached.outcome_resolve (h : b.Reached Sound entries m side)
    (hb : b.Answers Sound entries Kind) {k : Key} (hk : m.Admits k)
    (hfirst : ∀ e ∈ entries, m.Admits e.1 → ¬ e.1.Precedes m.forward k) :
    (b.resolve side (decide (k ∈ keysOf entries)) k).outcome = .ok (b.valueAt entries k) := by
  unfold resolve valueAt
  by_cases hmem : k ∈ keysOf entries
  · obtain ⟨v, hv⟩ := exists_target_of_mem hk hb.increasing hfirst hmem
    have hlookup : entries.lookup k = some v :=
      (lookup_eq_some_iff_mem hb.increasing).mpr (Motion.mem_of_target hv)
    rw [hlookup, if_pos (decide_eq_true hmem), Eval.outcome_map, (h.lands _ hv).2.value]
    rfl
  · have hlookup : entries.lookup k = none := lookup_eq_none_iff_not_mem.mpr hmem
    rw [hlookup, decide_eq_false hmem, if_neg Bool.false_ne_true]
    cases b.continuous with
    | false => rfl
    | true =>
        obtain ⟨answer, hanswer, -⟩ := hb.gets k
        rw [if_pos rfl, hanswer]
        rfl

/-- A side that stands at a failed candidate makes a step. Then it stands where the move beyond
the candidate leads, as it does if it stood elsewhere. -/
theorem Reached.outcome_pass (h : b.Reached Sound entries m side)
    (hb : b.Answers Sound entries Kind) (hm : ∀ k, m ≠ .find k .eq) {k : Key} (hk : m.Admits k)
    (hfirst : ∀ e ∈ entries, m.Admits e.1 → ¬ e.1.Precedes m.forward k) :
    ∃ side', (b.pass m.forward (decide (k ∈ keysOf entries)) side).outcome = .ok side' ∧
      b.Reached Sound entries (.beyond m.forward k) side' := by
  unfold pass
  -- a side that stands at the candidate moves on, and any other stands beyond it already
  by_cases hmem : k ∈ keysOf entries
  · obtain ⟨v, hv⟩ := exists_target_of_mem hk hb.increasing hfirst hmem
    rw [if_pos (decide_eq_true hmem)]
    refine hb.outcome_advance h.sound h.ready ?_
    rw [(h.lands _ hv).2.place_key]
    cases m.forward <;> rfl
  · rw [decide_eq_false hmem, if_neg Bool.false_ne_true]
    have htarget := target_beyond hm hk hfirst hmem
    refine ⟨side, rfl, h.sound, h.ready, ?_, ?_⟩
    · rw [htarget]
      exact h.lands
    · rw [htarget]
      exact h.fails

end Side

/-! ## Candidates -/

section Sides

variable {l : Behaviour σ} {r : Behaviour τ} {SoundL : σ → Prop} {SoundR : τ → Prop}
  {left right : List Entry} {KindL KindR : Value → Prop} {m : Motion} {a : Side σ} {b : Side τ}

theorem not_admits_of_target_none {k : Key} (h : m.target left none = none)
    (hk : k ∈ keysOf left) : ¬ m.Admits k := by
  obtain ⟨v, hv⟩ := mem_keysOf.mp hk
  exact Motion.target_eq_none_iff.mp h (k, v) hv

/-- If there is no candidate, the move admits no entry of the zip. Else the candidate is the
first key on either side that it admits. -/
theorem candidate_eq (ha : l.Reached SoundL left m a) (hb : r.Reached SoundR right m b)
    (hincl : Increasing left) (hincr : Increasing right) :
    (candidate l r m.forward a b = .ok none ∧ ∀ e ∈ l.zipEntries r left right, ¬ m.Admits e.1) ∨
      ∃ k, candidate l r m.forward a b = .ok (some k) ∧ Leads m left right k := by
  unfold candidate
  -- a side that has not landed has no entry left, and then it matters whether it is continuous
  cases hla : a.landed with
  | true =>
      obtain ⟨d, hd, hatd⟩ := ha.of_landed hla
      cases hlb : b.landed with
      | true =>
          obtain ⟨e, he, hate⟩ := hb.of_landed hlb
          refine .inr ⟨_, ?_, Leads.of_both hincl hincr hd he⟩
          simp only [hatd.key, hate.key, ok_bind, Key.earlier_eq]
          rfl
      | false =>
          have hnone := hb.of_not_landed hlb
          cases hcont : r.continuous with
          | true =>
              refine .inr ⟨_, ?_, Leads.of_left hincl hd hnone⟩
              simp only [hatd.key]
              rfl
          | false =>
              left
              refine ⟨rfl, ?_⟩
              intro e he
              obtain ⟨-, v, w, -, hw, -⟩ := mem_zipEntries.mp he
              exact not_admits_of_target_none hnone (mem_keysOf_of_valueAt hcont hw)
  | false =>
      have hnone := ha.of_not_landed hla
      cases hlb : b.landed with
      | true =>
          obtain ⟨e, he, hate⟩ := hb.of_landed hlb
          cases hcont : l.continuous with
          | true =>
              refine .inr ⟨_, ?_, (Leads.of_left hincr he hnone).symm⟩
              simp only [hate.key]
              rfl
          | false =>
              left
              refine ⟨rfl, ?_⟩
              intro e he
              obtain ⟨-, v, w, hv, -, -⟩ := mem_zipEntries.mp he
              exact not_admits_of_target_none hnone (mem_keysOf_of_valueAt hcont hv)
      | false =>
          left
          refine ⟨rfl, ?_⟩
          intro e he
          -- the keys of a zip are those of its sides
          obtain ⟨hmem | hmem, -⟩ := mem_zipEntries.mp he
          · exact not_admits_of_target_none hnone hmem
          · exact not_admits_of_target_none (hb.of_not_landed hlb) hmem

/-! ## The loop -/

section Round

variable {search : Search} {k : Key} {stands stands' : Bool} {answer answer' : Option Value}
  (hk : candidate l r search.forward a b = .ok (some k))
  (hstands : l.standsAt a k = .ok stands) (hstands' : r.standsAt b k = .ok stands')
  (hanswer : (l.resolve a stands k).outcome = .ok answer)
  (hanswer' : (r.resolve b stands' k).outcome = .ok answer')

include hk hstands hstands' hanswer hanswer'

/-- A round at whose candidate both sides have a value. -/
theorem outcome_seek_of_values {v w : Value} (hv : answer = some v) (hw : answer' = some w)
    (tries : Nat) :
    (seek l r search (tries + 1) a b).outcome =
      .ok (some ⟨a.position, b.position, .moving, some (k, v, w)⟩) := by
  subst hv hw
  simp only [seek, Eval.outcome_bind, Eval.outcome_lift, hk, hstands, hstands', hanswer, hanswer',
    ok_bind]
  rfl

/-- A round at whose candidate one of the sides has no value. -/
theorem outcome_seek_of_missing (h : answer = none ∨ answer' = none) (tries : Nat) :
    (seek l r search (tries + 1) a b).outcome =
      if search.exact then .ok none
      else (l.pass search.forward stands a).outcome >>= fun a' =>
        (r.pass search.forward stands' b).outcome >>= fun b' =>
          (seek l r search tries a' b').outcome := by
  simp only [seek, pass, Eval.outcome_bind, Eval.outcome_lift, hk, hstands, hstands', hanswer,
    hanswer', ok_bind]
  split
  · simp at h
  · cases search.exact with
    | true => rfl
    | false => cases stands <;> cases stands' <;> simp

end Round

theorem none_or_none {α β : Type} {a : Option α} {b : Option β}
    (h : ¬ ∃ v w, a = some v ∧ b = some w) : a = none ∨ b = none := by
  cases a with
  | none => exact .inl rfl
  | some v =>
      cases b with
      | none => exact .inr rfl
      | some w => exact absurd ⟨v, w, rfl, rfl⟩ h

/-- The search ends at the given entry, or finds nothing. -/
def Finds (outcome : Except Fault (Option (ZipPosition σ τ))) : Option Entry → Prop
  | some e => ∃ p, outcome = .ok (some p) ∧ p.state = .moving ∧
      ∃ v w, p.current = some (e.1, v, w) ∧ e.2 = .pair v w
  | none => outcome = .ok none

theorem not_precedes_of_leads {k : Key} (h : Leads m left right k) {e : Entry}
    (he : e ∈ l.zipEntries r left right) (hadm : m.Admits e.1) : ¬ e.1.Precedes m.forward k := by
  obtain ⟨hmem | hmem, -⟩ := mem_zipEntries.mp he
  · obtain ⟨u, hu⟩ := mem_keysOf.mp hmem
    exact h.firstLeft (e.1, u) hu hadm
  · obtain ⟨u, hu⟩ := mem_keysOf.mp hmem
    exact h.firstRight (e.1, u) hu hadm

/-- If both sides have a value at the candidate, the move leads to it. -/
theorem target_zipEntries_of_values {k : Key} (h : Leads m left right k)
    (hincl : Increasing left) {v w : Value} (hv : l.valueAt left k = some v)
    (hw : r.valueAt right k = some w) :
    m.target (l.zipEntries r left right) none = some (k, .pair v w) := by
  refine (Motion.target_eq_some_iff (l.increasing_zipEntries r hincl right)).mpr ⟨?_, h.admits, ?_⟩
  · exact mem_zipEntries.mpr ⟨h.mem, v, w, hv, hw, rfl⟩
  · intro e he hadm
    exact not_precedes_of_leads h he hadm

/-- A zip has no entry where a side has no value. -/
theorem not_mem_zipEntries_of_missing {k : Key}
    (hmiss : l.valueAt left k = none ∨ r.valueAt right k = none) :
    k ∉ keysOf (l.zipEntries r left right) := by
  intro hmem
  obtain ⟨u, hu⟩ := mem_keysOf.mp hmem
  obtain ⟨-, v, w, hv, hw, -⟩ := mem_zipEntries.mp hu
  rcases hmiss with hmiss | hmiss
  · rw [hmiss] at hv
    cases hv
  · rw [hmiss] at hw
    cases hw

/-- A move to one key leads nowhere if there is no entry at the candidate: it admits no other. -/
theorem target_of_missing {q k : Key} (h : Leads (.find q .eq) left right k)
    (hmem : k ∉ keysOf (l.zipEntries r left right)) :
    (Motion.find q .eq).target (l.zipEntries r left right) none = none := by
  refine Motion.target_eq_none_iff.mpr ?_
  intro e he hadm
  have hkq : k = q := h.admits
  have heq : e.1 = q := hadm
  exact hmem (mem_keysOf.mpr ⟨e.2, by rw [hkq, ← heq]; exact he⟩)

/-- The search ends at the entry of the zip to which the move leads that both sides have made.
The induction is on the tries; what lies ahead of the sides bounds them from below. -/
theorem outcome_seek (hl : l.Answers SoundL left KindL) (hr : r.Answers SoundR right KindR)
    {search : Search} (hdir : search.forward = m.forward)
    (hexact : search.exact = true ↔ ∃ k, m = .find k .eq) {tries : Nat}
    (htries : ahead m left + ahead m right < tries)
    (ha : l.Reached SoundL left m a) (hb : r.Reached SoundR right m b) :
    Finds (seek l r search tries a b).outcome (m.target (l.zipEntries r left right) none) := by
  induction tries generalizing m a b with
  | zero => omega
  | succ tries ih =>
      rcases candidate_eq ha hb hl.increasing hr.increasing with ⟨hnone, hadm⟩ | ⟨k, hk, hleads⟩
      · rw [Motion.target_eq_none_iff.mpr hadm]
        rw [← hdir] at hnone
        simp only [Finds, seek, Eval.outcome_bind, Eval.outcome_lift, hnone, ok_bind]
        rfl
      · have hstands := ha.standsAt_eq hl.increasing hleads.admits hleads.firstLeft
        have hstands' := hb.standsAt_eq hr.increasing hleads.admits hleads.firstRight
        have hvalue := ha.outcome_resolve hl hleads.admits hleads.firstLeft
        have hvalue' := hb.outcome_resolve hr hleads.admits hleads.firstRight
        rw [← hdir] at hk
        by_cases hboth : ∃ v w, l.valueAt left k = some v ∧ r.valueAt right k = some w
        · obtain ⟨v, w, hv, hw⟩ := hboth
          rw [target_zipEntries_of_values hleads hl.increasing hv hw,
            outcome_seek_of_values hk hstands hstands' hvalue hvalue' hv hw]
          exact ⟨_, rfl, rfl, v, w, rfl, rfl⟩
        · have hmiss := none_or_none hboth
          rw [outcome_seek_of_missing hk hstands hstands' hvalue hvalue' hmiss]
          have hmem := not_mem_zipEntries_of_missing hmiss
          cases hex : search.exact with
          | true =>
              -- The only key that the move admits is the candidate.
              obtain ⟨q, rfl⟩ := hexact.mp hex
              rw [if_pos rfl, target_of_missing hleads hmem]
              rfl
          | false =>
              have hm : ∀ q, m ≠ .find q .eq := by
                intro q hmq
                have := hexact.mpr ⟨q, hmq⟩
                rw [hex] at this
                cases this
              obtain ⟨a', hpass, ha'⟩ := ha.outcome_pass hl hm hleads.admits hleads.firstLeft
              obtain ⟨b', hpass', hb'⟩ := hb.outcome_pass hr hm hleads.admits hleads.firstRight
              rw [if_neg Bool.false_ne_true, hdir, hpass, ok_bind, hpass', ok_bind,
                ← target_beyond hm hleads.admits (fun _ => not_precedes_of_leads hleads) hmem]
              refine ih ?_ ?_ ?_ ha' hb'
              · rw [Motion.forward_beyond, hdir]
              · rw [hex]
                refine ⟨nofun, ?_⟩
                rintro ⟨q, hq⟩
                exact absurd hq (Motion.beyond_ne_find_eq _ _ _)
              · have := hleads.ahead_lt hm
                omega

end Sides

end Behaviour

end LiveSeries
