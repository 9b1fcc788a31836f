import LiveSeries.Proofs.FailedMutations
import LiveSeries.Proofs.LoadReplay
import LiveSeries.Proofs.SealedSeries

/-!
# Loads that fail

A replay stops at the first command that fails. The commands before it stay applied, and those
after it are never tried (`LoadQueue.replay_eq_error_iff`). The command that failed leaves nothing
behind either, because commands are done as a whole or not at all. So a load that fails leaves the
series at a clean cut of its replay (`LoadQueue.StopsAt`), whatever the targets of the series do
when they are notified.

The queue is not part of what can fail. It gives up what it kept before the outcome is known, and
nothing that is called later makes it keep commands again (`LoadQueue.LeadsTo.live`).
-/

namespace LiveSeries

/-- The consumer hands its commands to a series, which is a part of its state. The targets that it
notifies may change the series and all else, as long as the series is one that comes about. -/
structure Consumer.Drives {σ : Type} (inner : Consumer σ) (target : σ → Series) : Prop where
  result (c : StampedCommand) (s : σ) : (inner c s).1 = ((target s).apply c).result
  /-- Where nobody is notified, nobody changes anything. -/
  quiet (c : StampedCommand) (s : σ) :
    ((target s).apply c).Void (target s) → target (inner c s).2 = target s
  reachable (c : StampedCommand) (s : σ) :
    (target s).Reachable → (target (inner c s).2).Reachable

/-- A write leaves a series that comes about, before its writer leaves the gate and afterwards. -/
theorem Series.Reachable.settled {s : Series} (h : s.Reachable) (c : StampedCommand) :
    (s.apply c).settled.Reachable := by
  have hwritten : (s.apply c).series.Reachable := .write (.command c) h
  unfold Write.settled
  split
  · exact .settle hwritten
  · exact hwritten

theorem Series.drives_consumer : Consumer.Drives Series.consumer fun s => s where
  result _ _ := rfl
  quiet c s h := by
    show (s.apply c).settled = s
    rw [Write.settled, h.notice]
    exact h.series
  reachable c _ h := h.settled c

theorem Hub.reachable_setSeries {h : Hub} {id : SourceId} {s : Series}
    (hold : (h.sources id).Reachable) (hs : s.Reachable) :
    ((h.setSeries id s).sources id).Reachable := by
  rw [sources_setSeries]
  split
  · exact hs
  · exact hold

/-- A series of a session is driven by its commands, if its targets leave it as one that comes
about. -/
theorem World.drives_seriesConsumer {notify : Notice → World → World} {id : SourceId}
    (hnotify : ∀ n w, (w.hub.sources id).Reachable → ((notify n w).hub.sources id).Reachable) :
    (World.seriesConsumer notify id).Drives fun w => w.hub.sources id where
  result _ _ := rfl
  quiet c w h := by
    obtain ⟨reports, hsettle⟩ := World.settle_of_void notify h.series h.notice
    rw [World.seriesConsumer, hsettle]
    rfl
  reachable c w h := by
    have hcommit : ((w.hub.commit id ((w.hub.sources id).apply c)).sources id).Reachable := by
      rw [Hub.commit, Hub.foldl_report]
      exact Hub.reachable_setSeries h (.write (.command c) h)
    show ((World.settle notify id ((w.hub.sources id).apply c) w).hub.sources id).Reachable
    unfold World.settle
    split
    · exact hcommit
    · next n _ =>
        have hnotified := hnotify n { w with hub := w.hub.commit id _ } hcommit
        exact Hub.reachable_setSeries hnotified (.settle hnotified)

/-- A command that fails is void. -/
theorem Series.Reachable.void_of_error {s : Series} (h : s.Reachable) {c : StampedCommand}
    {e : Failure} (hfails : (s.apply c).result = .error e) : (s.apply c).Void s := by
  have hcommand : (Mutation.command c).Fails s :=
    .error (congrArg (Except.map fun _ => ()) hfails)
  obtain ⟨hseries, hnotice⟩ := void_of_fails h.next_and_page.1 hcommand
  exact ⟨hseries, hnotice⟩

namespace Consumer.Drives

variable {σ : Type} {inner : Consumer σ} {target : σ → Series}

theorem reachable_feed (h : inner.Drives target) (commands : List StampedCommand) {s : σ}
    (hs : (target s).Reachable) : (target (inner.feed commands s).2).Reachable := by
  induction commands generalizing s with
  | nil => exact hs
  | cons c rest ih => exact ih (h.reachable c s hs)

end Consumer.Drives

namespace LoadQueue

variable {σ : Type} {inner : Consumer σ}

/-! ## Replays that fail -/

/-- A replay fails at a command, if the commands before it are taken, and it is not. -/
theorem replay_eq_error_iff {commands : List StampedCommand} {count : Nat} {s s' : σ}
    {e : Failure} :
    replay inner commands count s = (.error e, s') ↔
      ∃ done c rest, commands = done ++ c :: rest ∧ inner.Takes done s ∧
        inner c (inner.feed done s).2 = (.error e, s') := by
  induction commands generalizing count s with
  | nil => simp [replay]
  | cons c rest ih =>
      generalize hstep : inner c s = step
      obtain ⟨answer, s₁⟩ := step
      constructor
      · intro h
        cases answer with
        | error e₁ =>
            -- the replay stops here, with nothing done
            rw [replay, hstep] at h
            cases h
            exact ⟨[], c, rest, rfl, Consumer.takes_nil inner s, hstep⟩
        | ok o =>
            rw [replay_cons_of_ok hstep] at h
            obtain ⟨done, d, rest', rfl, htakes, hfails⟩ := ih.mp h
            refine ⟨c :: done, d, rest', rfl, Consumer.takes_cons.mpr ⟨o, s₁, hstep, htakes⟩, ?_⟩
            rw [Consumer.feed_cons hstep]
            exact hfails
      · rintro ⟨done, d, rest', hsplit, htakes, hfails⟩
        cases done with
        | nil =>
            cases hsplit
            have hhere : inner c s = (.error e, s') := hfails
            rw [replay, hhere]
        | cons c₁ done =>
            cases hsplit
            obtain ⟨o, s₂, htaken, hdone⟩ := Consumer.takes_cons.mp htakes
            rw [Consumer.feed_cons htaken] at hfails
            rw [hstep] at htaken
            cases htaken
            rw [replay_cons_of_ok hstep]
            exact ih.mpr ⟨done, d, rest', rfl, hdone, hfails⟩

/-- The replay stopped at a command, and it is as if that command had never come. -/
structure StopsAt (inner : Consumer σ) (target : σ → Series) (done : List StampedCommand)
    (c : StampedCommand) (before : σ) (e : Failure) (after : σ) : Prop where
  /-- The commands before it are taken without an error. -/
  taken : inner.Takes (done.map relax) before
  /-- The series is as they left it. -/
  target_eq : target after = target (inner.feed (done.map relax) before).2
  /-- There the command fails. -/
  fails : ((target after).apply (relax c)).result = .error e
  void : ((target after).apply (relax c)).Void (target after)

/-- A load that fails stops at one of the commands that the queue kept. -/
theorem exists_stopsAt {target : σ → Series} (hdrives : inner.Drives target) {q : LoadQueue}
    {s : σ} (hs : (target s).Reachable) {e : Failure} (h : (finish inner q s).1 = .error e) :
    ∃ kept done c rest, q.pending = some kept ∧ sorted kept = done ++ c :: rest ∧
      StopsAt inner target done c s e (finish inner q s).2.2 := by
  obtain ⟨id, pending⟩ := q
  cases pending with
  | none => cases h
  | some kept =>
      have hreplay : replay inner (replayOrder kept) 0 s =
          (.error e, (finish inner ⟨id, some kept⟩ s).2.2) := Prod.ext h rfl
      generalize (finish inner ⟨id, some kept⟩ s).2.2 = after at hreplay ⊢
      obtain ⟨doneR, cR, restR, hsplit, htakes, hfails⟩ := replay_eq_error_iff.mp hreplay
      -- the cut of the relaxed commands comes from a cut of those that were kept
      rw [replayOrder_eq, List.map_eq_append_iff] at hsplit
      obtain ⟨done, tail, hsorted, rfl, htail⟩ := hsplit
      obtain ⟨c, rest, rfl, rfl, -⟩ := List.map_eq_cons_iff.mp htail
      have hreached := hdrives.reachable_feed (done.map relax) hs
      have hresult := hdrives.result (relax c) (inner.feed (done.map relax) s).2
      have hquiet := hdrives.quiet (relax c) (inner.feed (done.map relax) s).2
      rw [hfails] at hresult hquiet
      have hvoid := hreached.void_of_error hresult.symm
      have htarget : target after = target (inner.feed (done.map relax) s).2 := hquiet hvoid
      rw [← htarget] at hresult hvoid
      exact ⟨kept, done, c, rest, rfl, hsorted, htakes, htarget, hresult.symm, hvoid⟩

/-! ## What calls lead to -/

/-- What calls make of a queue and the state behind it, with anything happening to that state in
between. -/
inductive LeadsTo (inner : Consumer σ) (q : LoadQueue) (s : σ) : LoadQueue → σ → Prop where
  | start : LeadsTo inner q s q s
  | send {q' : LoadQueue} {s' : σ} (c : StampedCommand) : LeadsTo inner q s q' s' →
      LeadsTo inner q s (consumer inner c (q', s')).2.1 (consumer inner c (q', s')).2.2
  | finish {q' : LoadQueue} {s' : σ} : LeadsTo inner q s q' s' →
      LeadsTo inner q s (finish inner q' s').2.1 (finish inner q' s').2.2
  | change {q' : LoadQueue} {s' : σ} (s'' : σ) : LeadsTo inner q s q' s' →
      LeadsTo inner q s q' s''

namespace LeadsTo

variable {q q' : LoadQueue} {s s' : σ}

/-- A queue stays with its series. -/
theorem id_eq (h : LeadsTo inner q s q' s') : q'.id = q.id := by
  induction h with
  | start => rfl
  | send c _ ih => rw [id_consumer, ih]
  | finish _ ih => rw [queue_finish, ih]
  | change s'' _ ih => exact ih

/-- No call makes a queue load again. -/
theorem live (h : LeadsTo inner q s q' s') (hlive : q.pending = none) : q' = q := by
  induction h with
  | start => rfl
  | @send q₁ s₁ c _ ih =>
      subst ih
      by_cases hc : c.series = q₁.id
      · rw [consumer_of_live inner hlive hc]
      · rw [consumer_of_other inner hc]
  | finish _ ih =>
      subst ih
      rw [finish_of_live inner hlive]
  | change s'' _ ih => exact ih

end LeadsTo

/-- A load that fails stops at one of its commands, in the order of their versions. The commands
before it are applied without an error, and the series is as they left it. Finishing is over with
the first call, whether or not it fails: from then on there is nothing to replay, and commands are
handed on. In every phase commands of other series are refused, and change neither the queue nor
what is behind it. -/
theorem failed_load_is_clean {target : σ → Series} (hdrives : inner.Drives target) (q : LoadQueue)
    {s : σ} (hs : (target s).Reachable) :
    (∀ e, (finish inner q s).1 = .error e →
      ∃ kept done c rest, q.pending = some kept ∧ sorted kept = done ++ c :: rest ∧
        StopsAt inner target done c s e (finish inner q s).2.2) ∧
    (∀ q' s', LeadsTo inner (finish inner q s).2.1 (finish inner q s).2.2 q' s' →
      q' = ⟨q.id, none⟩ ∧ finish inner q' s' = (.ok 0, q', s') ∧
        ∀ c, c.series = q.id →
          consumer inner c (q', s') = ((inner c s').1, q', (inner c s').2)) ∧
    ∀ q' s', LeadsTo inner q s q' s' → ∀ c, c.series ≠ q.id →
      consumer inner c (q', s') = (.error (.refused (.wrongSeries q.id c.series)), q', s') := by
  refine ⟨fun e he => exists_stopsAt hdrives hs he, ?_, ?_⟩
  · intro q' s' hleads
    have hover := queue_finish inner q s
    obtain rfl : q' = ⟨q.id, none⟩ := by
      rw [hleads.live (congrArg pending hover), hover]
    have hlive : (⟨q.id, none⟩ : LoadQueue).pending = none := rfl
    exact ⟨rfl, finish_of_live inner hlive s', fun c hc => consumer_of_live inner hlive hc s'⟩
  · intro q' s' hleads c hc
    have hid := hleads.id_eq
    rw [← hid] at hc ⊢
    exact consumer_of_other inner hc s'

/-- Three commands for a series of two entries. The one that is second by its version repeats an
entry, and contradicts the entry that the first one made. -/
def contradicted : List StampedCommand :=
  [⟨7, 3, .complete⟩, ⟨7, 1, .set (.int 3) (.int 30)⟩,
    ⟨7, 2, .append [(.int 2, .int 20), (.int 3, .int 31), (.int 4, .int 40)] .reject⟩]

theorem failed_load_is_clean_halfway :
    finish Series.consumer ⟨7, some contradicted⟩ Series.twoEntries =
        (.error (.refused .overlap), ⟨7, none⟩,
          (Series.twoEntries.apply ⟨7, 1, .set (.int 3) (.int 30)⟩).settled) ∧
      (∃ done c rest, sorted contradicted = done ++ c :: rest ∧
        StopsAt Series.consumer (fun s => s) done c Series.twoEntries (.refused .overlap)
          (finish Series.consumer ⟨7, some contradicted⟩ Series.twoEntries).2.2) ∧
      consumer Series.consumer ⟨8, 1, .complete⟩ (⟨7, some contradicted⟩, Series.twoEntries) =
        (.error (.refused (.wrongSeries 7 8)), ⟨7, some contradicted⟩, Series.twoEntries) := by
  have hsorted : sorted contradicted = [⟨7, 1, .set (.int 3) (.int 30)⟩,
      ⟨7, 2, .append [(.int 2, .int 20), (.int 3, .int 31), (.int 4, .int 40)] .reject⟩,
      ⟨7, 3, .complete⟩] := by
    simp [sorted, contradicted, List.mergeSort, List.MergeSort.Internal.splitInTwo]
  have hfinish : finish Series.consumer ⟨7, some contradicted⟩ Series.twoEntries =
      (.error (.refused .overlap), ⟨7, none⟩,
        (Series.twoEntries.apply ⟨7, 1, .set (.int 3) (.int 30)⟩).settled) := by
    simp only [finish, replayOrder_eq, hsorted]
    rfl
  have hclean := failed_load_is_clean Series.drives_consumer ⟨7, some contradicted⟩
    (s := Series.twoEntries) (.ofList _)
  obtain ⟨kept, done, c, rest, hkept, hcut, hstops⟩ := hclean.1 _ (congrArg Prod.fst hfinish)
  cases hkept
  exact ⟨hfinish, ⟨done, c, rest, hcut, hstops⟩, hclean.2.2 _ _ .start _ (by decide)⟩

end LoadQueue

end LiveSeries
