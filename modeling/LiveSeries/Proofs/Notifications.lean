import LiveSeries.Proofs.Announcements
import LiveSeries.Proofs.SessionOnward

/-!
# Notifications

A session carries a mutation out by one write, and calls the notifier once if the write has a notice
(`Session.answer_mutation`). From then on until the writer leaves the gate the series is sealed: its
writer holds the gate, or it is completed. So every target that is invoked, and whatever is invoked
by its reactions, finds the series as it was written, and reads it at the first attempt
(`Session.finds_of_notice`).
-/

namespace LiveSeries

/-- The mutation that a step makes. -/
def SeriesStep.mutation? : SeriesStep → Option Mutation
  | .set k v => some (.set k v)
  | .add k v => some (.add k v)
  | .addFirst k v => some (.addFirst k v)
  | .addLast k v => some (.addLast k v)
  | .tryAdd k v => some (.tryAdd k v)
  | .remove k => some (.remove k)
  | .removeMany k lookup => some (.removeMany k lookup)
  | .append entries option => some (.append entries option)
  | .complete => some .complete
  | _ => none

/-- The mutation that a step makes, or the command that it hands on, and the name of the one for
whom it is meant. -/
def Step.mutation? : Step → Option (String × Mutation)
  | .series name step => step.mutation?.map fun m => (name, m)
  | .command name c => some (name, .command c)
  | _ => none

/-- What a reader finds that looks at a series: the last version, no other one open, and entries
that it reads at the first attempt and without the lock. -/
structure Series.Finds (s : Series) (v : Nat) (store : Store) (complete : Bool) : Prop where
  version : s.version = v
  nextVersion : s.nextVersion = v
  completed : s.isCompleted = complete
  reading : ∀ {α : Type} (f : Store → α), s.reading f = ⟨s.gate, f store, 1, false⟩

/-- Nobody can write to a series while its targets are told of a mutation. -/
theorem Series.Told.sealed {s : Series} {α : Type} {w : Write α} {completes : Bool} {n : Notice}
    (h : s.Told w completes) (hn : w.notice = some n) : w.series.Sealed := by
  cases h with
  | void void =>
      rw [void.notice] at hn
      cases hn
  | published _ _ _ writing => exact .inl writing
  | closed _ _ _ _ completed => exact .inr completed

/-- What the targets of a mutation find, and whoever sees the series as they do. -/
theorem Series.Told.finds {s s' : Series} {α : Type} {w : Write α} {completes : Bool} {n : Notice}
    (h : s.Told w completes) (hn : w.notice = some n) (htries : 0 < s.gate.readTries)
    (hgate : s'.gate = w.series.gate) (hstore : s'.store = w.series.store) :
    s'.Finds w.series.version w.series.store completes := by
  have hcounters : w.series.nextVersion = w.series.version ∧
      w.series.isCompleted = completes := by
    cases h with
    | void void =>
        rw [void.notice] at hn
        cases hn
    | published _ _ next _ incomplete => exact ⟨next, incomplete⟩
    | closed _ _ _ next completed => exact ⟨next, completed⟩
  have hversion : s'.version = w.series.version := congrArg Gate.version hgate
  have hnext : s'.nextVersion = w.series.version :=
    (congrArg Gate.nextVersion hgate).trans hcounters.1
  refine ⟨hversion, hnext, (congrArg Gate.readOnly hgate).trans hcounters.2, fun f => ?_⟩
  have hlimit : 0 < s'.gate.readTries := by
    rw [hgate, h.tries_eq]
    exact htries
  rw [reading_of_settled (hnext.trans hversion.symm) hlimit, hstore]

namespace Session

/-! ## Mutations in a session -/

theorem answer_snd (notify : Notifier) (step : Step) (w : World) :
    (answer notify step w).2 = ((perform notify step).run.run w).2 := by
  unfold answer
  split
  · next heq => exact congrArg Prod.snd heq.symm
  · next heq => exact congrArg Prod.snd heq.symm

/-- A mutation is carried out by one write. -/
theorem answer_mutation {step : Step} {name : String} {m : Mutation}
    (hstep : step.mutation? = some (name, m)) (notify : Notifier) {w : World} {id : SourceId}
    (hname : w.object? name = some (.series id)) :
    (answer notify step w).2 = World.settle notify id (m.write (w.hub.sources id)) w := by
  cases step with
  | series other step =>
      obtain ⟨_, hm, heq⟩ := Option.map_eq_some_iff.mp hstep
      cases heq
      have hfind : (findSeries name).run.run w = (.ok id, w) := run_find (by rw [hname]; rfl)
      rw [answer_snd, perform, performSeries, run_bind_of_ok hfind, run_bind_of_ok (run_sources w)]
      cases step with
      | set k v | tryAdd k v | remove k | removeMany k lookup | append entries option | complete =>
          cases hm
          exact run_change notify id _ _ w
      | add k v | addFirst k v | addLast k v =>
          cases hm
          exact run_change notify id _ _ w
      | _ => cases hm
  | command other c =>
      cases hstep
      have hfind : (findConsumer name).run.run w = (.ok ([], id), w) := run_find (by rw [hname]; rfl)
      rw [answer_snd, perform, run_bind_of_ok hfind]
      let applied := (w.hub.sources id).apply c
      show ((settleCommand applied.result fun outcome => .text outcome.label).run.run
        (World.settle notify id applied w)).2 = _
      unfold settleCommand
      -- what is said of the command changes nothing
      split <;> rfl
  | _ => cases hstep

/-! ## Inside notifications -/

/-- From when a mutation was made until its writer leaves, wherever the session leads, the series is
found as it was written. -/
theorem finds_of_notice {s : Series} (hs : s.Reachable) {m : Mutation} {n : Notice}
    (hn : (m.write s).notice = some n) {w w' : World} {id : SourceId}
    (hat : w.hub.series[id]? = some s)
    (h : Leads { w with hub := w.hub.commit id (m.write s) } w') :
    (w'.hub.sources id).Finds (m.write s).series.version (m.write s).series.store m.completes := by
  have htold := Series.told_mutation hs.next_and_page.1 m
  obtain ⟨hid, -⟩ := List.getElem?_eq_some_iff.mp hat
  have hlength : (w.hub.commit id (m.write s)).series.length = w.hub.series.length := by
    rw [Hub.series_commit]
    exact List.length_set
  have hwritten : (w.hub.commit id (m.write s)).sources id = (m.write s).series := by
    rw [Hub.sources_commit, if_pos ⟨rfl, hid⟩]
  have hid' : id < (w.hub.commit id (m.write s)).series.length := hlength ▸ hid
  have hsealed : ((w.hub.commit id (m.write s)).sources id).Sealed :=
    hwritten ▸ htold.sealed hn
  -- nobody could write to it since, however the notifications nested
  have hgate := h.onward.gate id hid' hsealed
  have hstore := h.onward.store id hid' hsealed
  rw [hwritten] at hgate hstore
  exact htold.finds hn hs.tries hgate hstore

/-- In every run of a series there is one notification for each version that is published, and one
by force for the completion, and none besides. A mutation tells what it did: nobody if it published
nothing, and else those that want to hear of it, once. The first completion is never void. In a
session the notifier is called for it while the series stands as it was written, and every target
that it invokes finds the series so, whatever the targets before it did, and whatever it does
itself: at the version just published and with no other one open, with the entries and the
completion that the mutation gave it, and readable at the first attempt. -/
theorem mutations_are_announced {s : Series} (hs : s.Reachable) :
    (∀ turns, s.Tally (s.afterTurns turns) (s.notices turns) (s.publications turns)) ∧
    ∀ m : Mutation, s.Told (m.write s) m.completes ∧
      (m.completes = true → s.gate.locked = false → s.isCompleted = false →
        m = .complete ∨ s.version ≠ Gate.lastVersion →
        (m.write s).notice = some (s.registry.notify true).1) ∧
      ∀ (w : World) (id : SourceId), w.hub.series[id]? = some s →
        (∀ (name : String) (step : Step), w.object? name = some (.series id) →
          step.mutation? = some (name, m) → ∀ notify : Notifier,
          (answer notify step w).2 =
            let written := { w with hub := w.hub.commit id (m.write s) }
            match (m.write s).notice with
            | none => written
            | some n => { notify n written with hub := (notify n written).hub.leave id }) ∧
        ∀ n, (m.write s).notice = some n → ∀ before t after, n.targets = before ++ t :: after →
          ∀ depth w', Leads (before.foldl (invoke (notify depth) n.force)
            { w with hub := w.hub.commit id (m.write s) }) w' →
            (w'.hub.sources id).Finds (m.write s).series.version (m.write s).series.store
              m.completes := by
  refine ⟨Series.announced_once hs, fun m => ⟨Series.told_mutation hs.next_and_page.1 m,
    Series.notice_of_completes, fun w id hat => ⟨?_, ?_⟩⟩⟩
  · intro name step hname hstep notify
    have hsource : w.hub.sources id = s := by
      rw [Hub.sources, List.getD_eq_getElem?_getD, hat]
      rfl
    rw [answer_mutation hstep notify hname, hsource]
    rfl
  · intro n hn before t after _ depth w' hleads
    exact finds_of_notice hs hn hat ((Leads.refl.foldl_invoke depth n.force before).trans hleads)

/-- A series of one entry to which two targets are subscribed. -/
def watchedSeries : Series :=
  { Series.ofList [(.int 1, .int 10)] with
    registry := { slot := .many [⟨0, 0, 1⟩, ⟨1, 1, 1⟩], issued := 2 } }

/-- The first of the two targets writes to the series in turn, the second looks at it. -/
def watchedWorld : World :=
  { hub := { series := [watchedSeries], targets := [.observer, .observer] }
    observers := [⟨0, "writer", [.series "s" (.set (.int 3) (.int 30))]⟩,
      ⟨1, "reader", [.series "s" .snapshot]⟩]
    objects := [("s", .series 0)] }

/-- The second entry is written, and the first target has reacted. -/
def halfwayTold : World :=
  [0].foldl (invoke (notify 1) false)
    { watchedWorld with
      hub := watchedWorld.hub.commit 0 ((Mutation.set (.int 2) (.int 20)).write watchedSeries) }

theorem mutations_are_announced_halfway :
    ((Mutation.set (.int 2) (.int 20)).write watchedSeries).notice = some ⟨false, [0, 1], true⟩ ∧
      (halfwayTold.hub.sources 0).version = 1 ∧ (halfwayTold.hub.sources 0).nextVersion = 1 ∧
      (halfwayTold.hub.sources 0).read Store.entries = [(.int 1, .int 10), (.int 2, .int 20)] ∧
      ((halfwayTold.hub.sources 0).reading Store.entries).runs = 1 := by
  have hs : watchedSeries.Reachable := .registry _ (.ofList [(.int 1, .int 10)])
  have hn : ((Mutation.set (.int 2) (.int 20)).write watchedSeries).notice =
      some ⟨false, [0, 1], true⟩ := rfl
  have hfinds := ((mutations_are_announced hs).2 (.set (.int 2) (.int 20))).2.2 watchedWorld 0 rfl
    |>.2 _ hn [0] 1 [] rfl 1 halfwayTold .refl
  refine ⟨hn, hfinds.version, hfinds.nextVersion, ?_, ?_⟩
  · rw [Series.read_eq_reading, hfinds.reading]
    rfl
  · rw [hfinds.reading]

end Session

end LiveSeries
