import LiveSeries.Proofs.SealedSeries

/-!
# What sessions leave as it is

No step of a session changes a sealed series (`Session.onward_answer`). The steps are built from a
few small actions, and each of these leaves what is sealed, or writes, which is void for a sealed
series (`Session.proceeds_perform`). Notifications nest: the reactions of an observer are steps, and
they notify others. So the steps are followed for any meaning of notifications that leaves what is
sealed, and the notifications by induction on the depth to which they nest
(`Session.onward_notify`).

A session is also seen in the midst of its steps, by the targets that a writer notifies before it
leaves its gate. Wherever a session may lead (`Session.Leads`), sealed series are as they were.
-/

namespace LiveSeries

namespace Session

/-- The action leaves what is sealed. -/
abbrev Proceeds {α : Type} (x : Act α) : Prop :=
  Keeps (fun w w' : World => w.hub.Onward w'.hub) x

section Small

variable {α β : Type}

theorem Proceeds.bind {x : Act α} {f : α → Act β} (hx : Proceeds x) (hf : ∀ a, Proceeds (f a)) :
    Proceeds (x >>= f) :=
  Keeps.bind (fun a b => a.trans b) hx hf

/-- An action that does not touch the shared state. -/
theorem proceeds_of_hub_eq {x : Act α} (h : ∀ w, (x.run.run w).2.hub = w.hub) : Proceeds x :=
  fun w => Hub.onward_of_series (congrArg Hub.series (h w))

theorem proceeds_pure (a : α) : Proceeds (pure a) := proceeds_of_hub_eq fun _ => rfl

theorem proceeds_throw (e : StepError) : Proceeds (throw e : Act α) :=
  proceeds_of_hub_eq fun _ => rfl

theorem proceeds_find (name : String) (kind : Object → Option α) : Proceeds (find name kind) :=
  keeps_find (fun w => .refl w.hub) name kind

theorem proceeds_reply (r : Reply) : Proceeds (reply r) := proceeds_of_hub_eq fun _ => rfl

theorem proceeds_sources : Proceeds sources := proceeds_of_hub_eq fun _ => rfl

theorem proceeds_hub : Proceeds hub := proceeds_of_hub_eq fun _ => rfl

theorem proceeds_get : Proceeds (get : Act World) := proceeds_of_hub_eq fun _ => rfl

theorem proceeds_modify {f : World → World} (h : ∀ w : World, w.hub.Onward (f w).hub) :
    Proceeds (modify f : Act Unit) :=
  h

theorem proceeds_update (name : String) (o : Object) : Proceeds (update name o) :=
  proceeds_of_hub_eq fun _ => rfl

theorem proceeds_put (name : String) (o : Object) : Proceeds (put name o) :=
  fun w => w.onward_put name o

theorem proceeds_charge (e : Eval α) : Proceeds (charge e) :=
  proceeds_of_hub_eq fun w => by rw [run_charge]

theorem proceeds_sayMoved (c : Cursor) (landed : Bool) : Proceeds (sayMoved c landed) :=
  proceeds_of_hub_eq fun w => by
    obtain ⟨calls, hsaid⟩ := run_sayMoved c landed w
    rw [hsaid]

/-- What is asked of the shared state and put back into it at once. -/
theorem proceeds_hub_bind {f : Hub → Act β}
    (h : ∀ w : World, w.hub.Onward ((f w.hub).run.run w).2.hub) : Proceeds (hub >>= f) :=
  h

theorem onward_setHub_bind {w : World} {h : Hub} {k : Act β} (hw : w.hub.Onward h)
    (hk : Proceeds k) : w.hub.Onward ((setHub h >>= fun _ => k).run.run w).2.hub :=
  hw.trans (hk { w with hub := h })

/-- What is found, found on the way, does not disturb. -/
theorem onward_find_bind {w : World} {name : String} {kind : Object → Option α} {f : α → Act β}
    (h : ∀ a, w.hub.Onward ((f a).run.run w).2.hub) :
    w.hub.Onward ((find name kind >>= f).run.run w).2.hub := by
  cases hfound : (w.object? name).bind kind with
  | none =>
      rw [run_bind_of_error (run_find_of_none hfound)]
      exact .refl w.hub
  | some a =>
      rw [run_bind_of_ok (run_find hfound)]
      exact h a

theorem proceeds_get_bind {f : World → Act β}
    (h : ∀ w : World, w.hub.Onward ((f w).run.run w).2.hub) : Proceeds (get >>= f) :=
  h

theorem onward_set_bind {w w' : World} {k : Act β} (hw : w.hub.Onward w'.hub) (hk : Proceeds k) :
    w.hub.Onward ((set w' >>= fun _ => k).run.run w).2.hub :=
  hw.trans (hk w')

theorem proceeds_make {name : String} {create : Hub → α × Hub} {o : α → Object}
    (h : ∀ h, Hub.Onward h (create h).2) : Proceeds (make name create o) :=
  proceeds_hub_bind fun w =>
    onward_setHub_bind (h w.hub) ((proceeds_put _ _).bind fun _ => proceeds_reply _)

end Small

theorem proceeds_findConsumer (name : String) : Proceeds (findConsumer name) :=
  proceeds_get.bind fun _ => proceeds_find _ _

/-! ## Cursors -/

theorem proceeds_build (e : CursorExpr) : Proceeds (build e) := by
  induction e with
  | ready name => exact (proceeds_find _ _).bind fun _ => proceeds_pure _
  | raw name => exact (proceeds_find _ _).bind fun _ => proceeds_pure _
  | copy name => exact proceeds_find _ _
  | map e f ih => exact ih.bind fun _ => proceeds_pure _
  | mapValues e f ih => exact ih.bind fun _ => proceeds_pure _
  | function e f ih => exact ih.bind fun _ => proceeds_pure _
  | arith e op operand ih => exact ih.bind fun _ => proceeds_pure _
  | negate e ih => exact ih.bind fun _ => proceeds_pure _
  | compare e r operand ih => exact ih.bind fun _ => proceeds_pure _
  | zip l r ihl ihr =>
      exact ihl.bind fun _ => ihr.bind fun _ => proceeds_sources.bind fun _ => proceeds_pure _
  | zipWith l r f ihl ihr =>
      exact ihl.bind fun _ => ihr.bind fun _ => proceeds_sources.bind fun _ => proceeds_pure _
  | carry e ih => exact ih.bind fun _ => proceeds_pure _
  | fill e v ih => exact ih.bind fun _ => proceeds_pure _
  | refuse e ih => exact ih.bind fun _ => proceeds_pure _

theorem proceeds_moveKept (c : Cursor) (m : Motion) {keep : Cursor → Act Unit}
    (hkeep : ∀ c, Proceeds (keep c)) : Proceeds (moveKept c m keep) :=
  proceeds_sources.bind fun _ => (hkeep _).bind fun _ =>
    (proceeds_charge _).bind fun _ => (proceeds_sayMoved _ _).bind fun _ => proceeds_reply _

theorem proceeds_release (f : Follower) : Proceeds (release f) :=
  proceeds_hub_bind fun w =>
    onward_setHub_bind (w.hub.sameData_unsubscribeAll _).onward (proceeds_pure _)

theorem proceeds_lose (name : String) (f : Follower) : Proceeds (lose name f) :=
  (proceeds_release f).bind fun _ => proceeds_modify fun w => .refl w.hub

theorem onward_sayWaited {w : World} {a : Attempt Progress} {woken : Bool}
    {asleep : Sleeper → Act Unit} {ended : Follower → Bool → Act (Option Nat)}
    {lost : Follower → Act Unit} (ha : w.hub.Onward a.hub) (hasleep : ∀ s, Proceeds (asleep s))
    (hended : ∀ f landed, Proceeds (ended f landed)) (hlost : ∀ f, Proceeds (lost f)) :
    w.hub.Onward ((sayWaited a woken asleep ended lost).run.run w).2.hub := by
  refine onward_setHub_bind ha (.bind (proceeds_modify fun w => .refl w.hub) fun _ => ?_)
  split
  · exact (hlost _).bind fun _ => proceeds_throw _
  · exact (hasleep _).bind fun _ => proceeds_pure _
  · exact (hended _ _).bind fun _ => proceeds_pure _
  · exact (hended _ _).bind fun _ => (proceeds_sayMoved _ _).bind fun _ => proceeds_pure _

theorem onward_sayCursorWaited {w : World} {a : Attempt Progress} (ha : w.hub.Onward a.hub)
    (name : String) (woken : Bool) :
    w.hub.Onward ((sayCursorWaited name a woken).run.run w).2.hub :=
  onward_sayWaited ha (fun _ => proceeds_update _ _)
    (fun f _ => (proceeds_release f).bind fun _ =>
      (proceeds_update _ _).bind fun _ => proceeds_pure _)
    (proceeds_lose name)

theorem onward_sayFollowerWaited {w : World} {a : Attempt Progress} (ha : w.hub.Onward a.hub)
    (name : String) (woken : Bool) :
    w.hub.Onward ((sayFollowerWaited name a woken).run.run w).2.hub := by
  refine onward_sayWaited ha (fun _ => proceeds_update _ _) (fun f landed => ?_)
    (proceeds_lose name)
  cases landed with
  | true => exact (proceeds_pure f).bind fun _ => (proceeds_update _ _).bind fun _ => proceeds_pure _
  | false =>
      exact (proceeds_release f).bind fun _ => (proceeds_update _ _).bind fun _ => proceeds_pure _

theorem proceeds_performCursor (name : String) (step : CursorStep) :
    Proceeds (performCursor name step) := by
  cases step with
  | move m =>
      exact (proceeds_find _ _).bind fun _ => proceeds_moveKept _ _ fun _ => proceeds_update _ _
  | reset | dispose =>
      exact (proceeds_find _ _).bind fun _ => proceeds_sources.bind fun _ =>
        (proceeds_update _ _).bind fun _ => (proceeds_sayMoved _ _).bind fun _ => proceeds_reply _
  | fresh newName =>
      exact (proceeds_find _ _).bind fun _ => proceeds_sources.bind fun _ =>
        (proceeds_put _ _).bind fun _ => proceeds_reply _
  | copy newName =>
      exact (proceeds_find _ _).bind fun _ => (proceeds_put _ _).bind fun _ => proceeds_reply _
  | state | inspect =>
      exact (proceeds_find _ _).bind fun _ => proceeds_sources.bind fun _ => proceeds_reply _
  | key | value | current | get | find =>
      exact (proceeds_find _ _).bind fun _ => proceeds_sources.bind fun _ =>
        (proceeds_charge _).bind fun _ => proceeds_reply _
  | flags =>
      exact (proceeds_find _ _).bind fun _ => proceeds_sources.bind fun _ =>
        proceeds_sources.bind fun _ => proceeds_reply _
  | describe => exact (proceeds_find _ _).bind fun _ => proceeds_reply _
  | subscribe target set =>
      refine (proceeds_find _ _).bind fun c => (proceeds_find _ _).bind fun t =>
        (proceeds_find _ _).bind fun s => proceeds_hub_bind fun w => ?_
      exact onward_setHub_bind (c.tree.sameData_subscribe t s w.hub).onward
        ((proceeds_update _ _).bind fun _ => proceeds_pure _)
  | start token =>
      refine (proceeds_find _ _).bind fun t => (proceeds_find _ _).bind fun c =>
        proceeds_hub_bind fun w => ?_
      have hnew : w.hub.Onward (w.hub.newTarget (.waiter {})).2 := Hub.onward_of_series rfl
      exact onward_sayCursorWaited (hnew.trans (Follower.sameSources_start _ _ _).onward) _ _
  | poll =>
      refine (proceeds_find _ _).bind fun s => proceeds_hub_bind fun w => ?_
      exact onward_sayCursorWaited (s.sameSources_poll w.hub).onward _ _

theorem proceeds_performFollower (name : String) (step : FollowerStep) :
    Proceeds (performFollower name step) := by
  cases step with
  | start token =>
      refine (proceeds_find _ _).bind fun t => (proceeds_find _ _).bind fun f =>
        proceeds_hub_bind fun w => ?_
      exact onward_sayFollowerWaited (f.sameSources_start t w.hub).onward _ _
  | poll =>
      refine (proceeds_find _ _).bind fun s => proceeds_hub_bind fun w => ?_
      exact onward_sayFollowerWaited (s.sameSources_poll w.hub).onward _ _
  | tryNext | find =>
      exact (proceeds_find _ _).bind fun _ => proceeds_moveKept _ _ fun _ => proceeds_update _ _
  | reset =>
      exact (proceeds_find _ _).bind fun _ => proceeds_sources.bind fun _ =>
        (proceeds_update _ _).bind fun _ => (proceeds_sayMoved _ _).bind fun _ => proceeds_reply _
  | current =>
      exact (proceeds_find _ _).bind fun _ => proceeds_sources.bind fun _ =>
        (proceeds_charge _).bind fun _ => proceeds_reply _
  | watched => exact (proceeds_find _ _).bind fun _ => proceeds_reply _
  | unwrap newName =>
      exact (proceeds_find _ _).bind fun _ => (proceeds_release _).bind fun _ =>
        .bind (proceeds_modify fun w => .refl w.hub) fun _ =>
          (proceeds_put _ _).bind fun _ => proceeds_reply _

theorem proceeds_performView (name : String) (step : ViewStep) :
    Proceeds (performView name step) := by
  refine (proceeds_find _ _).bind fun v => proceeds_sources.bind fun src => ?_
  cases step with
  | cursor | iterate => exact (proceeds_put _ _).bind fun _ => proceeds_reply _
  | get | find | first | last | isEmpty | count | collect =>
      exact (proceeds_charge _).bind fun _ => proceeds_reply _
  | isCompleted => exact proceeds_reply _

/-! ## Subscriptions -/

theorem proceeds_performSubscription (name : String) (step : SubscriptionStep) :
    Proceeds (performSubscription name step) := by
  cases step with
  | request n =>
      refine (proceeds_find _ _).bind fun s => proceeds_hub_bind fun w => ?_
      exact onward_setHub_bind (w.hub.sameData_request s n).onward
        (proceeds_hub.bind fun _ => proceeds_reply _)
  | requests =>
      exact proceeds_hub.bind fun _ => (proceeds_find _ _).bind fun _ => proceeds_reply _
  | isOn registry =>
      exact (proceeds_find _ _).bind fun _ => (proceeds_find _ _).bind fun _ => proceeds_reply _
  | describe =>
      exact proceeds_hub.bind fun _ => (proceeds_find _ _).bind fun _ => proceeds_reply _

theorem proceeds_performSet (name : String) (step : SetStep) : Proceeds (performSet name step) := by
  cases step with
  | subscribe registry target =>
      refine (proceeds_find _ _).bind fun id => (proceeds_find _ _).bind fun t =>
        (proceeds_find _ _).bind fun s => proceeds_hub_bind fun w => ?_
      refine onward_setHub_bind (s.sameData_subscribe w.hub id t).onward
        ((proceeds_update _ _).bind fun _ => ?_)
      split
      · exact proceeds_reply _
      · exact proceeds_throw _
  | request n =>
      refine (proceeds_find _ _).bind fun s => proceeds_hub_bind fun w => ?_
      exact onward_setHub_bind (w.hub.sameData_requestAll s n).onward (proceeds_reply _)
  | size => exact (proceeds_find _ _).bind fun _ => proceeds_reply _
  | clear =>
      refine (proceeds_find _ _).bind fun s => proceeds_hub_bind fun w => ?_
      exact onward_setHub_bind (w.hub.sameData_unsubscribeAll s).onward
        ((proceeds_update _ _).bind fun _ => proceeds_reply _)
  | describe => exact (proceeds_find _ _).bind fun _ => proceeds_hub.bind fun _ => proceeds_reply _

/-! ## Steps that notify -/

theorem proceeds_settleCommand {α : Type} (result : Except Failure α) (say : α → Reply) :
    Proceeds (settleCommand result say) := by
  unfold settleCommand
  split
  · exact proceeds_reply _
  · exact proceeds_throw _
  · exact proceeds_throw _

section Notifier

variable {notify : Notifier} (hnotify : ∀ (n : Notice) (w : World), w.hub.Onward (notify n w).hub)

include hnotify

theorem proceeds_change {α : Type} (id : SourceId) {write : Series → Write α}
    (hwrite : ∀ s : Series, s.Sealed → (write s).Void s) (say : α → Reply) :
    Proceeds (change notify id write say) := by
  intro w
  rw [run_change]
  exact World.onward_settle hnotify id w (hwrite (w.hub.sources id))

theorem proceeds_performSeries (name : String) (step : SeriesStep) :
    Proceeds (performSeries notify name step) := by
  refine (proceeds_find _ _).bind fun id => proceeds_sources.bind fun src => ?_
  cases step with
  | set | add | addFirst | addLast | tryAdd | remove | removeMany =>
      exact proceeds_change hnotify id (fun _ hs => hs.write _) _
  | append entries option =>
      exact proceeds_change hnotify id (fun _ hs => hs.append entries option) _
  | complete => exact proceeds_change hnotify id (fun _ hs => hs.complete) _
  | same other => exact (proceeds_find _ _).bind fun _ => proceeds_reply _
  | _ => exact proceeds_reply _

theorem proceeds_performRegistry (name : String) (step : RegistryStep) :
    Proceeds (performRegistry notify name step) := by
  refine (proceeds_find _ _).bind fun id => proceeds_hub_bind fun w => ?_
  cases step with
  | subscribe target newName =>
      refine Proceeds.bind (proceeds_find _ _) (fun t => proceeds_hub_bind fun w => ?_) w
      refine onward_setHub_bind (w.hub.sameData_subscribe id t).onward ?_
      split
      · exact (proceeds_put _ _).bind fun _ => proceeds_reply _
      · exact proceeds_throw _
  | notify force =>
      -- the targets are selected, and then they are invoked
      let selected := (w.hub.registry id).notify force
      show w.hub.Onward ((setHub (w.hub.setRegistry id selected.2) >>= fun _ =>
        modify (notify selected.1) >>= fun _ =>
          reply (.count selected.1.targets.length) : Act Answer).run.run w).2.hub
      exact onward_setHub_bind (w.hub.sameData_setRegistry id selected.2).onward
        (.bind (proceeds_modify fun w => hnotify selected.1 w) fun _ => proceeds_reply _)
  | size | describe => exact proceeds_reply _ w

theorem proceeds_performQueue (name : String) (step : QueueStep) :
    Proceeds (performQueue notify name step) := by
  refine (proceeds_find _ _).bind fun index => proceeds_get_bind fun w => ?_
  cases step with
  | finish =>
      have hfinish := World.onward_finish hnotify (w.site index).series (w.site index).behind
        (w.site index).queue w
      exact onward_set_bind hfinish (proceeds_settleCommand _ _)
  | status | describe => exact .refl w.hub

/-- One step leaves what is sealed if the notifications do. -/
theorem proceeds_perform (step : Step) : Proceeds (perform notify step) := by
  cases step with
  | newSeries name changes =>
      refine Proceeds.bind (proceeds_charge _) fun s => proceeds_make fun h => ?_
      exact h.onward_newSeries s
  | seriesOf name entries =>
      rw [perform]
      refine proceeds_make fun h => ?_
      exact h.onward_newSeries (.ofList entries)
  | «alias» series name =>
      exact (proceeds_find _ _).bind fun _ => (proceeds_put _ _).bind fun _ => proceeds_reply _
  | newCursor name expr | newView name expr =>
      exact (proceeds_build _).bind fun _ => (proceeds_put _ _).bind fun _ => proceeds_reply _
  | newFollower name expr =>
      refine Proceeds.bind (proceeds_build _) fun c => proceeds_make fun h => ?_
      exact Hub.onward_of_series rfl
  | newToken name | newRegistry name | newWaiter name =>
      rw [perform]
      refine proceeds_make fun h => ?_
      exact Hub.onward_of_series rfl
  | newObserver name reactions =>
      refine proceeds_hub_bind fun w => ?_
      have hnew : w.hub.Onward (w.hub.newTarget .observer).2 := Hub.onward_of_series rfl
      exact onward_setHub_bind hnew
        (.bind (proceeds_modify fun w => .refl w.hub) fun _ =>
          (proceeds_put _ _).bind fun _ => proceeds_reply _)
  | newSet name => exact (proceeds_put _ _).bind fun _ => proceeds_reply _
  | newQueue name target id =>
      exact (proceeds_findConsumer _).bind fun _ => proceeds_get.bind fun _ =>
        .bind (proceeds_modify fun w => .refl w.hub) fun _ =>
          (proceeds_put _ _).bind fun _ => proceeds_reply _
  | drop name =>
      refine proceeds_get.bind fun w => ?_
      split
      · exact proceeds_reply _
      · refine Proceeds.bind (proceeds_modify fun w => ?_) fun _ => proceeds_reply _
        exact (World.sameSources_discard w.hub _).onward
  | calls => exact proceeds_get.bind fun _ => proceeds_reply _
  | series name step => exact proceeds_performSeries hnotify name step
  | cursor name step => exact proceeds_performCursor name step
  | view name step => exact proceeds_performView name step
  | next name =>
      exact (proceeds_find _ _).bind fun _ => proceeds_sources.bind fun _ =>
        (proceeds_update _ _).bind fun _ => (proceeds_charge _).bind fun _ => proceeds_reply _
  | follower name step => exact proceeds_performFollower name step
  | cancel name =>
      refine proceeds_hub_bind fun w => onward_find_bind fun t => ?_
      exact onward_setHub_bind (h := w.hub.cancel t) (Hub.onward_of_series rfl) (proceeds_reply _)
  | registry name step => exact proceeds_performRegistry hnotify name step
  | subscription name step => exact proceeds_performSubscription name step
  | set name step => exact proceeds_performSet name step
  | wake name =>
      refine (proceeds_find _ _).bind fun id => proceeds_hub_bind fun w => ?_
      exact onward_setHub_bind (w.hub.sameSources_setWaiter _ _).onward (proceeds_reply _)
  | wait name newName =>
      refine (proceeds_find _ _).bind fun id => proceeds_hub_bind fun w => ?_
      cases (w.hub.waiter id).enter with
      | mk ticket x =>
          dsimp only
          refine proceeds_hub_bind (fun w => ?_) w
          exact onward_setHub_bind (w.hub.sameSources_setWaiter id x).onward
            ((proceeds_put _ _).bind fun _ => proceeds_pure _)
  | pollWait name =>
      refine (proceeds_find _ _).bind fun wait => ?_
      split
      · exact proceeds_pure _
      · next id ticket =>
          refine proceeds_hub_bind fun w => ?_
          cases (w.hub.waiter id).poll ticket with
          | mk done x =>
              dsimp only
              refine proceeds_hub_bind (fun w => ?_) w
              refine onward_setHub_bind (w.hub.sameSources_setWaiter id x).onward ?_
              cases done with
              | true => exact (proceeds_update _ _).bind fun _ => proceeds_pure _
              | false => exact proceeds_pure _
  | command name c =>
      refine (proceeds_findConsumer _).bind fun found => proceeds_get_bind fun w => ?_
      exact onward_set_bind (World.onward_consumer hnotify found.2 found.1 c w)
        (proceeds_settleCommand _ _)
  | queue name step => exact proceeds_performQueue hnotify name step

theorem onward_answer_of (step : Step) (w : World) :
    w.hub.Onward (answer notify step w).2.hub := by
  have hstep : w.hub.Onward ((perform notify step).run.run w).2.hub :=
    proceeds_perform hnotify step w
  unfold answer
  split
  · next heq =>
      change (perform notify step).run.run w = _ at heq
      rw [heq] at hstep
      exact hstep
  · next heq =>
      change (perform notify step).run.run w = _ at heq
      rw [heq] at hstep
      exact hstep

end Notifier

/-! ## Notifications -/

/-- A world with one more sight. -/
def seen (w : World) (hit : Hit) : World := { w with hits := hit :: w.hits }

/-- An observer reacts. -/
def react (notify : Notifier) (name : String) (w : World) (step : Step) : World :=
  seen (answer notify step w).2 (.reacted name (answer notify step w).1)

/-- An invoked target is woken, or sees that it is invoked and reacts. -/
theorem invoke_cases (notify : Notifier) (force : Bool) (w : World) (t : TargetId) :
    invoke notify force w t = w ∨
      invoke notify force w t = { w with hub := w.hub.wake t } ∨
      ∃ o : Observer, invoke notify force w t =
        o.reactions.foldl (react notify o.name) (seen w (.invoked o.name force)) := by
  unfold invoke
  split
  · exact .inr (.inl rfl)
  · split
    · exact .inl rfl
    · next o _ => exact .inr (.inr ⟨o, rfl⟩)
  · exact .inl rfl

theorem onward_foldl_invoke_of {notify : Notifier}
    (hnotify : ∀ (n : Notice) (w : World), w.hub.Onward (notify n w).hub) (force : Bool)
    (targets : List TargetId) (w : World) :
    w.hub.Onward (targets.foldl (invoke notify force) w).hub := by
  have hreact : ∀ (steps : List Step) (name : String) (w : World),
      w.hub.Onward (steps.foldl (react notify name) w).hub := by
    intro steps name
    induction steps with
    | nil => exact fun w => .refl w.hub
    | cons step rest ih =>
        intro w
        exact (onward_answer_of hnotify step w).trans (ih (react notify name w step))
  induction targets generalizing w with
  | nil => exact .refl w.hub
  | cons t rest ih =>
      refine Hub.Onward.trans ?_ (ih (invoke notify force w t))
      rcases invoke_cases notify force w t with heq | heq | ⟨o, heq⟩
      · rw [heq]
        exact .refl w.hub
      · rw [heq]
        exact (w.hub.sameSources_setWaiter _ _).onward
      · rw [heq]
        exact hreact o.reactions o.name (seen w (.invoked o.name force))

/-- A notification leaves what is sealed, to any depth of nesting. -/
theorem onward_notify (depth : Nat) (n : Notice) (w : World) :
    w.hub.Onward (notify depth n w).hub := by
  -- the reactions notify to a smaller depth, so the steps that they are leave what is sealed
  induction depth generalizing n w with
  | zero => exact .refl w.hub
  | succ depth ih =>
      have htargets := onward_foldl_invoke_of ih n.force n.targets w
      unfold notify
      dsimp only
      split
      · exact htargets.trans (Hub.onward_of_series rfl)
      · exact htargets

/-- So does every step. -/
theorem onward_answer (depth : Nat) (step : Step) (w : World) :
    w.hub.Onward (answer (notify depth) step w).2.hub :=
  onward_answer_of (onward_notify depth) step w

/-! ## Wherever a session leads -/

/-- The worlds to which a session may lead: after its steps and writes, and in the midst of them,
where the targets of a writer see what it did. -/
inductive Leads (w : World) : World → Prop where
  | refl : Leads w w
  /-- Anything happens that leaves the series as they are. -/
  | aside {w' w'' : World} (series : w''.hub.series = w'.hub.series) : Leads w w' → Leads w w''
  /-- Subscriptions come, go, and ask for notifications. -/
  | registry {w' : World} (id : RegistryId) (r : Registry) : Leads w w' →
      Leads w { w' with hub := w'.hub.setRegistry id r }
  /-- A mutation was made, and its targets are about to be invoked. -/
  | enter {w' : World} (id : SourceId) (m : Mutation) : Leads w w' →
      Leads w { w' with hub := w'.hub.commit id (m.write (w'.hub.sources id)) }
  /-- A mutation was made, its targets were invoked, and the writer left. -/
  | settle {w' : World} (depth : Nat) (id : SourceId) (m : Mutation) : Leads w w' →
      Leads w (World.settle (notify depth) id (m.write (w'.hub.sources id)) w')
  | step {w' : World} (depth : Nat) (s : Step) : Leads w w' →
      Leads w (answer (notify depth) s w').2

namespace Leads

variable {w w' : World}

/-- Wherever a session leads, sealed series are as they were. -/
theorem onward (h : Leads w w') : w.hub.Onward w'.hub := by
  induction h with
  | refl => exact .refl w.hub
  | aside series _ ih => exact ih.trans (Hub.onward_of_series series)
  | registry id r _ ih => exact ih.trans (Hub.sameData_setRegistry _ id r).onward
  | enter id m _ ih => exact ih.trans (Hub.onward_commit _ id fun hs => hs.mutation m)
  | settle depth id m _ ih =>
      exact ih.trans (World.onward_settle (onward_notify depth) id _ fun hs => hs.mutation m)
  | step depth s _ ih => exact ih.trans (onward_answer depth s _)

theorem trans {w'' : World} (h : Leads w w') (h' : Leads w' w'') : Leads w w'' := by
  induction h' with
  | refl => exact h
  | aside series _ ih => exact .aside series ih
  | registry id r _ ih => exact .registry id r ih
  | enter id m _ ih => exact .enter id m ih
  | settle depth id m _ ih => exact .settle depth id m ih
  | step depth s _ ih => exact .step depth s ih

theorem react (h : Leads w w') (depth : Nat) (name : String) (steps : List Step) :
    Leads w (steps.foldl (Session.react (notify depth) name) w') := by
  induction steps generalizing w' with
  | nil => exact h
  | cons step rest ih => exact ih (.aside (by rfl) (h.step depth step))

/-- A target that is invoked is woken, or takes steps. -/
theorem invoke (h : Leads w w') (depth : Nat) (force : Bool) (t : TargetId) :
    Leads w (Session.invoke (notify depth) force w' t) := by
  rcases invoke_cases (notify depth) force w' t with heq | heq | ⟨o, heq⟩
  · rw [heq]
    exact h
  · rw [heq]
    exact .aside (by rfl) h
  · rw [heq]
    exact react (.aside (by rfl) h) depth o.name o.reactions

theorem foldl_invoke (h : Leads w w') (depth : Nat) (force : Bool) (targets : List TargetId) :
    Leads w (targets.foldl (Session.invoke (notify depth) force) w') := by
  induction targets generalizing w' with
  | nil => exact h
  | cons t rest ih => exact ih (h.invoke depth force t)

/-- A step of a session begins with empty reports. -/
theorem session_step (h : Leads w w') (s : Step) : Leads w (Session.step s w').2 :=
  .step nesting s (.aside (by rfl) h)

end Leads

end Session

end LiveSeries
