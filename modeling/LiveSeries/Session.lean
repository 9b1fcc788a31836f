import LiveSeries.Describe
import LiveSeries.Session.World

/-!
# Sessions

A session takes one step after the other. The only recursion is that of notifications: a step
may notify observers, whose reactions are steps themselves. `perform` takes the meaning of a
notification as a parameter, and `notify` ties the knot to a fixed depth of nesting.
-/

namespace LiveSeries

namespace Session

/-- An action on the world that may end in an error. What it did before the error stands. -/
abbrev Act := ExceptT StepError (StateM World)

/-! ## Finding objects -/

/-- The object of a name, if it is of the kind that is asked for. -/
def find {α : Type} (name : String) (kind : Object → Option α) : Act α := do
  match (← get).object? name |>.bind kind with
  | some a => return a
  | none => throw (.noObject name)

def findSeries (name : String) : Act SourceId :=
  find name fun | .series id => some id | _ => none

def findCursor (name : String) : Act Cursor :=
  find name fun | .cursor c => some c | _ => none

def findToken (name : String) : Act Nat :=
  find name fun | .token id => some id | _ => none

def findRegistry (name : String) : Act RegistryId :=
  find name fun | .registry id => some id | _ => none

def findTarget (name : String) : Act TargetId :=
  find name fun | .observer id | .waiter id => some id | _ => none

def findSet (name : String) : Act Subscriptions :=
  find name fun | .set s => some s | _ => none

/-- The load queues in front of a series, and the series. -/
def findConsumer (name : String) : Act (List Nat × SourceId) := do
  let w ← get
  find name fun
    | .series id => some ([], id)
    | .queue index => some (index :: (w.site index).behind, (w.site index).series)
    | _ => none

/-! ## Small actions -/

def hub : Act Hub := return (← get).hub

def setHub (h : Hub) : Act Unit := modify fun w => { w with hub := h }

def sources : Act Sources := return (← hub).sources

/-- Stores an object under a name; an object that had the name goes. -/
def put (name : String) (o : Object) : Act Unit := modify (·.put name o)

/-- The object of a name changed. -/
def update (name : String) (o : Object) : Act Unit := modify (·.setObject name o)

/-- The result of an evaluation. Its calls count also if it faulted. -/
def charge {α : Type} (e : Eval α) : Act α := do
  modify fun w => { w with calls := w.calls + e.calls }
  match e.outcome with
  | .ok a => return a
  | .error f => throw (.fault f)

def reply (r : Reply) : Act Answer := return { outcome := .ok r }

/-- Makes something in the shared state and stores it under a name. -/
def make {α : Type} (name : String) (create : Hub → α × Hub) (o : α → Object) : Act Answer := do
  let (a, h) := create (← hub)
  setHub h
  put name (o a)
  reply .done

/-! ## Cursors -/

/-- A function of a value where one of key and value is wanted. -/
def ignoringKey (f : Value → Except Fault Value) : Selector := fun _ v => f v

/-- Makes the cursor that an expression describes. -/
def build : CursorExpr → Act Cursor
  | .ready name => return .ofSeries (← findSeries name)
  | .raw name => return .raw (← findSeries name)
  | .copy name => findCursor name
  | .map e f => return (← build e).map f.apply
  | .mapValues e f => return (← build e).map (ignoringKey f.apply)
  | .function e f => return (← build e).op (.function f.apply)
  | .arith e op operand => return (← build e).op (.arith op operand)
  | .negate e => return (← build e).op .negate
  | .compare e r operand => return (← build e).op (.compare r operand)
  | .zip l r => do
    let left ← build l
    let right ← build r
    return .zip (← sources) left right
  | .zipWith l r f => do
    let left ← build l
    let right ← build r
    return (Cursor.zip (← sources) left right).map f.selector
  | .carry e => return (← build e).carry
  | .fill e v => return (← build e).fill v
  | .refuse e => return (← build e).refuse

/-- What is said after a move: the state, and the entry at which the cursor stands. -/
def sayMoved (c : Cursor) (landed : Bool) : Act Reply := do
  let state := c.state (← sources)
  if state.isMoving then
    let current := c.current (← sources)
    modify fun w => { w with calls := w.calls + current.calls }
    return .moved landed state (some current.outcome)
  else return .moved landed state none

/-- Moves a cursor that is kept somewhere, also if the move faults. -/
def moveKept (c : Cursor) (motion : Motion) (keep : Cursor → Act Unit) : Act Answer := do
  let (c, landed) := c.move (← sources) motion
  keep c
  reply (← sayMoved c (← charge landed))

/-- What is said of a wait, and what is kept of it: the cursor or follower if it is over, or its
place in the queue. -/
def sayWaited (attempt : Attempt Progress) (woken : Bool) (asleep : Sleeper → Act Unit)
    (ended : Follower → Bool → Act (Option Nat)) (lost : Follower → Act Unit) : Act Answer := do
  setHub attempt.hub
  modify fun w => { w with calls := w.calls + attempt.answer.calls }
  match attempt.answer.outcome with
  | .error f =>
    lost attempt.follower
    throw (.fault f)
  | .ok (.asleep s) =>
    asleep s
    return { outcome := .ok .pending, woken := some woken }
  | .ok (.ended (.error e)) =>
    let watched ← ended attempt.follower false
    return { outcome := .error (.wait e), woken := some woken, watched := watched }
  | .ok (.ended (.ok landed)) =>
    let watched ← ended attempt.follower landed
    let said ← sayMoved attempt.follower.cursor landed
    return { outcome := .ok said, woken := some woken, watched := watched }

/-- Gives up the subscriptions of a follower. -/
def release (f : Follower) : Act Follower := do
  let (f, h) := f.release (← hub)
  setHub h
  return f

/-- What is lost when a wait faults: the object with its subscriptions. -/
def lose (name : String) (f : Follower) : Act Unit := do
  discard <| release f
  modify (·.eraseObject name)

/-- The wait of a cursor. Its subscriptions end with it. -/
def sayCursorWaited (name : String) (attempt : Attempt Progress) (woken : Bool) : Act Answer :=
  sayWaited attempt woken
    (fun s => update name (.waiting s))
    (fun f _ => do
      update name (.cursor (← release f).cursor)
      return none)
    (lose name)

/-- The wait of a follower. Its subscriptions stay if it found an entry. -/
def sayFollowerWaited (name : String) (attempt : Attempt Progress) (woken : Bool) : Act Answer :=
  sayWaited attempt woken
    (fun s => update name (.sleeping s))
    (fun f landed => do
      let f ← if landed then pure f else release f
      update name (.follower f)
      return some f.subscriptions.length)
    (lose name)

def performCursor (name : String) : CursorStep → Act Answer
  | .move motion => do
    moveKept (← findCursor name) motion fun c => update name (.cursor c)
  | .reset => do
    let c := (← findCursor name).reset (← sources)
    update name (.cursor c)
    reply (← sayMoved c true)
  | .dispose => do
    let c := (← findCursor name).dispose (← sources)
    update name (.cursor c)
    reply (← sayMoved c true)
  | .fresh newName => do
    put newName (.cursor ((← findCursor name).fresh (← sources)))
    reply .done
  | .copy newName => do
    put newName (.cursor (← findCursor name))
    reply .done
  | .state => do reply (.state ((← findCursor name).state (← sources)))
  | .key => do reply (.key (← charge (.lift ((← findCursor name).key (← sources)))))
  | .value => do reply (.value (← charge ((← findCursor name).value (← sources))))
  | .current => do reply (.entry (some (← charge ((← findCursor name).current (← sources)))))
  | .get k => do reply (.optional (← charge ((← findCursor name).get? (← sources) k)))
  | .find k lookup => do
    reply (.entry (← charge ((← findCursor name).find? (← sources) k lookup)))
  | .flags => do
    let c ← findCursor name
    reply (.flags (c.isContinuous (← sources)) (c.isCompleted (← sources)))
  | .inspect => do
    let c ← findCursor name
    reply (.inspection (c.tree.inspect (← sources) c.position))
  | .describe => do
    let c ← findCursor name
    reply (.text (Describe.cursor c.tree c.position))
  | .subscribe target set => do
    let c ← findCursor name
    let t ← findTarget target
    let s ← findSet set
    let (answer, s, h) := c.tree.subscribe t s (← hub)
    setHub h
    update set (.set s)
    return { outcome := match answer with
               | .ok _ => .ok .done
               | .error e => .error (.subscribe e)
             covered := some s.length }
  | .start token => do
    let t ← findToken token
    let c ← findCursor name
    let (waiter, h) := (← hub).newTarget (.waiter {})
    sayCursorWaited name (({ cursor := c, waiter := waiter } : Follower).start t h) false
  | .poll => do
    let s ← find name fun | .waiting s => some s | _ => none
    sayCursorWaited name (s.poll (← hub)) (s.isStirred (← hub))

def performFollower (name : String) (step : FollowerStep) : Act Answer := do
  let findFollower : Act Follower := find name fun | .follower f => some f | _ => none
  match step with
  | .start token =>
    let t ← findToken token
    let f ← findFollower
    sayFollowerWaited name (f.start t (← hub)) false
  | .poll =>
    let s ← find name fun | .sleeping s => some s | _ => none
    sayFollowerWaited name (s.poll (← hub)) (s.isStirred (← hub))
  | .tryNext =>
    let f ← findFollower
    moveKept f.cursor .next fun c => update name (.follower { f with cursor := c })
  | .find k lookup =>
    let f ← findFollower
    moveKept f.cursor (.find k lookup) fun c => update name (.follower { f with cursor := c })
  | .reset =>
    let f ← findFollower
    let c := f.cursor.reset (← sources)
    update name (.follower { f with cursor := c })
    reply (← sayMoved c true)
  | .current => reply (.entry (some (← charge ((← findFollower).cursor.current (← sources)))))
  | .watched => reply (.count (← findFollower).subscriptions.length)
  | .unwrap newName =>
    let f ← release (← findFollower)
    modify (·.eraseObject name)
    put newName (.cursor f.cursor)
    reply .done

def performView (name : String) (step : ViewStep) : Act Answer := do
  let v ← find name fun | .view v => some v | _ => none
  let src ← sources
  match step with
  | .cursor newName =>
    put newName (.cursor (v.cursor src))
    reply .done
  | .get k => reply (.optional (← charge (v.get? src k)))
  | .find k lookup => reply (.entry (← charge (v.find? src k lookup)))
  | .first => reply (.entry (← charge (v.first? src)))
  | .last => reply (.entry (← charge (v.last? src)))
  | .isEmpty => reply (.flag (← charge (v.isEmpty src)))
  | .count => reply (.count (← charge (v.count src)))
  | .isCompleted => reply (.flag (v.isCompleted src))
  | .collect => reply (.entries (← charge (v.entries src)))
  | .iterate newName =>
    put newName (.iterator (v.cursor src))
    reply .done

/-! ## Subscriptions -/

def performSubscription (name : String) (step : SubscriptionStep) : Act Answer := do
  let findSubscription : Act Subscription := find name fun | .subscription s => some s | _ => none
  match step with
  | .request n =>
    let s ← findSubscription
    setHub ((← hub).request s n)
    reply (.count ((← hub).requests s))
  | .requests => reply (.count ((← hub).requests (← findSubscription)))
  | .isOn registry =>
    let id ← findRegistry registry
    reply (.flag ((← findSubscription).registry == id))
  | .describe => reply (.text (Describe.subscription (← hub) (← findSubscription)))

def performSet (name : String) (step : SetStep) : Act Answer := do
  match step with
  | .subscribe registry target =>
    let id ← findRegistry registry
    let t ← findTarget target
    let s ← findSet name
    let (answer, s, h) := s.subscribe (← hub) id t
    setHub h
    update name (.set s)
    match answer with
    | .ok added => reply (.flag added)
    | .error e => throw (.subscribe e)
  | .request n =>
    let s ← findSet name
    setHub ((← hub).requestAll s n)
    reply .done
  | .size =>
    let s ← findSet name
    reply (.size s.length s.isEmpty)
  | .clear =>
    let s ← findSet name
    setHub ((← hub).unsubscribeAll s)
    update name (.set [])
    reply .done
  | .describe => do
    let s ← findSet name
    reply (.text (Describe.subscriptions (← hub) s))

/-! ## Steps that notify -/

/-- How a notification is carried out. -/
abbrev Notifier := Notice → World → World

/-- Writes to a series. The versions afterwards are said with the answer, unless it faulted. -/
def change {α : Type} (notify : Notifier) (id : SourceId) (write : Series → Write α)
    (say : α → Reply) : Act Answer := do
  let w := write ((← sources) id)
  modify (World.settle notify id w)
  match w.result with
  | .error (.fault f) => throw (.fault f)
  | result =>
    let s := (← sources) id
    return { outcome := match result with
               | .ok a => .ok (say a)
               | .error (.refused e) => .error (.series e)
               | .error (.fault f) => .error (.fault f)
             versions := some (s.version, s.nextVersion) }

def performSeries (notify : Notifier) (name : String) (step : SeriesStep) : Act Answer := do
  let id ← findSeries name
  let s := (← sources) id
  match step with
  | .set k v => change notify id (·.set k v) .optional
  | .add k v => change notify id (·.add k v) fun _ => .done
  | .addFirst k v => change notify id (·.addFirst k v) fun _ => .done
  | .addLast k v => change notify id (·.addLast k v) fun _ => .done
  | .tryAdd k v => change notify id (·.tryAdd k v) .flag
  | .remove k => change notify id (·.remove k) .optional
  | .removeMany k lookup => change notify id (·.removeMany k lookup) .count
  | .append entries option => change notify id (·.append entries option) .count
  | .complete => change notify id (·.complete) .flag
  | .size => reply (.count s.size)
  | .isEmpty => reply (.flag s.isEmpty)
  | .first => reply (.entry s.first?)
  | .last => reply (.entry s.last?)
  | .get k => reply (.optional (s.get? k))
  | .find k lookup => reply (.entry (s.find? k lookup))
  | .snapshot => reply (.entries s.snapshot)
  | .status =>
    reply (.status s.version s.nextVersion s.isCompleted s.isSynchronized s.subscribers)
  | .settings => reply (.settings s.settings)
  | .same other => reply (.flag (id == (← findSeries other)))
  | .describe => reply (.text (Describe.series s))

def performRegistry (notify : Notifier) (name : String) (step : RegistryStep) : Act Answer := do
  let id ← findRegistry name
  let r := (← hub).registry id
  match step with
  | .subscribe target newName =>
    let t ← findTarget target
    let (answer, h) := (← hub).subscribe id t
    setHub h
    match answer with
    | .ok s =>
      put newName (.subscription s)
      reply .done
    | .error e => throw (.subscribe e)
  | .notify force =>
    let (notice, r) := r.notify force
    setHub ((← hub).setRegistry id r)
    modify (notify notice)
    reply (.count notice.targets.length)
  | .size => reply (.size r.size r.isEmpty)
  | .describe => reply (.text (Describe.registry r))

/-- The result of handing commands on, as the result of an action. -/
def settleCommand {α : Type} (result : Except Failure α) (say : α → Reply) : Act Answer :=
  match result with
  | .ok a => reply (say a)
  | .error (.refused e) => throw (.series e)
  | .error (.fault f) => throw (.fault f)

def performQueue (notify : Notifier) (name : String) (step : QueueStep) : Act Answer := do
  let index ← find name fun | .queue index => some index | _ => none
  let w ← get
  let site := w.site index
  match step with
  | .finish =>
    let inner := World.consumer notify site.series site.behind
    let (result, q, w) := LoadQueue.finish inner site.queue w
    set (w.setQueue index q)
    settleCommand result .count
  | .status =>
    let target := match site.behind with
      | next :: _ => QueueTarget.queue (w.site next).queue.isLoading
      | [] =>
        let s := w.hub.sources site.series
        .series s.version s.nextVersion s.isCompleted
    reply (.queue (seriesLabel site.queue.id) site.queue.isLoading target)
  | .describe => reply (.text (Describe.loadQueue site.queue))

/-- One step, for a given meaning of notifications. -/
def perform (notify : Notifier) : Step → Act Answer
  | .newSeries name changes => do
    let s ← charge (.lift (do Series.make (← Settings.ofChanges changes)))
    make name (·.newSeries s) .series
  | .seriesOf name entries => make name (·.newSeries (.ofList entries)) .series
  | .alias series name => do
    put name (.series (← findSeries series))
    reply .done
  | .newCursor name expr => do
    put name (.cursor (← build expr))
    reply .done
  | .newView name expr => do
    put name (.view ⟨← build expr⟩)
    reply .done
  | .newFollower name expr => do
    let c ← build expr
    make name (Follower.make · c) .follower
  | .newToken name => make name (·.newToken) .token
  | .newRegistry name => make name (·.newRegistry) .registry
  | .newObserver name reactions => do
    let (id, h) := (← hub).newTarget .observer
    setHub h
    modify fun w => { w with observers := ⟨id, name, reactions⟩ :: w.observers }
    put name (.observer id)
    reply .done
  | .newWaiter name => make name (·.newTarget (.waiter {})) .waiter
  | .newSet name => do
    put name (.set [])
    reply .done
  | .newQueue name target id => do
    let (behind, series) ← findConsumer target
    let index := (← get).queues.length
    modify fun w => { w with queues := w.queues ++ [⟨⟨id, some []⟩, behind, series⟩] }
    put name (.queue index)
    reply .done
  | .drop name => do
    match (← get).object? name with
    | none => reply (.flag false)
    | some o =>
      modify fun w => { w.eraseObject name with hub := World.discard w.hub o }
      reply (.flag true)
  | .calls => do reply (.count (← get).calls)
  | .series name step => performSeries notify name step
  | .cursor name step => performCursor name step
  | .view name step => performView name step
  | .next name => do
    let c ← find name fun | .iterator c => some c | _ => none
    let (c, e) := View.step (← sources) c .next
    update name (.iterator c)
    reply (.entry (← charge e))
  | .follower name step => performFollower name step
  | .cancel name => do
    setHub ((← hub).cancel (← findToken name))
    reply .done
  | .registry name step => performRegistry notify name step
  | .subscription name step => performSubscription name step
  | .set name step => performSet name step
  | .wake name => do
    let id ← find name fun | .waiter id => some id | _ => none
    setHub ((← hub).wake id)
    reply .done
  | .wait name newName => do
    let id ← find name fun | .waiter id => some id | _ => none
    let (ticket, w) := ((← hub).waiter id).enter
    setHub ((← hub).setWaiter id w)
    put newName (.wait id ticket)
    return { outcome := .ok (if ticket.isSome then .pending else .flag true), woken := some false }
  | .pollWait name => do
    match ← find name fun | .wait id ticket => some (id, ticket) | _ => none with
    | (_, none) => return { outcome := .ok (.flag true), woken := some false }
    | (id, some ticket) =>
      let (done, w) := ((← hub).waiter id).poll ticket
      setHub ((← hub).setWaiter id w)
      if done then update name (.wait id none)
      return { outcome := .ok (if done then .flag true else .pending), woken := some done }
  | .command name c => do
    let (queues, series) ← findConsumer name
    let (result, w) := World.consumer notify series queues c (← get)
    set w
    settleCommand result fun outcome => .text outcome.label
  | .queue name step => performQueue notify name step

/-! ## Notifications -/

/-- The answer of a step and the world after it. -/
def answer (notify : Notifier) (step : Step) (w : World) : Answer × World :=
  match (perform notify step).run w with
  | (.ok a, w) => (a, w)
  | (.error e, w) => ({ outcome := .error e }, w)

/-- Invokes a target: a waiter is woken, an observer sees the notification and reacts. -/
def invoke (notify : Notifier) (force : Bool) (w : World) (t : TargetId) : World :=
  match w.hub.targets[t]? with
  | some (.waiter _) => { w with hub := w.hub.wake t }
  | some .observer =>
    match w.observers.find? fun o => o.target == t with
    | none => w
    | some o =>
      o.reactions.foldl
        (fun w step =>
          let (a, w) := answer notify step w
          { w with hits := .reacted o.name a :: w.hits })
        { w with hits := .invoked o.name force :: w.hits }
  | none => w

/-- Carries out a notification, and those that its reactions cause, to a depth of nesting. -/
def notify : Nat → Notifier
  | 0, _, w => w
  | depth + 1, n, w =>
    let w := n.targets.foldl (invoke (notify depth) n.force) w
    if n.reported then { w with hub := w.hub.report (.notified n.targets.length n.force) } else w

/-- The depth to which notifications may nest. -/
def nesting : Nat := 100000

/-- One step of a session, with all that happened during it. -/
def step (s : Step) (w : World) : Report × World :=
  let w : World := { w with hits := [], hub := { w.hub with reports := [] } }
  let (a, w) := answer (notify nesting) s w
  (⟨a, w.hits.reverse, w.hub.reports.reverse⟩, w)

end Session

end LiveSeries
