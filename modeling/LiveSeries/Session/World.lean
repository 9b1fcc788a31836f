import LiveSeries.Session.Answer
import LiveSeries.Session.Step
import LiveSeries.View

/-!
# The world of a session

Objects under names, over the shared state. A name stands for the last object stored under it.
An object that loses its name gives up what it holds: its subscriptions, and its place in a
queue.
-/

namespace LiveSeries

/-- What a name can stand for. -/
inductive Object where
  | series (id : SourceId)
  | cursor (c : Cursor)
  /-- A cursor that waits for its next entry. -/
  | waiting (s : Sleeper)
  | view (v : View)
  | iterator (c : Cursor)
  | follower (f : Follower)
  /-- A follower that waits for its next entry. -/
  | sleeping (s : Sleeper)
  | token (id : Nat)
  | registry (id : RegistryId)
  | observer (id : TargetId)
  | waiter (id : TargetId)
  /-- A wait on a waiter; one that is over has no place in the queue. -/
  | wait (waiter : TargetId) (ticket : Option Nat)
  | set (s : Subscriptions)
  | subscription (s : Subscription)
  | queue (index : Nat)

/-- A load queue in its place: the queues behind it, and the series behind them. -/
structure QueueSite where
  queue : LoadQueue
  behind : List Nat
  series : SourceId

/-- What an observer does when it is invoked. -/
structure Observer where
  target : TargetId
  name : String
  reactions : List Step

/-- All that a session knows. -/
structure World where
  hub : Hub := {}
  queues : List QueueSite := []
  observers : List Observer := []
  objects : List (String × Object) := []
  /-- How many functions were called so far. -/
  calls : Nat := 0
  /-- What observers saw during this step, the latest first. -/
  hits : List Hit := []

namespace World

def object? (w : World) (name : String) : Option Object := w.objects.lookup name

/-- Stores an object under a name, in place of another. -/
def setObject (w : World) (name : String) (o : Object) : World :=
  { w with objects := (name, o) :: w.objects.filter fun p => p.1 != name }

def eraseObject (w : World) (name : String) : World :=
  { w with objects := w.objects.filter fun p => p.1 != name }

/-- What becomes of the shared state when an object goes. -/
def discard (h : Hub) : Object → Hub
  | .waiting s | .sleeping s => (s.follower.release (s.leave h)).2
  | .follower f => (f.release h).2
  | .wait waiter (some ticket) => h.setWaiter waiter ((h.waiter waiter).leave ticket)
  | .set s => h.unsubscribeAll s
  | .subscription s => h.unsubscribe s
  | _ => h

/-- Stores a new object under a name. The object that had the name goes afterwards. -/
def put (w : World) (name : String) (o : Object) : World :=
  let old := w.object? name
  let w := w.setObject name o
  match old with
  | some old => { w with hub := discard w.hub old }
  | none => w

/-- The load queue at a place; a place never given out holds an idle one. -/
def site (w : World) (index : Nat) : QueueSite :=
  w.queues.getD index ⟨⟨0, none⟩, [], 0⟩

def setQueue (w : World) (index : Nat) (q : LoadQueue) : World :=
  { w with queues := w.queues.set index { w.site index with queue := q } }

/-- Tells the world what a write did: the series changes, targets are invoked, and the writer
leaves. -/
def settle (notify : Notice → World → World) (id : SourceId) {α : Type} (write : Write α)
    (w : World) : World :=
  let w := { w with hub := w.hub.commit id write }
  match write.notice with
  | none => w
  | some n =>
    let w := notify n w
    { w with hub := w.hub.leave id }

/-- A series of the world as a consumer of commands. -/
def seriesConsumer (notify : Notice → World → World) (id : SourceId) : Consumer World :=
  fun c w =>
    let write := (w.hub.sources id).apply c
    (write.result, settle notify id write w)

/-- A row of load queues in front of a series as a consumer of commands. -/
def consumer (notify : Notice → World → World) (id : SourceId) : List Nat → Consumer World
  | [] => seriesConsumer notify id
  | index :: behind => fun c w =>
    let inner := consumer notify id behind
    let (answer, q, w) := LoadQueue.consumer inner c ((w.site index).queue, w)
    (answer, w.setQueue index q)

end World

end LiveSeries
