import LiveSeries.Settings
import LiveSeries.Cursor.Behaviour
import LiveSeries.LoadQueue
import LiveSeries.Session.Function

/-!
# Steps of a session

What a session can be asked to do. Every step names the objects it acts on.
-/

namespace LiveSeries

/-- A cursor to be made. -/
inductive CursorExpr where
  /-- A cursor over a series that is ready. -/
  | ready (series : String)
  /-- A cursor over a series that only carries configuration. -/
  | raw (series : String)
  /-- A copy of a cursor, with its position. -/
  | copy (cursor : String)
  | map (inner : CursorExpr) (f : EntryFunction)
  | mapValues (inner : CursorExpr) (f : ValueFunction)
  | function (inner : CursorExpr) (f : ValueFunction)
  | arith (inner : CursorExpr) (op : Arith) (operand : Value)
  | negate (inner : CursorExpr)
  | compare (inner : CursorExpr) (r : Relation) (operand : Value)
  | zip (left right : CursorExpr)
  | zipWith (left right : CursorExpr) (f : PairFunction)
  | carry (inner : CursorExpr)
  | fill (inner : CursorExpr) (otherwise : Value)
  | refuse (inner : CursorExpr)

/-- What a series can be asked. -/
inductive SeriesStep where
  | set (k : Key) (v : Value)
  | add (k : Key) (v : Value)
  | addFirst (k : Key) (v : Value)
  | addLast (k : Key) (v : Value)
  | tryAdd (k : Key) (v : Value)
  | remove (k : Key)
  | removeMany (k : Key) (lookup : Lookup)
  | append (entries : List Entry) (option : OverlapRule)
  | complete
  | size
  | isEmpty
  | first
  | last
  | get (k : Key)
  | find (k : Key) (lookup : Lookup)
  | snapshot
  | status
  | settings
  /-- Whether another name stands for the same series. -/
  | same (other : String)
  | describe

/-- What a cursor can be asked. -/
inductive CursorStep where
  | move (motion : Motion)
  | reset
  | dispose
  /-- Keeps a fresh cursor over the same tree under a name. -/
  | fresh (name : String)
  | copy (name : String)
  | state
  | key
  | value
  | current
  | get (k : Key)
  | find (k : Key) (lookup : Lookup)
  | flags
  | inspect
  | describe
  /-- Subscribes a target to all series of the cursor, through a set. -/
  | subscribe (target set : String)
  /-- Begins to wait for the next entry. -/
  | start (token : String)
  | poll

/-- What a view can be asked. -/
inductive ViewStep where
  | cursor (name : String)
  | get (k : Key)
  | find (k : Key) (lookup : Lookup)
  | first
  | last
  | isEmpty
  | count
  | isCompleted
  | collect
  | iterate (name : String)

/-- What a follower can be asked. -/
inductive FollowerStep where
  | start (token : String)
  | poll
  | tryNext
  | find (k : Key) (lookup : Lookup)
  | reset
  | current
  | watched
  /-- Keeps its cursor under a name, and gives the rest up. -/
  | unwrap (name : String)

/-- What a registry can be asked. -/
inductive RegistryStep where
  | subscribe (target name : String)
  | notify (force : Bool)
  | size
  | describe

/-- What a subscription can be asked. -/
inductive SubscriptionStep where
  | request (n : Nat)
  | requests
  | isOn (registry : String)
  | describe

/-- What a set of subscriptions can be asked. -/
inductive SetStep where
  | subscribe (registry target : String)
  | request (n : Nat)
  | size
  | clear
  | describe

/-- What a load queue can be asked. -/
inductive QueueStep where
  | finish
  | status
  | describe

/-- One step. -/
inductive Step where
  | newSeries (name : String) (changes : List (Setting × Nat))
  | seriesOf (name : String) (entries : List Entry)
  | alias (series name : String)
  | newCursor (name : String) (expr : CursorExpr)
  | newView (name : String) (expr : CursorExpr)
  | newFollower (name : String) (expr : CursorExpr)
  | newToken (name : String)
  | newRegistry (name : String)
  | newObserver (name : String) (reactions : List Step)
  | newWaiter (name : String)
  | newSet (name : String)
  | newQueue (name target : String) (id : Nat)
  | drop (name : String)
  /-- How many functions were called so far. -/
  | calls
  | series (name : String) (step : SeriesStep)
  | cursor (name : String) (step : CursorStep)
  | view (name : String) (step : ViewStep)
  /-- The next entry of an iterator. -/
  | next (iterator : String)
  | follower (name : String) (step : FollowerStep)
  | cancel (token : String)
  | registry (name : String) (step : RegistryStep)
  | subscription (name : String) (step : SubscriptionStep)
  | set (name : String) (step : SetStep)
  | wake (waiter : String)
  /-- Begins a wait and keeps it under a name. -/
  | wait (waiter name : String)
  | pollWait (wait : String)
  /-- Hands a command to a series or a load queue. -/
  | command (consumer : String) (c : StampedCommand)
  | queue (name : String) (step : QueueStep)

end LiveSeries
