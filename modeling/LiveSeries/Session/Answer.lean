import LiveSeries.Cursor.Inspection
import LiveSeries.Follower

/-!
# Answers of a session

What a step says: a reply or an error, and beside it what the step changed that is worth
telling.
-/

namespace LiveSeries

/-- Where the commands of a load queue go. -/
inductive QueueTarget where
  | series (version next : Nat) (completed : Bool)
  | queue (loading : Bool)

/-- A reply. -/
inductive Reply where
  | done
  | flag (b : Bool)
  | flags (continuous completed : Bool)
  | count (n : Nat)
  | size (n : Nat) (empty : Bool)
  | text (s : String)
  | state (s : Stage)
  | key (k : Key)
  | value (v : Value)
  | optional (v : Option Value)
  | entry (e : Option Entry)
  | entries (es : List Entry)
  /-- A cursor moved or not, its state, and the entry at which it stands. -/
  | moved (landed : Bool) (state : Stage) (current : Option (Except Fault Entry))
  | pending
  | status (version next : Nat) (completed synchronized : Bool) (subscribers : Nat)
  | settings (c : Settings)
  | inspection (i : Inspection)
  | queue (label : String) (loading : Bool) (target : QueueTarget)

/-- Why a step has no reply. -/
inductive StepError where
  /-- A name stands for no object, or for one of another kind. -/
  | noObject (name : String)
  | series (e : Refusal)
  | wait (e : WaitError)
  | subscribe (e : SubscribeRefusal)
  | fault (f : Fault)
  deriving DecidableEq, Repr

/-- The text shown for an error; of a missing object it is the name. -/
def StepError.message : StepError → String
  | .noObject name => name
  | .series e => e.message
  | .wait e => e.message
  | .subscribe e => e.message
  | .fault f => f.message

/-- What a step says. -/
structure Answer where
  outcome : Except StepError Reply
  /-- The versions of a series that was to be changed. -/
  versions : Option (Nat × Nat) := none
  /-- How many registries a set covers now. -/
  covered : Option Nat := none
  /-- How many registries a follower watches when its wait is over. -/
  watched : Option Nat := none
  /-- A wait was stirred since it was last asked. -/
  woken : Option Bool := none

/-- What an observer saw and did. -/
inductive Hit where
  | invoked (observer : String) (force : Bool)
  | reacted (observer : String) (answer : Answer)

/-- An answer with all that happened during the step, in order. -/
structure Report where
  answer : Answer
  hits : List Hit
  events : List Event

end LiveSeries
