import LiveSeries.Settings
import LiveSeries.Event
import LiveSeries.Gate
import LiveSeries.Registry
import LiveSeries.Series.Append

/-!
# Series

A series is a store behind a gate, with a registry of those who wait for updates. A mutation
enters the gate, changes the store and publishes a version if anything changed; then it selects
the targets to notify. They run while the writer still holds the gate, on the series as it was
published, and the writer leaves when they are done.

A mutation is therefore given in two halves: `Write.series` is what targets see, and
`Write.settled` is what remains afterwards if no target changed anything.
-/

namespace LiveSeries

/-- The number of a series. -/
abbrev SourceId := Nat

/-- An ordered store of entries that changes by published versions. -/
structure Series where
  store : Store := .empty
  gate : Gate := {}
  registry : Registry := {}
  settings : Settings := {}
  deriving Inhabited

/-- What a mutation or a command did. -/
structure Write (α : Type) where
  result : Except Failure α
  /-- The series as the notified targets see it. -/
  series : Series
  /-- What is reported before the targets are invoked. -/
  events : List Event := []
  /-- The notification that was made, if any. -/
  notice : Option Notice := none

namespace Series

/-- A series over a store. -/
def make (settings : Settings) (store : Store := .empty) : Except Fault Series := do
  let gate ← Gate.make settings.readTries
  return { store := store, gate := gate, settings := settings }

/-- A series of given entries with default settings, at version zero. -/
def ofList (entries : List Entry) : Series := { store := .ofList entries }

def version (s : Series) : Nat := s.gate.version

def nextVersion (s : Series) : Nat := s.gate.nextVersion

def isCompleted (s : Series) : Bool := s.gate.readOnly

def isSynchronized (s : Series) : Bool := s.gate.synchronized

/-- How many subscriptions wait for updates. -/
def subscribers (s : Series) : Nat := s.registry.size

/-- The writer leaves the gate after its targets ran. -/
def settle (s : Series) : Series := { s with gate := s.gate.leave true }

/-! ## Reading -/

/-- Reads the store through the gate. -/
def read {α : Type} (s : Series) (f : Store → α) : α :=
  (Gate.read id (fun locked g => { g with locked := locked }) (fun _ g => (f s.store, g)) s.gate).value

/-- A read sees the store as it is. -/
theorem read_eq {α : Type} (s : Series) (f : Store → α) : s.read f = f s.store :=
  Gate.read_quiet s.gate (f s.store)

def size (s : Series) : Nat := s.read Store.size

def isEmpty (s : Series) : Bool := s.size == 0

def first? (s : Series) : Option Entry := s.read Store.first?

def last? (s : Series) : Option Entry := s.read Store.last?

def get? (s : Series) (k : Key) : Option Value := s.read fun store => store.get? k

def find? (s : Series) (k : Key) (lookup : Lookup) : Option Entry :=
  s.read fun store => store.find? k lookup

def nextAfter? (s : Series) (k : Key) : Option Entry := s.read fun store => store.nextAfter? k

def previousBefore? (s : Series) (k : Key) : Option Entry :=
  s.read fun store => store.previousBefore? k

/-- Copies pages of a store after the entries already copied, until a page is short. -/
def copyPages (store : Store) (chunk : Nat) : Nat → List Entry → List Entry
  | 0, copied => copied
  | pages + 1, copied =>
    let page := store.pageAfter (copied.getLast?.map (·.1)) chunk
    if page.length < chunk then copied ++ page
    else copyPages store chunk pages (copied ++ page)

/-- All entries, copied in pages. A page that is not short holds an entry, so there is one page
more than there are entries at the most. -/
def snapshot (s : Series) : List Entry :=
  s.read fun store => copyPages store s.settings.pageSize (store.size + 1) []

/-! ## Writing -/

/-- Leaves the gate with nothing published. -/
def giveUp (s : Series) (gate : Gate) : Series := { s with gate := gate.leave false }

/-- The refusal of the gate as a failure of the series. -/
def failureOf : GateRefusal → Failure
  | .readOnly => .refused .completed
  | .busy => .fault .lockHeld
  | .fault f => .fault f

/-- The series after a publication, and the notification of it. -/
def announce (s : Series) (gate : Gate) (store : Store) (force : Bool) : Notice × Series :=
  let (notice, registry) := s.registry.notify force
  (notice, { s with gate := gate, store := store, registry := registry })

/-- One mutation. It publishes the next version if it changed the store, and else leaves the
versions as they were. -/
def write {α : Type} (s : Series) (f : Store → Except Refusal (Change α)) : Write α :=
  match s.gate.enter with
  | .error r => { result := .error (failureOf r), series := s }
  | .ok gate =>
    match f s.store with
    | .error e => { result := .error (.refused e), series := giveUp s gate }
    | .ok (a, none) => { result := .ok a, series := giveUp s gate }
    | .ok (a, some store) =>
      let (notice, series) := s.announce gate.publish store false
      { result := .ok a
        series := series
        events := [.published gate.publish.version]
        notice := some notice }

/-- One mutation under a version assigned elsewhere, published whether or not it changed the
store. -/
def writeAs {α : Type} (s : Series) (version : Nat) (f : Store → Except Refusal (Change α)) :
    Write α :=
  match s.gate.enter with
  | .error r => { result := .error (failureOf r), series := s }
  | .ok gate =>
    if version ≤ gate.version then
      { result := .error (.refused (.staleVersion version gate.version))
        series := giveUp s gate }
    else
      match f s.store with
      | .error e => { result := .error (.refused e), series := giveUp s gate }
      | .ok (a, changed) =>
        match gate.publishAs version with
        | .error fault => { result := .error (.fault fault), series := giveUp s gate }
        | .ok gate =>
          let (notice, series) := s.announce gate (changed.getD s.store) false
          { result := .ok a
            series := series
            events := [.published version]
            notice := some notice }

/-- Inserts or replaces; the answer is the value that was there. -/
def set (s : Series) (k : Key) (v : Value) : Write (Option Value) :=
  s.write fun store =>
    let (previous, store) := store.insert k v
    .ok (previous, some store)

/-- Inserts a new key; a stored one is an error. -/
def add (s : Series) (k : Key) (v : Value) : Write Unit :=
  s.write fun store =>
    if (store.get? k).isSome then .error .keyExists
    else .ok ((), some (store.insert k v).2)

/-- Inserts a new key; the answer is false for a stored one. -/
def tryAdd (s : Series) (k : Key) (v : Value) : Write Bool :=
  s.write fun store =>
    if (store.get? k).isSome then .ok (false, none)
    else .ok (true, some (store.insert k v).2)

/-- Inserts in front of all stored keys. -/
def addFirst (s : Series) (k : Key) (v : Value) : Write Unit :=
  s.write fun store =>
    match store.first? with
    | some first =>
      if k < first.1 then .ok ((), some (store.insert k v).2) else .error .outOfOrder
    | none => .ok ((), some (store.insert k v).2)

/-- Inserts after all stored keys. -/
def addLast (s : Series) (k : Key) (v : Value) : Write Unit :=
  s.write fun store =>
    if store.reaches k then .error .outOfOrder
    else .ok ((), some (store.insert k v).2)

/-- Takes a key away; the answer is its value. -/
def remove (s : Series) (k : Key) : Write (Option Value) :=
  s.write fun store =>
    let (removed, store) := store.erase k
    .ok (removed, if removed.isSome then some store else none)

/-- Takes away all keys that a lookup admits; the answer is how many went. -/
def removeMany (s : Series) (k : Key) (lookup : Lookup) : Write Nat :=
  s.write fun store =>
    let (count, store) := store.removeMany k lookup
    .ok (count, if 0 < count then some store else none)

/-- Appends entries; the answer is how many were inserted. Entries that do not increase are
refused before the gate is entered. -/
def append (s : Series) (entries : List Entry) (option : OverlapRule) : Write Nat :=
  if increases entries then s.write fun store => store.append entries option
  else { result := .error (.refused .outOfOrder), series := s }

/-- Freezes the series; the answer is true for the call that did. The gate is left before the
targets run, and every target is invoked. -/
def complete (s : Series) : Write Bool :=
  match s.gate.complete with
  | .error r => { result := .error (failureOf r), series := s }
  | .ok (false, _) => { result := .ok false, series := s }
  | .ok (true, gate) =>
    let (notice, series) := s.announce gate s.store true
    { result := .ok true
      series := series
      events := [.completed gate.version]
      notice := some notice }

end Series

/-- The series after a write whose targets changed nothing. -/
def Write.settled {α : Type} (w : Write α) : Series :=
  match w.notice with
  | some _ => w.series.settle
  | none => w.series

end LiveSeries
