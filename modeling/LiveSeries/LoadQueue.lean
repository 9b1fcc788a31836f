import LiveSeries.Command

/-!
# Load queues

While the first load of a series is running, its snapshot and live commands arrive mixed and out
of order. A load queue keeps them all. When the load is finished it replays them in the order
of their versions, with every append relaxed to accept what it merely repeats, and from then on
passes commands straight through.

A load queue stands in front of any consumer of commands: a series, or another load queue. A
consumer is given by what it does to a state, so that load queues stack.
-/

namespace LiveSeries

/-- What accepts commands: its answer and the new state for every command and state. -/
abbrev Consumer (σ : Type) := StampedCommand → σ → Except Failure Outcome × σ

/-- A series whose notified targets change nothing, as a consumer. -/
def Series.consumer : Consumer Series := fun c s =>
  let w := s.apply c
  (w.result, w.settled)

/-- The commands kept for one series; none are kept once the load is finished. -/
structure LoadQueue where
  id : Nat
  pending : Option (List StampedCommand) := some []
  deriving DecidableEq

namespace LoadQueue

variable {σ : Type}

/-- The load is still running. -/
def isLoading (q : LoadQueue) : Bool := q.pending.isSome

/-- A load queue in front of a consumer. A command for another series is refused. -/
def consumer (inner : Consumer σ) : Consumer (LoadQueue × σ) := fun c (q, s) =>
  if c.series ≠ q.id then (.error (.refused (.wrongSeries q.id c.series)), q, s)
  else match q.pending with
    | some kept => (.ok .queued, { q with pending := some (kept ++ [c]) }, s)
    | none =>
      let (answer, s') := inner c s
      (answer, q, s')

/-- The same command; an append accepts what it repeats. -/
def relax (c : StampedCommand) : StampedCommand :=
  match c.command with
  | .append entries _ => { c with command := .append entries .acceptEqual }
  | _ => c

/-- The order of a replay: by version, and by arrival among equal versions. -/
def replayOrder (kept : List StampedCommand) : List StampedCommand :=
  (kept.mergeSort fun a b => a.version ≤ b.version).map relax

/-- Hands commands to a consumer up to the first failure; the answer is how many of them took
effect. -/
def replay (inner : Consumer σ) : List StampedCommand → Nat → σ → Except Failure Nat × σ
  | [], count, s => (.ok count, s)
  | c :: rest, count, s =>
    match inner c s with
    | (.error e, s') => (.error e, s')
    | (.ok (.applied _), s') | (.ok .completed, s') => replay inner rest (count + 1) s'
    | (.ok .skipped, s') | (.ok .queued, s') => replay inner rest count s'

/-- Finishes the load and replays what was kept. Commands pass straight through afterwards, also
if the replay failed; finishing again does nothing. -/
def finish (inner : Consumer σ) (q : LoadQueue) (s : σ) : Except Failure Nat × LoadQueue × σ :=
  match q.pending with
  | none => (.ok 0, q, s)
  | some kept =>
    let (answer, s') := replay inner (replayOrder kept) 0 s
    (answer, { q with pending := none }, s')

end LoadQueue

end LiveSeries
