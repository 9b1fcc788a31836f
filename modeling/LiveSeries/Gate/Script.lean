import LiveSeries.Event
import LiveSeries.Gate

/-!
# Gates under one caller

A caller of a gate that holds at most one write at a time: it enters, publishes, leaves,
completes and reads, in any order, also from inside a read. Every action is total; one that
the gate refuses leaves everything as it was. A caller that asks for a lock it holds itself would
wait for ever; here it is refused as busy.
-/

namespace LiveSeries

/-- A gate with the write its caller holds, if any: whether that write published. -/
structure Held where
  gate : Gate
  write : Option Bool := none
  deriving DecidableEq, Repr

/-- What a caller can do outside of a read, and inside one. -/
inductive GateAction where
  | rest
  | enter
  | publish
  | publishAs (version : Nat)
  | leave
  | complete
  | readLocked
  /-- Enters, publishes and leaves. -/
  | write
  deriving DecidableEq, Repr

/-- What a caller does next: one action, or a read with the actions of each of its runs. -/
inductive GateStep where
  | act (a : GateAction)
  | read (runs : List (List GateAction))
  deriving DecidableEq, Repr

/-- What an action answers. -/
inductive GateAnswer where
  | nothing
  | flag (b : Bool)
  | version (v : Nat)
  | versions (version next : Nat)
  | noWrite
  | refused (r : GateRefusal)
  deriving DecidableEq, Repr

/-- An answer as it is reported of a run under the lock. What takes the lock would wait for ever
there, and the report makes no exception: it also says busy of an entry that a completed gate
refused at once. -/
def GateAnswer.underLock : GateAnswer → GateAnswer
  | .refused .readOnly => .refused .busy
  | answer => answer

/-- What a step answers: of a read, how often it ran and the answers of its last run. -/
inductive GateReply where
  | acted (a : GateAnswer)
  | read (runs : Nat) (answers : List GateAnswer)
  deriving DecidableEq, Repr

namespace Held

/-- Takes the lock, or frees it. -/
def setLocked (locked : Bool) (h : Held) : Held :=
  { h with gate := { h.gate with locked := locked } }

/-- One action of the caller. To enter, it asks first whether the gate still admits writers, and then
for the lock. -/
def act (h : Held) : GateAction → GateAnswer × Held
  | .rest => (.nothing, h)
  | .enter =>
    match h.gate.enter with
    | .ok g => (.versions g.version g.nextVersion, ⟨g, some false⟩)
    | .error r => (.refused r, h)
  | .publish =>
    match h.write with
    | none => (.noWrite, h)
    | some _ => (.version h.gate.publish.version, ⟨h.gate.publish, some true⟩)
  | .publishAs v =>
    match h.write with
    | none => (.noWrite, h)
    | some _ =>
      match h.gate.publishAs v with
      | .ok g => (.version g.version, ⟨g, some true⟩)
      | .error f => (.refused (.fault f), h)
  | .leave =>
    match h.write with
    | none => (.flag false, h)
    | some published => (.flag true, ⟨h.gate.leave published, none⟩)
  | .complete =>
    match h.gate.complete with
    | .ok (first, g) => (.flag first, { h with gate := g })
    | .error r => (.refused r, h)
  | .readLocked =>
    if h.gate.locked then (.refused .busy, h) else (.version h.gate.version, h)
  | .write =>
    match h.gate.enter with
    | .ok g => (.version g.publish.version, { h with gate := g.publish.leave true })
    | .error r => (.refused r, h)

/-- Actions one after the other, with their answers. -/
def acts (h : Held) : List GateAction → List GateAnswer × Held
  | [] => ([], h)
  | a :: rest =>
    let (answer, h') := h.act a
    let (answers, h'') := h'.acts rest
    (answer :: answers, h'')

/-- A read whose runs perform the given lists of actions, one list a run, and nothing in the
runs after the last list. -/
def read (h : Held) (runs : List (List GateAction)) : Gate.Read Held (List GateAnswer) :=
  Gate.read Held.gate setLocked (fun i h => h.acts (runs.getD i [])) h

/-- One step of the caller, with what is reported of it. -/
def step (h : Held) : GateStep → GateReply × List Event × Held
  | .act a =>
    let (answer, h') := h.act a
    (.acted answer, [], h')
  | .read runs =>
    let r := h.read runs
    if r.fellBack then
      (.read r.runs (r.value.map .underLock), [.triesExhausted h.gate.readTries], r.state)
    else (.read r.runs r.value, [], r.state)

end Held

end LiveSeries
