/-!
# Registries

A registry keeps the targets that want to hear of updates of one container. A target holds at
most one subscription there. Each subscription counts the notifications it still asked for: a
notification takes one of them, and passes over a subscription that has none left unless it is
forced.

The records sit in a slot that grows from vacant over a single record to a list, and never
shrinks back from a list. What targets see is the list of records (`records`) alone; the form
of the slot decides only whether a notification is reported.
-/

namespace LiveSeries

/-- The identity of a target. -/
abbrev TargetId := Nat

/-- One subscription as its registry keeps it. -/
structure Subscriber where
  /-- Its number in this registry. -/
  id : Nat
  target : TargetId
  /-- The notifications it still waits for. -/
  requests : Nat := 0
  deriving DecidableEq, Repr

/-- Where a registry keeps its records. -/
inductive Slot where
  | vacant
  | single (record : Subscriber)
  | many (records : List Subscriber)
  deriving DecidableEq, Repr, Inhabited

namespace Slot

/-- The records of a slot, in the order of subscription. -/
def records : Slot → List Subscriber
  | .vacant => []
  | .single record => [record]
  | .many records => records

/-- The slot with one more record. -/
def push (record : Subscriber) : Slot → Slot
  | .vacant => .single record
  | .single first => .many [first, record]
  | .many records => .many (records ++ [record])

/-- Changes every record in place. -/
def map (f : Subscriber → Subscriber) : Slot → Slot
  | .vacant => .vacant
  | .single record => .single (f record)
  | .many records => .many (records.map f)

/-- The slot without the record of a number. -/
def erase (id : Nat) : Slot → Slot
  | .vacant => .vacant
  | .single record => if record.id = id then .vacant else .single record
  | .many records => .many (records.filter fun s => s.id != id)

@[simp] theorem records_push (record : Subscriber) (slot : Slot) :
    (slot.push record).records = slot.records ++ [record] := by
  cases slot <;> rfl

@[simp] theorem records_map (f : Subscriber → Subscriber) (slot : Slot) :
    (slot.map f).records = slot.records.map f := by
  cases slot <;> rfl

@[simp] theorem records_erase (id : Nat) (slot : Slot) :
    (slot.erase id).records = slot.records.filter fun s => s.id != id := by
  cases slot with
  | vacant => rfl
  | single record => by_cases h : record.id = id <;> simp [erase, records, h]
  | many records => rfl

end Slot

/-- A notification finds this record willing. -/
def Subscriber.answers (force : Bool) (s : Subscriber) : Bool := force || 0 < s.requests

/-- Those who want to hear of updates of one container. -/
structure Registry where
  slot : Slot := .vacant
  /-- How many subscriptions were made so far; the number of the next one. -/
  issued : Nat := 0
  deriving DecidableEq, Repr, Inhabited

/-- Why a target was not subscribed. -/
inductive SubscribeRefusal where
  | alreadySubscribed
  deriving DecidableEq, Repr

/-- The text shown for a subscription that was refused. -/
def SubscribeRefusal.message : SubscribeRefusal → String
  | .alreadySubscribed => "target is already subscribed to this registry"

/-- The targets a notification selected, in the order of their subscriptions. They are invoked
afterwards, whatever happens to their subscriptions in between. -/
structure Notice where
  force : Bool
  targets : List TargetId := []
  /-- The end of the notification is reported. -/
  reported : Bool := false
  deriving DecidableEq, Repr

namespace Registry

/-- All records, in the order of subscription. -/
def records (r : Registry) : List Subscriber := r.slot.records

/-- How many subscriptions there are. -/
def size (r : Registry) : Nat := r.records.length

def isEmpty (r : Registry) : Bool := r.size == 0

/-- The record with a number. -/
def find? (r : Registry) (id : Nat) : Option Subscriber := r.records.find? fun s => s.id == id

/-- A target is subscribed. -/
def holds (r : Registry) (target : TargetId) : Bool :=
  r.records.any fun s => s.target == target

/-- Subscribes a target at the end; with it, the number of the new subscription. -/
def subscribe (r : Registry) (target : TargetId) : Except SubscribeRefusal (Nat × Registry) :=
  if r.holds target then .error .alreadySubscribed
  else
    let record : Subscriber := { id := r.issued, target := target }
    .ok (r.issued, { slot := r.slot.push record, issued := r.issued + 1 })

/-- Ends the subscription with a number. -/
def unsubscribe (r : Registry) (id : Nat) : Registry := { r with slot := r.slot.erase id }

/-- Asks for `n` more notifications of the subscription with a number. -/
def request (r : Registry) (id n : Nat) : Registry :=
  { r with
    slot := r.slot.map fun s => if s.id = id then { s with requests := s.requests + n } else s }

/-- The notifications a subscription still waits for. -/
def requests (r : Registry) (id : Nat) : Nat :=
  match r.find? id with
  | some s => s.requests
  | none => 0

/-- Selects the targets of a notification, and takes one request from each that has any. -/
def notify (r : Registry) (force : Bool) : Notice × Registry :=
  match r.slot with
  | .vacant => ({ force := force }, r)
  | _ =>
    ({ force := force
       targets := (r.records.filter (Subscriber.answers force)).map (·.target)
       reported := true },
      { r with slot := r.slot.map fun s => { s with requests := s.requests - 1 } })

/-! ## The records after each operation -/

theorem records_subscribe {r r' : Registry} {target : TargetId} {id : Nat}
    (h : r.subscribe target = .ok (id, r')) :
    r'.records = r.records ++ [⟨r.issued, target, 0⟩] := by
  unfold subscribe at h
  split at h
  · simp at h
  · simp only [Except.ok.injEq, Prod.mk.injEq] at h
    obtain ⟨-, rfl⟩ := h
    simp [records]

theorem records_unsubscribe (r : Registry) (id : Nat) :
    (r.unsubscribe id).records = r.records.filter fun s => s.id != id := by
  simp [unsubscribe, records]

theorem targets_notify (r : Registry) (force : Bool) :
    (r.notify force).1.targets = (r.records.filter (Subscriber.answers force)).map (·.target) := by
  unfold notify
  split
  · next h => simp [records, h, Slot.records]
  · rfl

theorem records_notify (r : Registry) (force : Bool) :
    (r.notify force).2.records = r.records.map fun s => { s with requests := s.requests - 1 } := by
  unfold notify
  split
  · next h => simp [records, h, Slot.records]
  · simp [records]

end Registry

end LiveSeries
