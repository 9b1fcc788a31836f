import LiveSeries.Series.Refusal
import LiveSeries.Store

/-!
# Appending to a store

Entries are appended at the end of a store. What happens where they overlap the stored ones is
said by an option: it is an error, or the stored tail gives way, or the overlap is accepted if
it repeats what is stored.
-/

namespace LiveSeries

/-- What to do where appended entries overlap stored ones. -/
inductive OverlapRule where
  | reject
  | dropOld
  | acceptEqual
  deriving DecidableEq, Repr

instance : Inhabited OverlapRule := ⟨.reject⟩

/-- A list of entries whose neighbours increase. -/
def increases : List Entry → Bool
  | a :: b :: rest => decide (a.1 < b.1) && increases (b :: rest)
  | _ => true

/-- What a mutation made of a store: its answer, and the new store if anything changed. -/
abbrev Change (α : Type) := α × Option Store

namespace Store

/-- A key that is not above all stored keys. -/
def reaches (s : Store) (k : Key) : Bool :=
  match s.last? with
  | some last => decide (k ≤ last.1)
  | none => false

/-- An entry repeats what is stored at its key. -/
def repeats (s : Store) (e : Entry) : Bool :=
  match s.get? e.1 with
  | some v => v.equals e.2
  | none => false

/-- Appends increasing entries; the answer is how many were inserted. -/
def append (s : Store) (entries : List Entry) (option : OverlapRule) :
    Except Refusal (Change Nat) :=
  match entries with
  | [] => .ok (0, none)
  | first :: _ =>
    match option with
    | .reject =>
      if s.reaches first.1 then .error .overlap
      else .ok (entries.length, some (s.insertAll entries))
    | .acceptEqual =>
      let old := entries.takeWhile fun e => s.reaches e.1
      let fresh := entries.dropWhile fun e => s.reaches e.1
      if old.all s.repeats then
        .ok (fresh.length, if fresh.isEmpty then none else some (s.insertAll fresh))
      else .error .overlap
    | .dropOld =>
      .ok (entries.length, some ((s.removeMany first.1 .ge).2.insertAll entries))

end Store

end LiveSeries
