import LiveSeries.Fault

/-!
# Settings of a series

How long a writer may wait for the lock, how often an optimistic read is tried, and how many
entries a snapshot copies at a time. Each is positive in all settings that the functions of
this module make.
-/

namespace LiveSeries

/-- The settings of one series. -/
structure Settings where
  /-- In nanoseconds. -/
  lockTimeout : Nat := 1000000000
  readTries : Nat := 1024
  pageSize : Nat := 4096
  deriving DecidableEq, Repr, Inhabited

/-- The names of the settings, in the order in which a document is checked. -/
inductive Setting where
  | lockTimeout
  | readTries
  | pageSize
  deriving DecidableEq, Repr

/-- The name of a setting in a document; the timeout is written in milliseconds there. -/
def Setting.name : Setting → String
  | .lockTimeout => "lock_timeout_ms"
  | .readTries => "read_retry_limit"
  | .pageSize => "snapshot_chunk"

/-- The setting with a name. -/
def Setting.ofName? (name : String) : Option Setting :=
  [lockTimeout, readTries, pageSize].find? fun s => s.name == name

/-- The greatest number a document may give for a setting. -/
def Setting.greatest : Setting → Nat
  | .readTries => 0xffffffff
  | .lockTimeout | .pageSize => 0xffffffffffffffff

namespace Settings

/-- Changes a setting, with the timeout in nanoseconds; zero is a fault. -/
def change (c : Settings) (setting : Setting) (n : Nat) : Except Fault Settings :=
  match setting with
  | .lockTimeout => if n = 0 then .error .lockTimeoutZero else .ok { c with lockTimeout := n }
  | .readTries =>
    if n = 0 then .error .readTriesZero else .ok { c with readTries := n }
  | .pageSize =>
    if n = 0 then .error .pageSizeZero else .ok { c with pageSize := n }

/-- Changes settings one after the other, from the default. -/
def ofChanges (changes : List (Setting × Nat)) : Except Fault Settings :=
  changes.foldlM (fun c (setting, n) => c.change setting n) {}

end Settings

end LiveSeries
