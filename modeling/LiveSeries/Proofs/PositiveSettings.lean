import LiveSeries.Settings.Document

/-!
# Settings that come about

Settings are the default, or they are read from a document, or a setting of others was changed. A
document is read with a zero refused (`Settings.ofNumbers`), and a change to zero is a fault; so
all settings that come about are positive, and there are no other positive ones: three changes lead
to any of them (`Settings.obtainable_iff_positive`).
-/

namespace LiveSeries

namespace Settings

/-- Settings from the numbers of a document, whatever reader found them. -/
def ofNumbers (given : List (Setting × Nat)) : Except DocumentError Settings := do
  let timeout ← checked given .lockTimeout 1000
  let retries ← checked given .readTries 1024
  let chunk ← checked given .pageSize 4096
  return ⟨timeout * 1000000, retries, chunk⟩

theorem ofDocument_eq (text : String) :
    ofDocument text =
      match (Document.bindings? text).bind numbers? with
      | none => .error .malformed
      | some given => ofNumbers given :=
  rfl

/-- The settings that come about. -/
inductive Obtainable : Settings → Prop where
  | default : Obtainable {}
  | numbers {given : List (Setting × Nat)} {c : Settings} (read : ofNumbers given = .ok c) :
      Obtainable c
  | change {c c' : Settings} {setting : Setting} {n : Nat}
      (changed : c.change setting n = .ok c') : Obtainable c → Obtainable c'

/-- No setting is zero. -/
structure Positive (c : Settings) : Prop where
  lockTimeout : 0 < c.lockTimeout
  readTries : 0 < c.readTries
  pageSize : 0 < c.pageSize

theorem positive_default : ({} : Settings).Positive := ⟨by decide, by decide, by decide⟩

theorem Positive.change {c c' : Settings} {setting : Setting} {n : Nat} (hc : c.Positive)
    (h : c.change setting n = .ok c') : c'.Positive := by
  cases setting <;> simp only [Settings.change] at h <;> split at h <;> cases h
  · next hn => exact { hc with lockTimeout := Nat.pos_of_ne_zero hn }
  · next hn => exact { hc with readTries := Nat.pos_of_ne_zero hn }
  · next hn => exact { hc with pageSize := Nat.pos_of_ne_zero hn }

/-! ## Documents -/

theorem checked_pos {given : List (Setting × Nat)} {setting : Setting} {otherwise n : Nat}
    (hotherwise : 0 < otherwise) (h : checked given setting otherwise = .ok n) : 0 < n := by
  unfold checked at h
  split at h
  · cases h
    exact hotherwise
  · cases h
  · next m hm _ =>
      cases h
      exact Nat.pos_of_ne_zero hm

theorem positive_ofNumbers {given : List (Setting × Nat)} {c : Settings}
    (h : ofNumbers given = .ok c) : c.Positive := by
  obtain ⟨timeout, htimeout, h⟩ := bind_eq_ok_iff.mp h
  obtain ⟨retries, hretries, h⟩ := bind_eq_ok_iff.mp h
  obtain ⟨chunk, hchunk, h⟩ := bind_eq_ok_iff.mp h
  cases h
  exact {
    lockTimeout := Nat.mul_pos (checked_pos (by decide) htimeout) (by decide)
    readTries := checked_pos (by decide) hretries
    pageSize := checked_pos (by decide) hchunk }

/-- What is read from a document came about from the numbers in it. -/
theorem obtainable_ofDocument {text : String} {c : Settings} (h : ofDocument text = .ok c) :
    c.Obtainable := by
  rw [ofDocument_eq] at h
  split at h
  · cases h
  · exact .numbers h

/-! ## Changes -/

theorem Obtainable.changes {c c' : Settings} (hc : c.Obtainable) {changes : List (Setting × Nat)}
    (h : changes.foldlM (fun (c : Settings) (change : Setting × Nat) => c.change change.1 change.2)
      c = .ok c') : c'.Obtainable := by
  induction changes generalizing c with
  | nil =>
      cases h
      exact hc
  | cons x rest ih =>
      rw [List.foldlM_cons] at h
      obtain ⟨d, hd, h⟩ := bind_eq_ok_iff.mp h
      exact ih (hc.change hd) h

theorem obtainable_ofChanges {changes : List (Setting × Nat)} {c : Settings}
    (h : ofChanges changes = .ok c) : c.Obtainable :=
  Obtainable.default.changes h

theorem Obtainable.positive {c : Settings} (h : c.Obtainable) : c.Positive := by
  induction h with
  | default => exact positive_default
  | numbers read => exact positive_ofNumbers read
  | change changed _ ih => exact ih.change changed

/-- Positive settings come about by changes from the default. -/
theorem Positive.ofChanges {c : Settings} (h : c.Positive) :
    Settings.ofChanges
      [(.lockTimeout, c.lockTimeout), (.readTries, c.readTries), (.pageSize, c.pageSize)] =
        .ok c := by
  simp only [Settings.ofChanges, Settings.change, List.foldlM_cons, List.foldlM_nil,
    if_neg (Nat.ne_of_gt h.lockTimeout), if_neg (Nat.ne_of_gt h.readTries),
    if_neg (Nat.ne_of_gt h.pageSize)]
  rfl

/-- The settings that come about are the positive ones. -/
theorem obtainable_iff_positive (c : Settings) : c.Obtainable ↔ c.Positive :=
  ⟨Obtainable.positive, fun h => obtainable_ofChanges h.ofChanges⟩

end Settings

end LiveSeries
