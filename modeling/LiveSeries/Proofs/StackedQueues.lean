import LiveSeries.Proofs.LoadReplay
import Mathlib.Logic.Function.Basic

/-!
# Stacked load queues

Load queues stack, and each level keeps, sorts and relaxes the commands once more. All the same a
stack loads like one queue, in whatever order its queues are finished (`stacked_load_collapses`).

While some queues of a stack are still loading, the outermost of those keeps all commands, and the
others keep none (`holding`). To finish one of the others does nothing (`finish_behind`). To finish
the outermost one hands everything to the next one that is loading (`finish_outermost`), sorted and
relaxed, which a later replay would have done anyway (`replayOrder_replayOrder`). So one call is left
that reaches what is behind the stack, and it is the last one, wherever in the stack it takes place.
-/

namespace LiveSeries

/-- So many load queues, the outermost first, and the state behind them. -/
abbrev QueueStack (σ : Type) : Nat → Type
  | 0 => σ
  | depth + 1 => LoadQueue × QueueStack σ depth

namespace LoadQueue

/-! ## Replaying what was replayed -/

theorem relax_relax (c : StampedCommand) : relax (relax c) = relax c := by
  obtain ⟨series, version, command⟩ := c
  cases command <;> rfl

theorem series_relax (c : StampedCommand) : (relax c).series = c.series := by
  obtain ⟨series, version, command⟩ := c
  cases command <;> rfl

theorem series_of_mem_replayOrder {id : Nat} {kept : List StampedCommand}
    (hid : ∀ c ∈ kept, c.series = id) : ∀ c ∈ replayOrder kept, c.series = id := by
  intro c hc
  rw [replayOrder_eq] at hc
  obtain ⟨d, hd, rfl⟩ := List.mem_map.mp hc
  rw [series_relax]
  exact hid d ((sorted_perm kept).subset hd)

/-- Commands in the order of a replay are replayed as they are. -/
theorem replayOrder_replayOrder (kept : List StampedCommand) :
    replayOrder (replayOrder kept) = replayOrder kept := by
  have hordered : Ordered (replayOrder kept) := by
    rw [replayOrder_eq, Ordered, List.pairwise_map]
    simp only [version_relax]
    exact ordered_sorted kept
  have hsorted : sorted (replayOrder kept) = replayOrder kept :=
    List.mergeSort_of_pairwise (hordered.imp fun h => decide_eq_true h)
  have hrelaxed : (replayOrder kept).map relax = replayOrder kept := by
    rw [replayOrder_eq, List.map_map]
    exact List.map_congr_left fun c _ => relax_relax c
  rw [replayOrder_eq (replayOrder kept), hsorted, hrelaxed]

end LoadQueue

namespace QueueStack

open LoadQueue

variable {σ : Type}

/-- A stack takes its commands through the outermost queue. -/
def consumer (inner : Consumer σ) : (depth : Nat) → Consumer (QueueStack σ depth)
  | 0 => inner
  | depth + 1 => LoadQueue.consumer (consumer inner depth)

/-- Finishes the load of the queue at a place, where the innermost queue has place zero. -/
def finish (inner : Consumer σ) :
    (depth : Nat) → Nat → QueueStack σ depth → Except Failure Nat × QueueStack σ depth
  | 0, _, s => (.ok 0, s)
  | depth + 1, place, (q, behind) =>
    if place = depth then LoadQueue.finish (consumer inner depth) q behind
    else
      let (answer, behind) := finish inner depth place behind
      (answer, q, behind)

/-- Finishes the loads of the queues at the given places, one after the other. -/
def finishAll (inner : Consumer σ) (depth : Nat) :
    List Nat → QueueStack σ depth → List (Except Failure Nat) × QueueStack σ depth
  | [], stack => ([], stack)
  | place :: order, stack =>
    let (answer, stack) := finish inner depth place stack
    let (answers, stack) := finishAll inner depth order stack
    (answer :: answers, stack)

/-- The state behind all queues. -/
def base : (depth : Nat) → QueueStack σ depth → σ
  | 0, s => s
  | depth + 1, (_, behind) => base depth behind

/-- The stack of queues of one series that keep what is pending at their places. -/
def ofPending (id : Nat) (s : σ) (pending : Nat → Option (List StampedCommand)) :
    (depth : Nat) → QueueStack σ depth
  | 0 => s
  | depth + 1 => (⟨id, pending depth⟩, ofPending id s pending depth)

/-! ## Stacks by their places -/

section Places

variable (inner : Consumer σ) {id : Nat} {s : σ} {depth : Nat}
  {pending : Nat → Option (List StampedCommand)}

theorem base_ofPending : base depth (ofPending id s pending depth) = s := by
  induction depth with
  | zero => rfl
  | succ depth ih => exact ih

theorem ofPending_congr {pending' : Nat → Option (List StampedCommand)}
    (h : ∀ p < depth, pending p = pending' p) :
    ofPending id s pending depth = ofPending id s pending' depth := by
  induction depth with
  | zero => rfl
  | succ depth ih =>
      have hbehind := ih fun p hp => h p (Nat.lt_succ_of_lt hp)
      rw [ofPending, ofPending, h depth (Nat.lt_succ_self depth), hbehind]

/-- A stack whose loads are all finished hands its commands on. -/
theorem consumer_of_live (hlive : ∀ p < depth, pending p = none) {c : StampedCommand}
    (hc : c.series = id) :
    consumer inner depth c (ofPending id s pending depth) =
      ((inner c s).1, ofPending id (inner c s).2 pending depth) := by
  induction depth with
  | zero => rfl
  | succ depth ih =>
      have hhead := LoadQueue.consumer_of_live (consumer inner depth)
        (q := ⟨id, pending depth⟩) (hlive depth (Nat.lt_succ_self depth)) hc
      rw [consumer, ofPending, hhead, ih fun p hp => hlive p (Nat.lt_succ_of_lt hp)]
      rfl

/-- A command is kept by the outermost queue that is loading. -/
theorem consumer_of_loading {m : Nat} (hm : m < depth) {kept : List StampedCommand}
    (hkept : pending m = some kept) (hlive : ∀ p < depth, m < p → pending p = none)
    {c : StampedCommand} (hc : c.series = id) :
    consumer inner depth c (ofPending id s pending depth) =
      (.ok .queued, ofPending id s (Function.update pending m (some (kept ++ [c]))) depth) := by
  induction depth with
  | zero => omega
  | succ depth ih =>
      by_cases hhere : m = depth
      · subst hhere
        have hbehind : ofPending id s (Function.update pending m (some (kept ++ [c]))) m =
            ofPending id s pending m :=
          ofPending_congr fun p hp => Function.update_of_ne (Nat.ne_of_lt hp) _ _
        rw [consumer, ofPending, ofPending, hbehind, Function.update_self, hkept]
        exact LoadQueue.consumer_of_loading _ hc kept _
      · have hbelow : m < depth := by omega
        have hhead := LoadQueue.consumer_of_live (consumer inner depth)
          (q := ⟨id, pending depth⟩) (hlive depth (Nat.lt_succ_self depth) hbelow) hc
        have hsame : Function.update pending m (some (kept ++ [c])) depth = pending depth :=
          Function.update_of_ne (Ne.symm hhere) _ _
        rw [consumer, ofPending, hhead, ofPending, hsame,
          ih hbelow fun p hp => hlive p (Nat.lt_succ_of_lt hp)]

/-- A replay into a stack whose loads are all finished is a replay into what is behind it. -/
theorem replay_of_live (hlive : ∀ p < depth, pending p = none) {commands : List StampedCommand}
    (hid : ∀ c ∈ commands, c.series = id) (count : Nat) :
    replay (consumer inner depth) commands count (ofPending id s pending depth) =
      ((replay inner commands count s).1,
        ofPending id (replay inner commands count s).2 pending depth) := by
  induction commands generalizing count s with
  | nil => rfl
  | cons c rest ih =>
      have hc := consumer_of_live inner (s := s) hlive (hid c List.mem_cons_self)
      have hrest := fun s count => ih (s := s) (fun d hd => hid d (List.mem_cons_of_mem _ hd)) count
      rw [replay, replay, hc]
      generalize inner c s = step
      obtain ⟨answer, s'⟩ := step
      cases answer with
      | error e => rfl
      | ok o => cases o <;> exact hrest s' _

/-- A replay into a stack adds to what its outermost loading queue keeps. -/
theorem replay_of_loading {m : Nat} (hm : m < depth) {commands kept : List StampedCommand}
    (hkept : pending m = some kept) (hlive : ∀ p < depth, m < p → pending p = none)
    (hid : ∀ c ∈ commands, c.series = id) (count : Nat) :
    replay (consumer inner depth) commands count (ofPending id s pending depth) =
      (.ok count, ofPending id s (Function.update pending m (some (kept ++ commands))) depth) := by
  induction commands generalizing kept pending with
  | nil =>
      rw [List.append_nil, ← hkept, Function.update_eq_self]
      rfl
  | cons c rest ih =>
      have hc := consumer_of_loading inner (s := s) hm hkept hlive
        (hid c List.mem_cons_self)
      have hlive' : ∀ p < depth, m < p →
          Function.update pending m (some (kept ++ [c])) p = none := by
        intro p hp hmp
        rw [Function.update_of_ne (Nat.ne_of_gt hmp)]
        exact hlive p hp hmp
      have hrest := ih (Function.update_self _ _ _) hlive'
        fun d hd => hid d (List.mem_cons_of_mem _ hd)
      rw [Function.update_idem, List.append_assoc, List.singleton_append] at hrest
      rw [replay_cons_of_ok hc]
      exact hrest

/-- The queue that is finished replays what it kept into the queues behind it. The queues in front
of it are not touched. -/
theorem finish_ofPending {place : Nat} (hplace : place < depth) {kept : List StampedCommand}
    (hkept : pending place = some kept) {answer : Except Failure Nat} {s' : σ}
    {pending' : Nat → Option (List StampedCommand)}
    (hreplay : replay (consumer inner place) (replayOrder kept) 0 (ofPending id s pending place) =
      (answer, ofPending id s' pending' place))
    (hhere : pending' place = none) (hfront : ∀ p < depth, place < p → pending p = pending' p) :
    finish inner depth place (ofPending id s pending depth) =
      (answer, ofPending id s' pending' depth) := by
  induction depth with
  | zero => omega
  | succ depth ih =>
      by_cases hlast : place = depth
      · subst hlast
        rw [ofPending, finish, if_pos rfl, LoadQueue.finish, hkept, ofPending, hhere]
        simp only [hreplay]
      · have hbelow : place < depth := by omega
        have hbehind := ih hbelow fun p hp => hfront p (Nat.lt_succ_of_lt hp)
        rw [ofPending, finish, if_neg hlast, hbehind, ofPending,
          hfront depth (Nat.lt_succ_self depth) hbelow]

end Places

/-! ## The queue that keeps the commands -/

/-- What the queues of a stack keep while those at the given places are loading: the outermost of
them keeps the commands. -/
def holding (loading : List Nat) (kept : List StampedCommand) (place : Nat) :
    Option (List StampedCommand) :=
  if place ∈ loading then some (if ∀ p ∈ loading, p ≤ place then kept else []) else none

section Holding

variable {loading : List Nat} {kept : List StampedCommand} {place m : Nat}

theorem holding_of_not_mem (h : place ∉ loading) : holding loading kept place = none :=
  if_neg h

theorem holding_outermost (hm : m ∈ loading) (hmax : ∀ p ∈ loading, p ≤ m) :
    holding loading kept m = some kept := by
  rw [holding, if_pos hm, if_pos hmax]

theorem holding_behind (hplace : place ∈ loading) (hm : m ∈ loading) (h : place < m) :
    holding loading kept place = some [] := by
  have hnot : ¬ ∀ p ∈ loading, p ≤ place := fun hall => Nat.not_le.mpr h (hall m hm)
  rw [holding, if_pos hplace, if_neg hnot]

theorem exists_outermost (h : loading ≠ []) : ∃ m ∈ loading, ∀ p ∈ loading, p ≤ m := by
  obtain ⟨m, hm⟩ := Option.isSome_iff_exists.mp (List.isSome_max?_of_ne_nil h)
  exact ⟨m, List.max?_eq_some_iff.mp hm⟩

/-- A queue behind the one that keeps the commands is finished, and nothing else changes. -/
theorem holding_cons_of_lt (hm : m ∈ loading) (hplace : place < m) {p : Nat} (hp : p ≠ place) :
    holding (place :: loading) kept p = holding loading kept p := by
  have hmem : p ∈ place :: loading ↔ p ∈ loading := by simp [hp]
  have hmax : (∀ q ∈ place :: loading, q ≤ p) ↔ ∀ q ∈ loading, q ≤ p := by
    rw [List.forall_mem_cons]
    refine ⟨fun h => h.2, fun h => ⟨?_, h⟩⟩
    exact Nat.le_trans (Nat.le_of_lt hplace) (h m hm)
  simp only [holding, hmem, hmax]

/-- The queue that keeps the commands is finished, and the next one that is loading, which kept
nothing so far, gets them. -/
theorem update_holding_cons (hm : m ∈ loading) (hmax : ∀ p ∈ loading, p ≤ m) (hplace : m < place)
    {kept' : List StampedCommand} {p : Nat} (hp : p ≠ place) :
    Function.update (holding (place :: loading) kept) m (some kept') p =
      holding loading kept' p := by
  by_cases hpm : p = m
  · subst hpm
    rw [Function.update_self, holding_outermost hm hmax]
  · rw [Function.update_of_ne hpm]
    by_cases hloading : p ∈ loading
    · have hlt : p < m := Nat.lt_of_le_of_ne (hmax p hloading) hpm
      rw [holding_behind (List.mem_cons_of_mem _ hloading) List.mem_cons_self
        (Nat.lt_trans hlt hplace), holding_behind hloading hm hlt]
    · rw [holding_of_not_mem hloading, holding_of_not_mem (by simp [hp, hloading])]

end Holding

/-! ## Finishing the queues -/

section Finishing

variable (inner : Consumer σ) {id depth : Nat} {s : σ} {kept : List StampedCommand}

theorem finishAll_append (a b : List Nat) (stack : QueueStack σ depth) :
    finishAll inner depth (a ++ b) stack =
      ((finishAll inner depth a stack).1 ++
          (finishAll inner depth b (finishAll inner depth a stack).2).1,
        (finishAll inner depth b (finishAll inner depth a stack).2).2) := by
  induction a generalizing stack with
  | nil => rfl
  | cons place rest ih => simp only [List.cons_append, finishAll, ih]

/-- A queue behind the one that keeps the commands has nothing to replay. -/
theorem finish_behind {place m : Nat} {loading : List Nat} (hplace : place ∉ loading)
    (hbelow : place < depth) (hm : m ∈ loading) (hlt : place < m) :
    finish inner depth place (ofPending id s (holding (place :: loading) kept) depth) =
      (.ok 0, ofPending id s (holding loading kept) depth) := by
  have hsame : ∀ p, p ≠ place → holding (place :: loading) kept p = holding loading kept p :=
    fun p hp => holding_cons_of_lt hm hlt hp
  have hkept : holding (place :: loading) kept place = some [] :=
    holding_behind List.mem_cons_self (List.mem_cons_of_mem _ hm) hlt
  refine finish_ofPending inner hbelow hkept ?_ (holding_of_not_mem hplace)
    fun p _ hp => hsame p (Nat.ne_of_gt hp)
  rw [ofPending_congr fun p hp => hsame p (Nat.ne_of_lt hp)]
  simp [replayOrder, replay]

/-- The queue that keeps the commands replays them into the next one that is loading. -/
theorem finish_outermost {place m : Nat} {loading : List Nat} (hplace : place ∉ loading)
    (hbelow : place < depth) (hm : m ∈ loading) (hmax : ∀ p ∈ loading, p ≤ m) (hlt : m < place)
    (hid : ∀ c ∈ kept, c.series = id) :
    finish inner depth place (ofPending id s (holding (place :: loading) kept) depth) =
      (.ok 0, ofPending id s (holding loading (replayOrder kept)) depth) := by
  have hkept : holding (place :: loading) kept place = some kept := by
    refine holding_outermost List.mem_cons_self ?_
    rw [List.forall_mem_cons]
    exact ⟨Nat.le_refl _, fun p hp => Nat.le_trans (hmax p hp) (Nat.le_of_lt hlt)⟩
  have hnext : holding (place :: loading) kept m = some [] :=
    holding_behind (List.mem_cons_of_mem _ hm) List.mem_cons_self hlt
  have hlive : ∀ p < place, m < p → holding (place :: loading) kept p = none := by
    intro p hp hmp
    refine holding_of_not_mem fun hmem => ?_
    rcases List.mem_cons.mp hmem with rfl | hmem
    · exact Nat.lt_irrefl _ hp
    · exact Nat.not_le.mpr hmp (hmax p hmem)
  have hmoved : ∀ p, p ≠ place →
      Function.update (holding (place :: loading) kept) m (some ([] ++ replayOrder kept)) p =
        holding loading (replayOrder kept) p :=
    fun p hp => update_holding_cons hm hmax hlt hp
  refine finish_ofPending inner hbelow hkept ?_ (holding_of_not_mem hplace) fun p _ hp => ?_
  · rw [replay_of_loading inner hlt hnext hlive (series_of_mem_replayOrder hid),
      ofPending_congr fun p hp => hmoved p (Nat.ne_of_lt hp)]
  · have hne : p ≠ m := Nat.ne_of_gt (Nat.lt_trans hlt hp)
    rw [← hmoved p (Nat.ne_of_gt hp), Function.update_of_ne hne]

/-- While another queue is loading, finishing one reaches nothing behind the stack. The commands
that are kept afterwards are replayed like those before. -/
theorem finish_holding {place : Nat} {loading : List Nat} (hplace : place ∉ loading)
    (hbelow : place < depth) (hloading : loading ≠ []) (hid : ∀ c ∈ kept, c.series = id) :
    ∃ kept', replayOrder kept' = replayOrder kept ∧ (∀ c ∈ kept', c.series = id) ∧
      finish inner depth place (ofPending id s (holding (place :: loading) kept) depth) =
        (.ok 0, ofPending id s (holding loading kept') depth) := by
  obtain ⟨m, hm, hmax⟩ := exists_outermost hloading
  have hne : m ≠ place := fun h => hplace (h ▸ hm)
  rcases Nat.lt_or_gt_of_ne hne with hlt | hgt
  · exact ⟨replayOrder kept, replayOrder_replayOrder kept, series_of_mem_replayOrder hid,
      finish_outermost inner hplace hbelow hm hmax hlt hid⟩
  · exact ⟨kept, rfl, hid, finish_behind inner hplace hbelow hm hgt⟩

/-- The queue that is finished last replays the commands into what is behind the stack. -/
theorem finish_holding_last {last : Nat} (hlast : last < depth)
    (hid : ∀ c ∈ kept, c.series = id) :
    finish inner depth last (ofPending id s (holding [last] kept) depth) =
      ((replay inner (replayOrder kept) 0 s).1,
        ofPending id (replay inner (replayOrder kept) 0 s).2 (fun _ => none) depth) := by
  have hlive : ∀ p, p ≠ last → holding [last] kept p = none :=
    fun p hp => holding_of_not_mem (by simp [hp])
  have hkept : holding [last] kept last = some kept :=
    holding_outermost List.mem_cons_self (by simp)
  refine finish_ofPending inner hlast hkept ?_ rfl fun p _ hp => hlive p (Nat.ne_of_gt hp)
  rw [replay_of_live inner (fun p hp => hlive p (Nat.ne_of_lt hp)) (series_of_mem_replayOrder hid),
    ofPending_congr fun p hp => hlive p (Nat.ne_of_lt hp)]

/-- As long as a queue is left that is loading, whatever was finished so far reached nothing behind
the stack. -/
theorem finishAll_holding {done loading : List Nat} (hnodup : (done ++ loading).Nodup)
    (hbelow : ∀ p ∈ done ++ loading, p < depth) (hloading : loading ≠ [])
    (hid : ∀ c ∈ kept, c.series = id) :
    ∃ kept', replayOrder kept' = replayOrder kept ∧ (∀ c ∈ kept', c.series = id) ∧
      finishAll inner depth done (ofPending id s (holding (done ++ loading) kept) depth) =
        (done.map fun _ => .ok 0, ofPending id s (holding loading kept') depth) := by
  induction done generalizing kept with
  | nil => exact ⟨kept, rfl, hid, rfl⟩
  | cons place rest ih =>
      rw [List.cons_append] at hnodup hbelow ⊢
      obtain ⟨hplace, hrest⟩ := List.nodup_cons.mp hnodup
      obtain ⟨kept₁, horder₁, hid₁, hstep⟩ := finish_holding inner (s := s) hplace
        (hbelow place List.mem_cons_self) (List.append_ne_nil_of_right_ne_nil rest hloading) hid
      obtain ⟨kept₂, horder₂, hid₂, hrun⟩ :=
        ih hrest (fun p hp => hbelow p (List.mem_cons_of_mem _ hp)) hid₁
      refine ⟨kept₂, horder₂.trans horder₁, hid₂, ?_⟩
      simp only [finishAll, hstep, hrun, List.map_cons]

/-- The commands sent to a stack that is loading wait in the outermost queue. -/
theorem feed_of_loading {commands : List StampedCommand}
    (hid : ∀ c ∈ commands, c.series = id) (hdepth : 0 < depth) {loading : List Nat}
    (hall : ∀ p, p ∈ loading ↔ p < depth) :
    ((consumer inner depth).feed commands (ofPending id s (fun _ => some []) depth)).2 =
      ofPending id s (holding loading commands) depth := by
  obtain ⟨last, rfl⟩ := Nat.exists_eq_succ_of_ne_zero (Nat.ne_of_gt hdepth)
  have hlast : last ∈ loading := (hall last).mpr (Nat.lt_succ_self last)
  have houtermost : holding loading commands last = some commands :=
    holding_outermost hlast fun p hp => Nat.le_of_lt_succ ((hall p).mp hp)
  have hbehind : ofPending id s (fun _ => some []) last =
      ofPending id s (holding loading commands) last := by
    refine ofPending_congr fun p hp => (holding_behind ?_ hlast hp).symm
    exact (hall p).mpr (Nat.lt_succ_of_lt hp)
  rw [consumer, ofPending, LoadQueue.feed_of_loading _ hid, List.nil_append, hbehind,
    ofPending, houtermost]

end Finishing

/-- A stack of queues of one series loads like one queue. In whatever order its queues are finished,
the last call replays what was sent to the outermost one, with the answer and the effect that one
queue would have. All calls before it answer that nothing took effect, and do not reach what is
behind the stack. -/
theorem stacked_load_collapses (inner : Consumer σ) {id : Nat} {commands : List StampedCommand}
    (hid : ∀ c ∈ commands, c.series = id) {depth : Nat} (hdepth : 0 < depth) {order : List Nat}
    (horder : order.Perm (List.range depth)) (s : σ) :
    finishAll inner depth order
        ((consumer inner depth).feed commands (ofPending id s (fun _ => some []) depth)).2 =
      (order.dropLast.map (fun _ => .ok 0) ++ [(load inner id commands s).1],
        ofPending id (load inner id commands s).2.2 (fun _ => none) depth) ∧
    ∀ done, done <+: order.dropLast →
      base depth (finishAll inner depth done
        ((consumer inner depth).feed commands (ofPending id s (fun _ => some []) depth)).2).2 =
          s := by
  have hall : ∀ p, p ∈ order ↔ p < depth := fun p => horder.mem_iff.trans List.mem_range
  have hnodup : order.Nodup := horder.nodup_iff.mpr List.nodup_range
  rw [feed_of_loading inner hid hdepth hall]
  rcases List.eq_nil_or_concat order with rfl | ⟨earlier, last, heq⟩
  · exact absurd ((hall 0).mpr hdepth) List.not_mem_nil
  rw [List.concat_eq_append] at heq
  subst heq
  have hbelow : ∀ p ∈ earlier ++ [last], p < depth := fun p hp => (hall p).mp hp
  have hlast : [last] ≠ [] := List.cons_ne_nil last []
  rw [List.dropLast_concat]
  constructor
  · obtain ⟨kept, hkept, hid', hrun⟩ := finishAll_holding inner (s := s) hnodup hbelow hlast hid
    have hfinal := finish_holding_last inner (s := s) (hbelow last List.mem_concat_self) hid'
    rw [finishAll_append, hrun, load_eq inner hid, ← hkept]
    simp only [finishAll, hfinal]
  · -- a queue is left after any of the earlier calls
    rintro done ⟨rest, rfl⟩
    rw [List.append_assoc] at hnodup hbelow ⊢
    obtain ⟨kept, -, -, hrun⟩ := finishAll_holding inner (s := s) hnodup hbelow
      (List.append_ne_nil_of_right_ne_nil rest hlast) hid
    rw [hrun, base_ofPending]

/-- An entry, and an append that contradicts it, which arrives first. -/
def clashing : List StampedCommand :=
  [⟨0, 2, .append [(.int 1, .int 11)] .reject⟩, ⟨0, 1, .set (.int 1) (.int 10)⟩]

theorem stacked_load_collapses_outermost_first :
    finishAll Series.consumer 3 [2, 0, 1] ((consumer Series.consumer 3).feed clashing
        (ofPending 0 {} (fun _ => some []) 3)).2 =
      ([.ok 0, .ok 0, .error (.refused .overlap)],
        ofPending 0 (load Series.consumer 0 clashing {}).2.2 (fun _ => none) 3) := by
  have hid : ∀ c ∈ clashing, c.series = 0 := by simp [clashing]
  have hsorted : sorted clashing =
      [⟨0, 1, .set (.int 1) (.int 10)⟩, ⟨0, 2, .append [(.int 1, .int 11)] .reject⟩] := by
    simp [sorted, clashing, List.mergeSort, List.MergeSort.Internal.splitInTwo]
  have hfails : (load Series.consumer 0 clashing {}).1 = .error (.refused .overlap) := by
    rw [load_eq _ hid, replayOrder_eq, hsorted]
    rfl
  have hdepth : 0 < 3 := by decide
  have horder : [2, 0, 1].Perm (List.range 3) := by decide
  rw [(stacked_load_collapses Series.consumer hid hdepth horder {}).1, hfails]
  rfl

end QueueStack

end LiveSeries
