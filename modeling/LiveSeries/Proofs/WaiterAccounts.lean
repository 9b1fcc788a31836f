import Mathlib.Data.List.Nodup
import LiveSeries.Proofs.FollowerRounds
import LiveSeries.Proofs.PolledSources

/-!
# The accounts of waiters

A follower that waits has one subscription on each series of its tree, however often the series
occurs there, or none at all (`Tree.Accounts`). The registry refuses a target that is subscribed
already; the set is asked first, so the follower is never refused (`Follower.Accounted.watch`).

Whatever the follower does it does to its own records: those of all other targets are as they were
(`Hub.SameOthers`). This holds of every attempt to end a wait, also of one that faults halfway
(`Follower.Accounted.start`, `Follower.Accounted.poll`).
-/

namespace LiveSeries

/-! ## The records of the others -/

namespace Registry

/-- The records of all other targets. -/
def others (r : Registry) (w : TargetId) : List Subscriber :=
  r.records.filter fun s => s.target != w

/-- The number is not that of a subscription of another target. -/
def Owns (r : Registry) (id : Nat) (w : TargetId) : Prop := ∀ t, r.Keeps id t → t = w

theorem owns_of_keeps {r : Registry} (hr : r.WellFormed) {id : Nat} {w : TargetId}
    (h : r.Keeps id w) : r.Owns id w := by
  obtain ⟨n, hn⟩ := h
  rintro t ⟨m, hm⟩
  have hsame := List.inj_on_of_nodup_map hr.ids hm hn rfl
  exact congrArg Subscriber.target hsame

theorem owns_unsubscribe {r : Registry} {id i : Nat} {w : TargetId} (h : r.Owns id w) :
    (r.unsubscribe i).Owns id w := fun t ht => h t (keeps_unsubscribe.mp ht).1

theorem OnlyRequests.owns {r r' : Registry} (hsame : OnlyRequests r r') {id : Nat} {w : TargetId}
    (h : r.Owns id w) : r'.Owns id w := fun t ht => h t (hsame.keeps_iff.mp ht)

theorem others_subscribe {r r' : Registry} {w : TargetId} {id : Nat}
    (h : r.subscribe w = .ok (id, r')) : r'.others w = r.others w := by
  simp [others, records_subscribe h]

theorem others_unsubscribe {r : Registry} {id : Nat} {w : TargetId} (h : r.Owns id w) :
    (r.unsubscribe id).others w = r.others w := by
  rw [others, others, records_unsubscribe, List.filter_filter]
  refine List.filter_congr fun s hs => ?_
  by_cases hid : s.id = id
  · simp [h s.target ⟨s.requests, hid ▸ hs⟩]
  · simp [hid]

theorem others_request {r : Registry} {id : Nat} {w : TargetId} (h : r.Owns id w) (n : Nat) :
    (r.request id n).others w = r.others w := by
  have htarget : ∀ s : Subscriber,
      (if s.id = id then { s with requests := s.requests + n } else s).target = s.target := by
    intro s
    split <;> rfl
  simp only [others, records_request, List.filter_map, Function.comp_def, htarget]
  refine (List.map_congr_left fun s hs => ?_).trans (List.map_id _)
  obtain ⟨hmem, hother⟩ := List.mem_filter.mp hs
  -- the record that was asked belongs to the waiter, and is not among these
  have hne : s.id ≠ id := fun hid => bne_iff_ne.mp hother (h s.target ⟨s.requests, hid ▸ hmem⟩)
  rw [if_neg hne]
  rfl

/-- A target has one record if it is subscribed, and else none. -/
theorem size_eq {r : Registry} (hr : r.WellFormed) (w : TargetId) :
    r.size = (r.others w).length + (r.holds w).toNat := by
  have hown : r.records.countP (fun s => s.target == w) = (r.holds w).toNat := by
    have hcount : r.records.countP (fun s => s.target == w) = (r.records.map (·.target)).count w := by
      rw [List.count, List.countP_map]
      rfl
    rw [hcount]
    cases hholds : r.holds w with
    | true =>
        obtain ⟨id, n, hn⟩ := holds_iff.mp hholds
        exact List.count_eq_one_of_mem hr.targets (List.mem_map_of_mem hn)
    | false =>
        refine List.count_eq_zero.mpr fun hmem => ?_
        obtain ⟨s, hs, rfl⟩ := List.mem_map.mp hmem
        rw [holds_iff.mpr ⟨s.id, s.requests, hs⟩] at hholds
        cases hholds
  rw [List.countP_eq_length_filter] at hown
  rw [size, List.length_eq_length_filter_add fun s => s.target == w, hown, Nat.add_comm]
  rfl

end Registry

namespace Hub

/-- On every series the records of all other targets are as they were, and no number passed to
another target. -/
structure SameOthers (h h' : Hub) (w : TargetId) : Prop where
  others : ∀ id, (h'.sources id).registry.others w = (h.sources id).registry.others w
  owns : ∀ id n, (h.sources id).registry.Owns n w → (h'.sources id).registry.Owns n w

section SameOthers

variable {h h' h'' : Hub} {w : TargetId}

theorem SameOthers.trans (a : h.SameOthers h' w) (b : h'.SameOthers h'' w) : h.SameOthers h'' w :=
  ⟨fun id => (b.others id).trans (a.others id), fun id n hn => b.owns id n (a.owns id n hn)⟩

theorem sameOthers_of_series (hseries : h'.series = h.series) : h.SameOthers h' w := by
  have hsources : h'.sources = h.sources := by
    unfold sources
    rw [hseries]
  exact ⟨fun id => by rw [hsources], fun id n hn => by rwa [hsources]⟩

theorem sameOthers_subscribe (h : Hub) (rid : RegistryId) (w : TargetId) :
    h.SameOthers (h.subscribe rid w).2 w := by
  constructor
  · intro id
    rcases h.registry_subscribe rid w id with hsame | ⟨n, hn⟩
    · rw [hsame]
    · exact Registry.others_subscribe hn
  · intro id n hn
    rcases h.registry_subscribe rid w id with hsame | ⟨m, hm⟩
    · rwa [hsame]
    · intro t ht
      rcases (Registry.keeps_subscribe hm).mp ht with ht | ⟨-, rfl⟩
      · exact hn t ht
      · rfl

/-- The subscriptions of the set belong to the waiter, or to nobody. -/
def Owned (h : Hub) (w : TargetId) (set : Subscriptions) : Prop :=
  ∀ s ∈ set, ∀ id, s.registry = .ofSeries id → (h.sources id).registry.Owns s.record w

theorem Watching.owned {set : Subscriptions} (hw : h.Watching w set) : h.Owned w set := by
  intro s hs id hid
  have hkeeps := (hw.mem_iff id s.record).mp (hid ▸ hs)
  exact Registry.owns_of_keeps (hw.wellFormed.registries id) hkeeps

theorem sameOthers_request {s : Subscription} (n : Nat)
    (hs : ∀ id, s.registry = .ofSeries id → (h.sources id).registry.Owns s.record w) :
    h.SameOthers (h.request s n) w := by
  refine ⟨fun id => ?_, fun id m hm => (h.onlyRequests_request s n id).owns hm⟩
  rw [registry_request]
  split
  · next hid => exact Registry.others_request (hs id hid.1) n
  · rfl

theorem sameOthers_unsubscribe {s : Subscription}
    (hs : ∀ id, s.registry = .ofSeries id → (h.sources id).registry.Owns s.record w) :
    h.SameOthers (h.unsubscribe s) w := by
  refine ⟨fun id => ?_, fun id m hm => ?_⟩
  · rw [registry_unsubscribe]
    split
    · next hid => exact Registry.others_unsubscribe (hs id hid.1)
    · rfl
  · rw [registry_unsubscribe]
    split
    · exact Registry.owns_unsubscribe hm
    · exact hm

theorem sameOthers_requestAll {set : Subscriptions} (hset : h.Owned w set) (n : Nat) :
    h.SameOthers (h.requestAll set n) w := by
  induction set generalizing h with
  | nil => exact sameOthers_of_series rfl
  | cons s rest ih =>
      have hfirst := sameOthers_request n (hset s List.mem_cons_self)
      refine hfirst.trans (ih fun s' hs' id hid => ?_)
      exact hfirst.owns id s'.record (hset s' (List.mem_cons_of_mem s hs') id hid)

theorem sameOthers_unsubscribeAll {set : Subscriptions} (hset : h.Owned w set) :
    h.SameOthers (h.unsubscribeAll set) w := by
  induction set generalizing h with
  | nil => exact sameOthers_of_series rfl
  | cons s rest ih =>
      have hfirst := sameOthers_unsubscribe (hset s List.mem_cons_self)
      refine hfirst.trans (ih fun s' hs' id hid => ?_)
      exact hfirst.owns id s'.record (hset s' (List.mem_cons_of_mem s hs') id hid)

end SameOthers

end Hub

/-! ## The account of a tree -/

/-- The set has one subscription on each series of the tree, and no others. -/
structure Tree.Accounts (t : Tree) (set : Subscriptions) : Prop where
  nodup : (set.map (·.registry)).Nodup
  covers : ∀ id ∈ t.leaves, set.Covers id
  only : ∀ s ∈ set, ∃ id ∈ t.leaves, s.registry = .ofSeries id

theorem Subscriptions.sameOthers_subscribe (set : Subscriptions) (h : Hub) (rid : RegistryId)
    (w : TargetId) : h.SameOthers (set.subscribe h rid w).2.2 w := by
  unfold subscribe
  split
  · exact Hub.sameOthers_of_series rfl
  · have hsame := h.sameOthers_subscribe rid w
    split <;> next heq => rw [heq] at hsame; exact hsame

theorem Tree.sameOthers_subscribe (t : Tree) (w : TargetId) (set : Subscriptions) (h : Hub) :
    h.SameOthers (t.subscribe w set h).2.2 w :=
  subscribe_rel (R := fun a b => a.2.SameOthers b.2 w) (fun a b => a.trans b)
    (fun id _ set h => set.sameOthers_subscribe h (.ofSeries id) w) set h

/-- The second set has no registry twice, unless the first one has, and only these besides those of
the first one. -/
structure Subscriptions.Extends (ids : List SourceId) (set set' : Subscriptions) : Prop where
  nodup : (set.map (·.registry)).Nodup → (set'.map (·.registry)).Nodup
  mem : ∀ s ∈ set', s ∈ set ∨ ∃ id ∈ ids, s.registry = .ofSeries id

/-- A set is asked before the registry. -/
theorem Subscriptions.extends_subscribe (set : Subscriptions) (h : Hub) {ids : List SourceId}
    {id : SourceId} (hid : id ∈ ids) (w : TargetId) :
    Extends ids set (set.subscribe h (.ofSeries id) w).2.1 := by
  unfold subscribe
  split
  · exact ⟨fun hset => hset, fun s hs => .inl hs⟩
  · next hfree =>
      split
      · next s h' hsubscribed =>
          have hregistry : s.registry = .ofSeries id := by
            unfold Hub.subscribe at hsubscribed
            split at hsubscribed <;> cases hsubscribed
            rfl
          refine ⟨fun hset => ?_, fun s' hs' => ?_⟩
          · rw [List.map_append, List.nodup_append]
            refine ⟨hset, List.nodup_singleton _, ?_⟩
            intro rid hrid rid' hrid' heq
            obtain ⟨s', hs', rfl⟩ := List.mem_map.mp hrid
            have hsame : s'.registry = .ofSeries id :=
              heq.trans ((List.mem_singleton.mp hrid').trans hregistry)
            exact hfree (List.any_eq_true.mpr ⟨s', hs', beq_iff_eq.mpr hsame⟩)
          · rcases List.mem_append.mp hs' with hs' | hs'
            · exact .inl hs'
            · rw [List.mem_singleton.mp hs']
              exact .inr ⟨id, hid, hregistry⟩
      · exact ⟨fun hset => hset, fun s hs => .inl hs⟩

theorem Tree.extends_subscribe (t : Tree) (w : TargetId) (set : Subscriptions) (h : Hub) :
    Subscriptions.Extends t.leaves set (t.subscribe w set h).2.1 := by
  refine subscribe_rel (R := fun a b => Subscriptions.Extends t.leaves a.1 b.1) ?_
    (fun id hid set h => set.extends_subscribe h hid w) set h
  intro a b c hab hbc
  refine ⟨fun hset => hbc.nodup (hab.nodup hset), fun s hs => ?_⟩
  rcases hbc.mem s hs with hs | hs
  · exact hab.mem s hs
  · exact .inr hs

/-! ## Followers -/

namespace Follower

/-- The account of a follower balances: its set holds all subscriptions of its waiter, and these are
none, or one on each series of its tree. -/
structure Accounted (f : Follower) (h : Hub) : Prop where
  plain : f.cursor.tree.Plain
  leaves : ∀ id ∈ f.cursor.tree.leaves, id < h.series.length
  watching : h.Watching f.waiter f.subscriptions
  accounts : f.subscriptions = [] ∨ f.cursor.tree.Accounts f.subscriptions

/-- The follower became another one, whose account balances, and left all other targets alone. -/
structure Stays (f : Follower) (h : Hub) (f' : Follower) (h' : Hub) : Prop where
  accounted : f'.Accounted h'
  waiter : f'.waiter = f.waiter
  others : h.SameOthers h' f.waiter

variable {f f' f'' : Follower} {h h' h'' : Hub} {token : Nat}

theorem Stays.trans (a : Stays f h f' h') (b : Stays f' h' f'' h'') : Stays f h f'' h'' :=
  ⟨b.accounted, b.waiter.trans a.waiter, a.others.trans (a.waiter ▸ b.others)⟩

theorem Accounted.stays (hf : f.Accounted h) : Stays f h f h :=
  ⟨hf, rfl, Hub.sameOthers_of_series rfl⟩

/-- A cursor may stand anywhere in its tree. -/
theorem Accounted.turn (hf : f.Accounted h) {c : Cursor} (hc : c.tree = f.cursor.tree) :
    Stays f h { f with cursor := c } h where
  accounted :=
    { plain := hc.symm ▸ hf.plain
      leaves := hc.symm ▸ hf.leaves
      watching := hf.watching
      accounts := hc.symm ▸ hf.accounts }
  waiter := rfl
  others := Hub.sameOthers_of_series rfl

theorem exists_advance (f : Follower) (h : Hub) :
    ∃ c : Cursor, c.tree = f.cursor.tree ∧ (f.advance h).1 = { f with cursor := c } := by
  unfold advance
  dsimp only
  let c := (f.cursor.move h.sources .next).1
  split
  · exact ⟨c, rfl, rfl⟩
  · exact ⟨c, rfl, rfl⟩
  · split
    · exact ⟨(c.move h.sources .next).1, rfl, rfl⟩
    · exact ⟨c, rfl, rfl⟩

theorem Accounted.advance (hf : f.Accounted h) : Stays f h (f.advance h).1 h := by
  obtain ⟨c, hc, hadvance⟩ := f.exists_advance h
  rw [hadvance]
  exact hf.turn hc

/-- What a follower does with its waiter does not show in its account. -/
theorem Accounted.setWaiter (hf : f.Accounted h) (x : Waiter) :
    Stays f h f (h.setWaiter f.waiter x) where
  accounted :=
    { plain := hf.plain
      leaves := hf.leaves
      watching := hf.watching.setWaiter x
      accounts := hf.accounts }
  waiter := rfl
  others := Hub.sameOthers_of_series rfl

/-- A follower whose account balances is never refused. -/
theorem Accounted.watch (hf : f.Accounted h) :
    ∃ set h', f.watch h = (.ok (), { f with subscriptions := set }, h') ∧
      Stays f h { f with subscriptions := set } h' := by
  by_cases hempty : f.subscriptions.isEmpty = true
  · have hnone : f.subscriptions = [] := List.isEmpty_iff.mp hempty
    have hothers := f.cursor.tree.sameOthers_subscribe f.waiter f.subscriptions h
    have hextends := f.cursor.tree.extends_subscribe f.waiter f.subscriptions h
    obtain ⟨set, h', heq, hwatching, hsame, -, hcovers⟩ :=
      Hub.exists_subscribe_tree hf.plain hf.watching hf.leaves
    -- the set was empty, so all that is in it now the tree asked for
    rw [heq, hnone] at hextends
    rw [heq] at hothers
    refine ⟨set, h', by rw [Follower.watch, if_pos hempty, heq], ?_, rfl, hothers⟩
    exact
      { plain := hf.plain
        leaves := fun id hid => hsame.length.symm ▸ hf.leaves id hid
        watching := hwatching
        accounts := .inr
          { nodup := hextends.nodup List.nodup_nil
            covers := hcovers
            only := fun s hs => (hextends.mem s hs).resolve_left (List.not_mem_nil) } }
  · exact ⟨f.subscriptions, h, by rw [Follower.watch, if_neg hempty], hf.stays⟩

theorem Accounted.requestAll (hf : f.Accounted h) (n : Nat) :
    Stays f h f (h.requestAll f.subscriptions n) where
  accounted :=
    { plain := hf.plain
      leaves := fun id hid =>
        (h.sameData_requestAll f.subscriptions n).length.symm ▸ hf.leaves id hid
      watching := hf.watching.requestAll f.subscriptions n
      accounts := hf.accounts }
  waiter := rfl
  others := Hub.sameOthers_requestAll hf.watching.owned n

/-- A follower that gives its subscriptions up has none. -/
theorem Accounted.release (hf : f.Accounted h) : Stays f h (f.release h).1 (f.release h).2 where
  accounted :=
    { plain := hf.plain
      leaves := fun id hid =>
        (h.sameData_unsubscribeAll f.subscriptions).length.symm ▸ hf.leaves id hid
      watching := hf.watching.unsubscribeAll
      accounts := .inl rfl }
  waiter := rfl
  others := Hub.sameOthers_unsubscribeAll hf.watching.owned

/-! ## Attempts -/

/-- A try has an answer of the move, or none. -/
theorem map_ok_ne_refused (outcome : Except Fault (Option Bool)) (e : SubscribeRefusal) :
    outcome.map (Option.map Except.ok) ≠ .ok (some (.error (WaitError.subscribe e))) := by
  match outcome with
  | .error _ => nofun
  | .ok none => nofun
  | .ok (some _) => nofun

/-- However a round ends, the account balances. No series refuses to be watched. -/
theorem Accounted.round (hf : f.Accounted h) (token : Nat) :
    Stays f h (f.round token h).follower (f.round token h).hub ∧
      ∀ e, (f.round token h).answer.outcome ≠ .ok (some (.error (.subscribe e))) := by
  have hfirst : Stays f h (f.advance h).1 h := hf.advance
  obtain ⟨set, h', hwatch, hwatched⟩ := hfirst.accounted.watch
  cases f.round_cases token h with
  | cancelled hub follower outcome =>
      rw [hub, follower, outcome]
      exact ⟨hf.stays, nofun⟩
  | first known hub follower outcome =>
      rw [hub, follower, outcome]
      exact ⟨hfirst, map_ok_ne_refused _⟩
  | refused watch =>
      rw [hwatch] at watch
      cases watch
  | second watch hub follower outcome =>
      rw [hwatch] at watch
      cases watch
      rw [follower, outcome, hub]
      have hasked := hwatched.accounted.requestAll 1
      have hsecond := hasked.accounted.advance
      exact ⟨hfirst.trans (hwatched.trans (hasked.trans hsecond)), map_ok_ne_refused _⟩

end Follower

/-- However the attempt ended, the account of its follower balances. It was not refused, and what
fell asleep is the follower that it left. -/
structure Attempt.Accounted (a : Attempt Progress) (f : Follower) (h : Hub) : Prop where
  stays : Follower.Stays f h a.follower a.hub
  unrefused : ∀ e, a.answer.outcome ≠ .ok (.ended (.error (.subscribe e)))
  asleep : ∀ s, a.answer.outcome = .ok (.asleep s) → s.follower = a.follower

namespace Follower

variable {f : Follower} {h : Hub}

theorem accounted_fallAsleep {f' : Follower} {h' : Hub} (hstays : Stays f h f' h') (token : Nat) :
    (f'.fallAsleep token h').Accounted f h where
  stays := hstays.trans (hstays.accounted.setWaiter _)
  unrefused := nofun
  asleep := by
    rintro s ⟨⟩
    rfl

theorem accounted_orSleep {f' : Follower} {h' : Hub} (hstays : Stays f h f' h') (token : Nat)
    {sleep : Follower → Hub → Attempt Progress}
    (hsleep : ∀ f' h', Stays f h f' h' → (sleep f' h').Accounted f h) :
    (orSleep (f'.round token h') sleep).Accounted f h := by
  obtain ⟨hround, hunrefused⟩ := hstays.accounted.round token
  have hstays' := hstays.trans hround
  have hslept := hsleep _ _ hstays'
  cases houtcome : (f'.round token h').answer.outcome with
  | error e =>
      simp only [orSleep, houtcome]
      refine ⟨hstays', ?_, ?_⟩
      · rintro _ ⟨⟩
      · rintro _ ⟨⟩
  | ok answer? =>
      cases answer? with
      | none =>
          simp only [orSleep, houtcome]
          exact ⟨hslept.stays, hslept.unrefused, hslept.asleep⟩
      | some answer =>
          simp only [orSleep, houtcome]
          refine ⟨hstays', ?_, ?_⟩
          · rintro e ⟨⟩
            exact hunrefused e houtcome
          · rintro _ ⟨⟩

theorem Accounted.start (hf : f.Accounted h) (token : Nat) : (f.start token h).Accounted f h := by
  refine accounted_orSleep hf.stays token fun f' h' hstays => ?_
  dsimp only
  split
  · have htaken := hstays.trans
      (hstays.accounted.setWaiter (h'.waiter f'.waiter).takePermit)
    exact accounted_orSleep htaken token fun f'' h'' hstays' => accounted_fallAsleep hstays' token
  · exact accounted_fallAsleep hstays token

end Follower

namespace Sleeper

variable {s : Sleeper} {h : Hub}

theorem accounted_leave (hs : s.follower.Accounted h) :
    Follower.Stays s.follower h s.follower (s.leave h) :=
  hs.setWaiter _

theorem accounted_poll (hs : s.follower.Accounted h) : (s.poll h).Accounted s.follower h := by
  unfold poll
  split
  · exact ⟨hs.setWaiter _, nofun, nofun⟩
  · split
    · next w _ =>
        have hasked := hs.setWaiter w
        have hstarted := hasked.accounted.start s.token
        exact ⟨hasked.trans hstarted.stays, hstarted.unrefused, hstarted.asleep⟩
    · refine ⟨hs.stays, nofun, ?_⟩
      rintro s' ⟨⟩
      rfl

end Sleeper

end LiveSeries
