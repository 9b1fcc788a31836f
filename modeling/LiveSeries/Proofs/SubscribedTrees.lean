import LiveSeries.Proofs.LiveSubscriptions

/-!
# Subscribing to a tree

A tree is subscribed from left to right, series by series (`Tree.subscribe_eq_each`). A set is asked
by the identity of the registry, and a registry by that of the target. So of the series that the set
does not cover each is added once, where it first occurs, until one of their registries holds the
target already (`Subscriptions.subscribeEach_enrolled`). What came before it stays, on either side
of a zip, and no record that was there is touched.

To subscribe again comes to the same and changes nothing more. A set with one live subscription on
each of its registries is one afterwards, and so a later request raises the count on each registry
that it covers, and on no other (`Tree.subscribe_covers_once`).
-/

namespace LiveSeries

theorem takeWhile_congr {α : Type} {p q : α → Bool} {l : List α} (h : ∀ a ∈ l, p a = q a) :
    l.takeWhile p = l.takeWhile q := by
  induction l with
  | nil => rfl
  | cons a rest ih =>
      rw [List.takeWhile_cons, List.takeWhile_cons, h a List.mem_cons_self,
        ih fun b hb => h b (List.mem_cons_of_mem a hb)]

namespace Subscriptions

/-! ## One series after the other -/

/-- Adds the registries of series to a set, up to the first that refuses. -/
def subscribeEach (target : TargetId) (set : Subscriptions) (h : Hub) :
    List SourceId → Except SubscribeRefusal Unit × Subscriptions × Hub
  | [] => (.ok (), set, h)
  | id :: rest =>
    match set.subscribe h (.ofSeries id) target with
    | (.ok _, set', h') => subscribeEach target set' h' rest
    | (.error e, set', h') => (.error e, set', h')

theorem subscribeEach_append (target : TargetId) (set : Subscriptions) (h : Hub)
    (ids rest : List SourceId) :
    subscribeEach target set h (ids ++ rest) =
      match subscribeEach target set h ids with
      | (.ok _, set', h') => subscribeEach target set' h' rest
      | failed => failed := by
  induction ids generalizing set h with
  | nil => rfl
  | cons id ids ih =>
      rw [List.cons_append, subscribeEach, subscribeEach]
      split
      · exact ih _ _
      · rfl

instance (set : Subscriptions) (id : SourceId) : Decidable (set.Covers id) :=
  decidable_of_iff _ covers_iff_any

/-- The series among these that the set does not cover, in the order in which they first occur. -/
def uncovered (set : Subscriptions) (ids : List SourceId) : List SourceId :=
  (ids.filter fun id => ¬ set.Covers id).eraseDups

end Subscriptions

/-- The subscription that the registry of a series gives out next. -/
def Hub.nextOn (h : Hub) (id : SourceId) : Subscription :=
  ⟨.ofSeries id, (h.sources id).registry.issued⟩

/-- The series up to the first one whose registry holds the target. -/
def Hub.admitting (h : Hub) (target : TargetId) (ids : List SourceId) : List SourceId :=
  ids.takeWhile fun id => !(h.sources id).registry.holds target

/-- A tree without a part that refuses is subscribed series by series. -/
theorem Tree.subscribe_eq_each {t : Tree} (hplain : t.Plain) (target : TargetId)
    (set : Subscriptions) (h : Hub) :
    t.subscribe target set h = Subscriptions.subscribeEach target set h t.leaves := by
  induction t generalizing set h with
  | series id =>
      rw [subscribe, leaves, Subscriptions.subscribeEach]
      obtain ⟨_ | _, set', h'⟩ := set.subscribe h (.ofSeries id) target <;> rfl
  | op t o ih => exact ih hplain set h
  | map t f ih => exact ih hplain set h
  | zip l r ihl ihr =>
      rw [subscribe, leaves, Subscriptions.subscribeEach_append, ← ihl hplain.1]
      obtain ⟨_ | _, set', h'⟩ := l.subscribe target set h
      · rfl
      · exact ihr hplain.2 set' h'
  | carry t ih => exact ih hplain set h
  | fill t otherwise ih => exact ih hplain set h
  | refuse t ih => exact hplain.elim

namespace Subscriptions

variable {target : TargetId} {set : Subscriptions} {h : Hub} {id : SourceId}

/-! ## The next series -/

theorem mem_uncovered {x : SourceId} {ids : List SourceId} :
    x ∈ set.uncovered ids ↔ x ∈ ids ∧ ¬ set.Covers x := by
  rw [uncovered, List.mem_eraseDups, List.mem_filter, decide_eq_true_eq]

theorem covers_append_singleton {s : Subscription} (hs : s.registry = .ofSeries id)
    {x : SourceId} : (set ++ [s]).Covers x ↔ set.Covers x ∨ x = id := by
  obtain ⟨_, record⟩ := s
  obtain rfl := hs
  simp only [Covers, List.mem_append, List.mem_singleton, Subscription.mk.injEq,
    RegistryId.ofSeries.injEq, exists_or]
  simp

theorem uncovered_cons_of_covers (hcovers : set.Covers id) (rest : List SourceId) :
    set.uncovered (id :: rest) = set.uncovered rest := by
  rw [uncovered, List.filter_cons_of_neg]
  · rfl
  · simpa using hcovers

/-- A series that is left out because it came before is left out because it is covered by then. -/
theorem uncovered_cons_of_not_covers (hnot : ¬ set.Covers id) (rest : List SourceId)
    {s : Subscription} (hs : s.registry = .ofSeries id) :
    set.uncovered (id :: rest) = id :: (set ++ [s]).uncovered rest := by
  rw [uncovered, List.filter_cons_of_pos (by simpa using hnot), List.eraseDups_cons,
    List.filter_filter, uncovered]
  congr 2
  refine List.filter_congr fun x _ => ?_
  rw [Bool.eq_iff_iff]
  simp [covers_append_singleton hs, and_comm]

theorem subscribeEach_of_covers (hcovers : set.Covers id) (rest : List SourceId) :
    subscribeEach target set h (id :: rest) = subscribeEach target set h rest := by
  rw [subscribeEach, Subscriptions.subscribe, if_pos (covers_iff_any.mpr hcovers)]

theorem subscribeEach_of_holds (hnot : ¬ set.Covers id)
    (hholds : (h.sources id).registry.holds target = true) (rest : List SourceId) :
    subscribeEach target set h (id :: rest) =
      (.error .alreadySubscribed, set, h.report .duplicateSubscription) := by
  have hrefused : (h.registry (.ofSeries id)).subscribe target = .error .alreadySubscribed :=
    if_pos hholds
  rw [subscribeEach, Subscriptions.subscribe, if_neg fun hany => hnot (covers_iff_any.mp hany),
    Hub.subscribe, hrefused]

theorem exists_subscribeEach_of_free (hnot : ¬ set.Covers id)
    (hfree : (h.sources id).registry.holds target = false) (rest : List SourceId) :
    ∃ r, (h.sources id).registry.subscribe target = .ok ((h.sources id).registry.issued, r) ∧
      subscribeEach target set h (id :: rest) =
        subscribeEach target (set ++ [h.nextOn id])
          (h.setRegistry (.ofSeries id) r) rest := by
  have hnone : ∀ n, ¬ (h.registry (.ofSeries id)).Keeps n target := fun n hn =>
    Bool.eq_false_iff.mp hfree (Registry.holds_iff.mpr ⟨n, hn⟩)
  obtain ⟨r, hr, hsubscribe⟩ := Hub.exists_subscribe_of_free hnone
  refine ⟨r, hr, ?_⟩
  rw [subscribeEach, Subscriptions.subscribe, if_neg fun hany => hnot (covers_iff_any.mp hany),
    hsubscribe]
  rfl

/-- The other series are still there after one was subscribed. -/
theorem lt_length_setRegistry {rest : List SourceId} (hrest : ∀ x ∈ rest, x < h.series.length)
    (r : Registry) : ∀ x ∈ rest, x < (h.setRegistry (.ofSeries id) r).series.length := by
  intro x hx
  rw [(h.sameData_setRegistry (.ofSeries id) r).length]
  exact hrest x hx

/-! ## What is added -/

/-- The set was extended by one subscription of the target on each of these series, whose registries
keep it behind their other records. No other record was touched. -/
structure Enrolled (target : TargetId) (set : Subscriptions) (h : Hub) (ids : List SourceId)
    (set' : Subscriptions) (h' : Hub) : Prop where
  set_eq : set' = set ++ ids.map h.nextOn
  records : ∀ rid, (h'.registry rid).records = (h.registry rid).records ++
    if rid ∈ ids.map .ofSeries then [⟨(h.registry rid).issued, target, 0⟩] else []
  data : h.SameData h'

theorem registry_of_ne {x : SourceId} (hne : x ≠ id) (r : Registry) :
    ((h.setRegistry (.ofSeries id) r).sources x).registry = (h.sources x).registry :=
  Hub.registry_setRegistry_of_ne (fun heq => hne (RegistryId.ofSeries.inj heq)) r

theorem Enrolled.cons {ids : List SourceId} {set' : Subscriptions} {h' : Hub} {r : Registry}
    (hid : id < h.series.length) (hother : id ∉ ids)
    (hr : (h.sources id).registry.subscribe target = .ok ((h.sources id).registry.issued, r))
    (hrest : Enrolled target (set ++ [h.nextOn id])
      (h.setRegistry (.ofSeries id) r) ids set' h') :
    Enrolled target set h (id :: ids) set' h' where
  set_eq := by
    have hsame : ∀ x ∈ ids, (h.setRegistry (.ofSeries id) r).nextOn x = h.nextOn x := by
      intro x hx
      have hne : x ≠ id := fun heq => hother (heq ▸ hx)
      rw [Hub.nextOn, registry_of_ne hne]
      rfl
    rw [hrest.set_eq, List.append_assoc, List.map_cons, List.singleton_append,
      List.map_congr_left hsame]
  records rid := by
    rw [hrest.records]
    by_cases hrid : rid = .ofSeries id
    · subst hrid
      have hself : (h.setRegistry (.ofSeries id) r).registry (.ofSeries id) = r :=
        Hub.registry_setRegistry_self (show h.Registered (.ofSeries id) from hid) r
      have hrecords : r.records = (h.registry (.ofSeries id)).records ++
          [⟨(h.registry (.ofSeries id)).issued, target, 0⟩] := Registry.records_subscribe hr
      rw [hself, hrecords, if_neg (by simpa using hother), if_pos (by simp), List.append_nil]
    · have hmem : rid ∈ (id :: ids).map .ofSeries ↔ rid ∈ ids.map .ofSeries := by
        simp [hrid]
      rw [Hub.registry_setRegistry_of_ne hrid]
      simp only [hmem]
  data := (h.sameData_setRegistry _ _).trans hrest.data

/-- No series that is still uncovered is the one that was just added, so its registry is as it
was. -/
theorem registry_of_mem_uncovered {rest : List SourceId} {x : SourceId}
    (hx : x ∈ (set ++ [h.nextOn id]).uncovered rest) (r : Registry) :
    x ≠ id ∧ ((h.setRegistry (.ofSeries id) r).sources x).registry = (h.sources x).registry := by
  have hne : x ≠ id := fun heq =>
    (mem_uncovered.mp hx).2 ((covers_append_singleton rfl).mpr (.inr heq))
  exact ⟨hne, registry_of_ne hne r⟩

theorem admitting_cons_of_free (hfree : (h.sources id).registry.holds target = false)
    (rest : List SourceId) (r : Registry) :
    h.admitting target (id :: (set ++ [h.nextOn id]).uncovered rest) =
      id :: (h.setRegistry (.ofSeries id) r).admitting target
        ((set ++ [h.nextOn id]).uncovered rest) := by
  rw [Hub.admitting, List.takeWhile_cons_of_pos (by simp [hfree]), Hub.admitting]
  refine congrArg _ (takeWhile_congr fun x hx => ?_)
  rw [(registry_of_mem_uncovered hx r).2]

/-- Each series that the set does not cover is added where it first occurs, until a registry holds
the target. If none does, all of them are. -/
theorem subscribeEach_enrolled {ids : List SourceId} (hids : ∀ id ∈ ids, id < h.series.length) :
    Enrolled target set h (h.admitting target (set.uncovered ids))
        (subscribeEach target set h ids).2.1 (subscribeEach target set h ids).2.2 ∧
      ((subscribeEach target set h ids).1 = .error .alreadySubscribed ↔
        ∃ id ∈ set.uncovered ids, (h.sources id).registry.holds target = true) := by
  induction ids generalizing set h with
  | nil =>
      refine ⟨⟨(List.append_nil set).symm, fun rid => (List.append_nil _).symm, .refl h⟩, ?_⟩
      simp [subscribeEach, uncovered]
  | cons id rest ih =>
      obtain ⟨hid, hrest⟩ := List.forall_mem_cons.mp hids
      by_cases hcovers : set.Covers id
      · rw [subscribeEach_of_covers hcovers, uncovered_cons_of_covers hcovers]
        exact ih hrest
      · have hnext : set.uncovered (id :: rest) = id :: (set ++ [h.nextOn id]).uncovered rest :=
          uncovered_cons_of_not_covers hcovers rest rfl
        rw [hnext]
        cases hholds : (h.sources id).registry.holds target with
        | true =>
            have hnone : h.admitting target (id :: (set ++ [h.nextOn id]).uncovered rest) = [] :=
              List.takeWhile_cons_of_neg (by simp [hholds])
            rw [subscribeEach_of_holds hcovers hholds, hnone]
            refine ⟨⟨(List.append_nil set).symm, fun rid => (List.append_nil _).symm, ?_⟩, ?_⟩
            · exact ⟨rfl, fun _ => rfl, fun _ => rfl, rfl, rfl⟩
            · exact ⟨fun _ => ⟨id, List.mem_cons_self, hholds⟩, fun _ => rfl⟩
        | false =>
            -- the rest is subscribed to the state that this subscription left
            obtain ⟨r, hr, hstep⟩ := exists_subscribeEach_of_free hcovers hholds rest
            have hrest' := @lt_length_setRegistry _ id rest hrest r
            obtain ⟨henrolled, hfails⟩ := @ih (set ++ [h.nextOn id]) _ hrest'
            rw [hstep, admitting_cons_of_free hholds rest r]
            refine ⟨henrolled.cons hid ?_ hr, hfails.trans ?_⟩
            · exact fun hmem =>
                (registry_of_mem_uncovered (List.takeWhile_subset _ hmem) r).1 rfl
            · rw [List.exists_mem_cons_iff, hholds]
              simp only [Bool.false_eq_true, false_or]
              exact exists_congr fun x => and_congr_right fun hx => by
                rw [(registry_of_mem_uncovered hx r).2]

/-! ## The second time -/

theorem covers_of_subscribeEach {ids : List SourceId} (hids : ∀ id ∈ ids, id < h.series.length)
    {answer : Except SubscribeRefusal Unit} {set' : Subscriptions} {h' : Hub}
    (hrun : subscribeEach target set h ids = (answer, set', h')) {x : SourceId}
    (hx : set.Covers x) : set'.Covers x := by
  obtain rfl : (subscribeEach target set h ids).2.1 = set' := congrArg (·.2.1) hrun
  have henrolled := (@subscribeEach_enrolled target set h ids hids).1
  obtain ⟨n, hn⟩ := hx
  refine ⟨n, ?_⟩
  rw [henrolled.set_eq]
  exact List.mem_append_left _ hn

/-- To subscribe again has the same answer and adds nothing. If all went well it does nothing at
all. -/
theorem subscribeEach_again {ids : List SourceId} (hids : ∀ id ∈ ids, id < h.series.length)
    {answer : Except SubscribeRefusal Unit} {set' : Subscriptions} {h' : Hub}
    (hfirst : subscribeEach target set h ids = (answer, set', h')) :
    ∃ h'', subscribeEach target set' h' ids = (answer, set', h'') ∧
      (answer = .ok () → h'' = h') ∧ ∀ rid, h''.registry rid = h'.registry rid := by
  induction ids generalizing set h with
  | nil =>
      cases hfirst
      exact ⟨_, rfl, fun _ => rfl, fun _ => rfl⟩
  | cons id rest ih =>
      obtain ⟨hid, hrest⟩ := List.forall_mem_cons.mp hids
      by_cases hcovers : set.Covers id
      · rw [subscribeEach_of_covers hcovers] at hfirst
        rw [subscribeEach_of_covers (covers_of_subscribeEach hrest hfirst hcovers)]
        exact ih hrest hfirst
      · cases hholds : (h.sources id).registry.holds target with
        | true =>
            rw [subscribeEach_of_holds hcovers hholds] at hfirst
            cases hfirst
            have hagain := @subscribeEach_of_holds target _ (h.report .duplicateSubscription) id
              hcovers hholds rest
            exact ⟨_, hagain, nofun, fun _ => rfl⟩
        | false =>
            obtain ⟨r, -, hstep⟩ := exists_subscribeEach_of_free hcovers hholds rest
            rw [hstep] at hfirst
            have hrest' := @lt_length_setRegistry _ id rest hrest r
            -- the series that was added is covered by now
            have hadded : (set ++ [h.nextOn id]).Covers id :=
              (covers_append_singleton rfl).mpr (.inr rfl)
            rw [subscribeEach_of_covers (covers_of_subscribeEach hrest' hfirst hadded)]
            exact ih hrest' hfirst

end Subscriptions

/-! ## Trees -/

theorem Subscriptions.Enrolled.upholds {target : TargetId} {set set' : Subscriptions} {h h' : Hub}
    {ids : List SourceId} (henrolled : Enrolled target set h ids set' h')
    (hnodup : (set'.map (·.registry)).Nodup) (hset : h.Upholds set) : h'.Upholds set' where
  nodup := hnodup
  live s hs := by
    rw [henrolled.set_eq] at hs
    rcases List.mem_append.mp hs with hs | hs
    · obtain ⟨t, n, hn⟩ := hset.live s hs
      refine ⟨t, n, ?_⟩
      rw [henrolled.records]
      exact List.mem_append_left _ hn
    · obtain ⟨id, hid, rfl⟩ := List.mem_map.mp hs
      refine ⟨target, 0, ?_⟩
      have hadded : (h.nextOn id).registry ∈ ids.map RegistryId.ofSeries := List.mem_map_of_mem hid
      rw [henrolled.records, if_pos hadded]
      exact List.mem_append_right _ List.mem_cons_self

/-- What comes of subscribing a target to a tree. The empty set is upheld, and so is every set that
trees are subscribed to from there, until one of its subscriptions is ended. -/
structure Tree.CoversOnce (t : Tree) (target : TargetId) (set : Subscriptions) (h : Hub)
    (answer : Except SubscribeRefusal Unit) (set' : Subscriptions) (h' : Hub) : Prop where
  enrolled :
    Subscriptions.Enrolled target set h (h.admitting target (set.uncovered t.leaves)) set' h'
  fails_iff : answer = .error .alreadySubscribed ↔
    ∃ id ∈ set.uncovered t.leaves, (h.sources id).registry.holds target = true
  again : ∃ h'', t.subscribe target set' h' = (answer, set', h'') ∧
    (answer = .ok () → h'' = h') ∧ ∀ rid, h''.registry rid = h'.registry rid
  upholds : h.Upholds set → h'.Upholds set'
  /-- Whatever else happens before a request on the set, it reaches all of the set once. -/
  raises : h.Upholds set → ∀ incidents : List Hub.Incident,
    (∀ s ∈ set', .deed (.unsubscribe s) ∉ incidents) → ∀ n,
      (incidents.foldl Hub.Incident.run h').Raises
        ((incidents.foldl Hub.Incident.run h').requestAll set' n) set' n

/-- A tree over series, whatever their registries are, adds to a set one subscription for each
series that the set does not cover, where it first occurs, up to the first series that has the
target already. -/
theorem Tree.subscribe_covers_once {t : Tree} (hplain : t.Plain) {h : Hub}
    (hleaves : ∀ id ∈ t.leaves, id < h.series.length) (target : TargetId) (set : Subscriptions) :
    t.CoversOnce target set h (t.subscribe target set h).1 (t.subscribe target set h).2.1
      (t.subscribe target set h).2.2 := by
  have heach := t.subscribe_eq_each hplain target set h
  obtain ⟨henrolled, hfails⟩ := @Subscriptions.subscribeEach_enrolled target set h t.leaves hleaves
  rw [← heach] at henrolled hfails
  have hupholds := fun hset : h.Upholds set =>
    henrolled.upholds ((t.extends_subscribe target set h).nodup hset.nodup) hset
  refine ⟨henrolled, hfails, ?_, hupholds, fun hset incidents hspared n => ?_⟩
  · rw [t.subscribe_eq_each hplain target (t.subscribe target set h).2.1]
    exact Subscriptions.subscribeEach_again hleaves heach.symm
  · exact Hub.raises_requestAll ((hupholds hset).incidents hspared) n

/-- Four series. The target is subscribed on the second and on the third. -/
def fourSeries : Hub :=
  { series := [{}, { registry := { slot := .single ⟨0, 0, 0⟩, issued := 1 } },
      { registry := { slot := .single ⟨0, 0, 0⟩, issued := 1 } }, {}] }

theorem Tree.subscribe_covers_once_refused :
    let t : Tree := .zip (.zip (.carry (.series 1)) (.series 0))
      (.zip (.zip (.series 0) (.fill (.series 2) (.int 0))) (.series 3))
    let set : Subscriptions := [⟨.ofSeries 1, 0⟩]
    let first := t.subscribe 0 set fourSeries
    first.1 = .error .alreadySubscribed ∧ first.2.1 = [⟨.ofSeries 1, 0⟩, ⟨.ofSeries 0, 0⟩] ∧
      fourSeries.Upholds set ∧ t.CoversOnce 0 set fourSeries first.1 first.2.1 first.2.2 := by
  intro t set first
  have hplain : t.Plain := ⟨⟨trivial, trivial⟩, ⟨trivial, trivial⟩, trivial⟩
  have hleaves : ∀ id ∈ t.leaves, id < fourSeries.series.length := by decide
  have hlive : fourSeries.Live ⟨.ofSeries 1, 0⟩ := ⟨0, 0, List.mem_cons_self⟩
  have hset : fourSeries.Upholds set :=
    ⟨List.nodup_singleton _, fun s hs => List.mem_singleton.mp hs ▸ hlive⟩
  exact ⟨rfl, rfl, hset, subscribe_covers_once hplain hleaves 0 set⟩

end LiveSeries
