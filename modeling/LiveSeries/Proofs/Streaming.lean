import LiveSeries.Proofs.GrowingEntries
import LiveSeries.Proofs.PolledSources

/-!
# Streaming

A reader goes from one entry to the next, by moves of its cursor or by waits, while its series grow
at their ends (`Reader.Streams`). What it shows on the way is at any time a beginning of the entries
that its tree has then, and all of them once there is no next one
(`Reader.streams_every_entry_once`). Nothing is lost and nothing is repeated.

The invariant is `Cursor.Streamed`: the cursor stands at the last entry that it has shown, and what
lies beyond that entry was not shown yet. Growth of the series adds to what lies beyond.
-/

namespace LiveSeries

/-! ## One move -/

namespace Cursor

theorem standpoint_eq (sources sources' : Sources) (c : Cursor) :
    c.standpoint sources' = c.standpoint sources := by
  have hstate : (c.behaviour sources').state = (c.behaviour sources).state := by
    rw [behaviour, behaviour, c.tree.state_behaviour, c.tree.state_behaviour]
  have hkey : (c.behaviour sources').key = (c.behaviour sources).key :=
    c.tree.key_behaviour sources sources'
  rw [standpoint, standpoint, Behaviour.place, Behaviour.place, hstate, hkey]

variable {sources sources' : Sources} {c : Cursor} {shown : List (Except Fault Entry)}

/-- The cursor has shown a beginning of its entries, and stands at the last one of it. -/
def Streamed (sources : Sources) (c : Cursor) (shown : List (Except Fault Entry)) : Prop :=
  ∃ es rest, shown = es.map .ok ∧ c.tree.common sources = es ++ rest ∧
    c.standpoint sources = es.getLast?.map (·.1)

/-- What the cursor shows after a move, if it landed. -/
def showing (sources : Sources) (landed : Bool) (c : Cursor) : List (Except Fault Entry) :=
  if landed then [(c.current sources).outcome] else []

theorem streamed_nil (h : c.state sources ≠ .moving) : c.Streamed sources [] := by
  refine ⟨[], c.tree.common sources, rfl, rfl, ?_⟩
  have hstate : ((c.behaviour sources).state c.position).isMoving = false := by
    cases hs : (c.behaviour sources).state c.position with
    | moving => exact absurd hs h
    | unready => rfl
    | ready => rfl
  show (if ((c.behaviour sources).state c.position).isMoving then _ else none) = none
  rw [hstate]
  rfl

/-- Entries that come at the end are beyond what was shown. -/
theorem Streamed.grow (h : c.Streamed sources shown)
    (hgrow : ∀ id ∈ c.tree.leaves, (sources id).store.entries <+: (sources' id).store.entries) :
    c.Streamed sources' shown := by
  obtain ⟨es, rest, hshown, hentries, hstands⟩ := h
  obtain ⟨new, hnew⟩ := Tree.common_prefix hgrow
  refine ⟨es, rest ++ new, hshown, ?_, (c.standpoint_eq sources sources').trans hstands⟩
  rw [← hnew, hentries, List.append_assoc]

/-- A move shows the first entry that was not shown yet. If it lands nowhere, all entries were
shown. -/
theorem Streamed.move (h : c.Streamed sources shown) (hdiscrete : c.tree.Discrete)
    (hreachable : c.Reachable) (hready : (c.state sources).isReady = true)
    (htotal : c.tree.Total sources) :
    ∃ landed, (c.move sources .next).2.outcome = .ok landed ∧
      (c.move sources .next).1.Streamed sources
        (shown ++ (c.move sources .next).1.showing sources landed) ∧
      (landed = false → shown = (c.tree.common sources).map .ok) := by
  obtain ⟨es, rest, hshown, hentries, hstands⟩ := h
  have hwalks := (Tree.answers sources htotal).walks
  have hsound := sound_of_reachable hreachable
  have htarget :
      Motion.next.target (c.tree.entries sources) (c.standpoint sources) = rest.head? := by
    have hinc : Increasing (c.tree.common sources) := c.tree.increasing_common
    rw [hentries] at hinc
    rw [Tree.entries_eq_common hdiscrete, hentries, hstands]
    exact @Motion.target_step true _ _ _ hinc rfl
  cases rest with
  | nil =>
      -- nothing is left to be shown, and the cursor stays
      obtain ⟨hfailed, hposition⟩ := hwalks.stays .next c.position hsound hready htarget
      have hstays : (c.move sources .next).1 = c := congrArg c.standing hposition
      refine ⟨false, hfailed, ?_, fun _ => ?_⟩
      · rw [hstays]
        exact ⟨es, [], (List.append_nil shown).trans hshown, hentries, hstands⟩
      · rw [hshown, hentries, List.append_nil]
  | cons e others =>
      obtain ⟨hlanded, hon⟩ := hwalks.lands .next c.position e hsound hready htarget
      have hshows : (c.move sources .next).1.Shows sources e := shows_of_standsOn sources hon
      refine ⟨true, hlanded, ⟨es ++ [e], others, ?_, ?_, ?_⟩, nofun⟩
      · rw [showing, if_pos rfl, hshows.current, hshown, List.map_append]
        rfl
      · show c.tree.common sources = _
        rw [hentries, List.append_assoc]
        rfl
      · rw [hshows.standpoint]
        simp

end Cursor

/-! ## A run of moves -/

/-- The cursor landed at an entry. -/
def Progress.landed : Progress → Bool
  | .ended (.ok true) => true
  | _ => false

namespace Reader

variable {r : Reading}

/-- The readers that come about over series that grow at their ends, with what they have shown. A
reader begins with a cursor that stands nowhere. In between its polls and moves anything may happen
but to the entries that its series hold. -/
inductive Streams (r : Reading) : Reader → Hub → List (Except Fault Entry) → Prop where
  | make {h : Hub} {c : Cursor} : h.Arises → c.Reachable → c.tree.Discrete →
      (∀ id ∈ c.tree.leaves, id < h.series.length) → c.state h.sources ≠ .moving →
      Streams r (.resting (Follower.make h c).1) (Follower.make h c).2 []
  | deed {reader : Reader} {h : Hub} {shown : List (Except Fault Entry)} (d : Hub.Deed) :
      d.Possible h → d.Spares reader.follower.waiter h →
      d.Appends reader.follower.cursor.tree.leaves → Streams r reader h shown →
      Streams r reader (d.run h) shown
  | poll {reader : Reader} {h : Hub} {shown : List (Except Fault Entry)} (token : Nat)
      {p : Progress} : reader.follower.cursor.tree.Total h.sources →
      (reader.poll r token h).answer.outcome = .ok p → Streams r reader h shown →
      Streams r (r.settle (reader.poll r token h) p).1 (r.settle (reader.poll r token h) p).2
        (shown ++ (r.settle (reader.poll r token h) p).1.follower.cursor.showing
          (r.settle (reader.poll r token h) p).2.sources p.landed)
  | move {f : Follower} {h : Hub} {shown : List (Except Fault Entry)} {landed : Bool} :
      f.cursor.tree.Total h.sources → (f.cursor.move h.sources .next).2.outcome = .ok landed →
      Streams r (.resting f) h shown →
      Streams r (.resting { f with cursor := (f.cursor.move h.sources .next).1 }) h
        (shown ++ (f.cursor.move h.sources .next).1.showing h.sources landed)
  | abandon {s : Sleeper} {h : Hub} {shown : List (Except Fault Entry)} :
      Streams r (.asleep s) h shown →
      Streams r (.resting (r.abandon s h).1) (r.abandon s h).2 shown

/-- A poll ends on the next entry if there is one. Else it leaves the cursor where it was, and does
not answer that it moved. -/
theorem exists_poll {reader : Reader} {h : Hub} (hvalid : reader.Valid h)
    (htotal : reader.follower.cursor.tree.Total h.sources) (token : Nat) :
    ∃ p, (reader.poll r token h).answer.outcome = .ok p ∧
      (∀ s, p = .asleep s → s.follower = (reader.poll r token h).follower) ∧
      (p.landed = true ∧
          (reader.follower.cursor.move h.sources .next).2.outcome = .ok true ∧
          (reader.poll r token h).follower.cursor =
            (reader.follower.cursor.move h.sources .next).1 ∨
        p.landed = false ∧
          (reader.poll r token h).follower.cursor = reader.follower.cursor ∧
          (p = .ended (.ok false) →
            (reader.follower.cursor.move h.sources .next).2.outcome ≠ .ok true)) := by
  obtain ⟨hsettles, -⟩ := hvalid.poll (r := r) htotal token
  cases hcancelled : h.isCancelled (reader.token token) with
  | true =>
      obtain ⟨hanswer, hcursor⟩ := hsettles.cancelled hcancelled
      exact ⟨_, hanswer, nofun, .inr ⟨rfl, hcursor, nofun⟩⟩
  | false =>
      by_cases hlanded : (reader.follower.cursor.move h.sources .next).2.outcome = .ok true
      · obtain ⟨hanswer, hcursor⟩ := hsettles.landed hcancelled hlanded
        exact ⟨_, hanswer, nofun, .inl ⟨rfl, hlanded, hcursor⟩⟩
      · by_cases hall : ∀ id ∈ reader.follower.cursor.tree.leaves,
            (h.sources id).isCompleted = true
        · obtain ⟨hanswer, hcursor⟩ := hsettles.completed hcancelled hlanded hall
          exact ⟨_, hanswer, nofun, .inr ⟨rfl, hcursor, fun _ => hlanded⟩⟩
        · obtain ⟨s, hanswer, hfollower, -, hcursor, -⟩ := hsettles.pending hcancelled hlanded hall
          refine ⟨_, hanswer, ?_, .inr ⟨rfl, hcursor, nofun⟩⟩
          rintro _ ⟨⟩
          exact hfollower

theorem Valid.placed {reader : Reader} {h : Hub} (hvalid : reader.Valid h) :
    reader.follower.Placed h := by
  cases reader with
  | resting f => exact Follower.Resting.placed hvalid
  | asleep s => exact Sleeper.Valid.placed hvalid

theorem reachable_of_streams {reader : Reader} {h : Hub} {shown : List (Except Fault Entry)}
    (hs : Streams r reader h shown) : Reachable r reader h := by
  induction hs with
  | make hh hc hdiscrete hleaves _ => exact .make hh hc hdiscrete.plain hleaves
  | deed d hpossible hspares _ _ ih => exact .deed d hpossible hspares ih
  | poll token htotal hp _ ih => exact .poll token htotal hp ih
  | move _ _ _ ih => exact .move .next ih
  | abandon _ ih => exact .abandon ih

/-- The invariant of a run. -/
def Streamed (reader : Reader) (h : Hub) (shown : List (Except Fault Entry)) : Prop :=
  reader.follower.cursor.tree.Discrete ∧ reader.follower.cursor.Streamed h.sources shown

theorem streamed_make {h : Hub} {c : Cursor} (hdiscrete : c.tree.Discrete)
    (hunmoved : c.state h.sources ≠ .moving) :
    Streamed (.resting (Follower.make h c).1) (Follower.make h c).2 [] := by
  simp only [Follower.make]
  split
  · exact ⟨hdiscrete, Cursor.streamed_nil hunmoved⟩
  · refine ⟨hdiscrete, Cursor.streamed_nil (c := c.fresh h.sources) ?_⟩
    have hfresh : (c.fresh h.sources).state h.sources = .ready :=
      (c.tree.steady h.sources).fresh_state
    show (c.fresh h.sources).state h.sources ≠ .moving
    rw [hfresh]
    decide

/-- Where the stores are the same, so is what was streamed. -/
theorem Streamed.of_sameSources {reader reader' : Reader} {h h' : Hub}
    {shown : List (Except Fault Entry)} (hs : reader.Streamed h shown)
    (hcursor : reader'.follower.cursor = reader.follower.cursor) (hsame : h.SameSources h') :
    reader'.Streamed h' shown := by
  rw [Streamed, hcursor]
  refine ⟨hs.1, hs.2.grow fun id _ => ?_⟩
  simp only [hsame.store id, List.prefix_rfl]

theorem showing_of_sameSources {h h' : Hub} (hsame : h.SameSources h') (landed : Bool)
    (c : Cursor) : c.showing h'.sources landed = c.showing h.sources landed := by
  rw [Cursor.showing, Cursor.current, Cursor.behaviour, Tree.behaviour_congr fun id _ => hsame.sees id]
  rfl

/-- A reader that moves shows the first entry that it has not shown yet, or has shown all. -/
theorem Streamed.move {reader : Reader} {h : Hub} {shown : List (Except Fault Entry)}
    (hs : reader.Streamed h shown) (hvalid : reader.Valid h)
    (htotal : reader.follower.cursor.tree.Total h.sources) :
    ∃ landed, (reader.follower.cursor.move h.sources .next).2.outcome = .ok landed ∧
      (reader.follower.cursor.move h.sources .next).1.Streamed h.sources
        (shown ++ (reader.follower.cursor.move h.sources .next).1.showing h.sources landed) ∧
      (landed = false → shown = (reader.follower.cursor.tree.common h.sources).map .ok) :=
  hs.2.move hs.1 hvalid.placed.reachable hvalid.placed.ready htotal

theorem Streamed.poll {reader : Reader} {h : Hub} {shown : List (Except Fault Entry)}
    (hs : reader.Streamed h shown) (hvalid : reader.Valid h)
    (htotal : reader.follower.cursor.tree.Total h.sources) (token : Nat) {p : Progress}
    (hp : (reader.poll r token h).answer.outcome = .ok p) :
    (r.settle (reader.poll r token h) p).1.Streamed (r.settle (reader.poll r token h) p).2
      (shown ++ (r.settle (reader.poll r token h) p).1.follower.cursor.showing
        (r.settle (reader.poll r token h) p).2.sources p.landed) := by
  obtain ⟨q, hq, hfollower, hcases⟩ := exists_poll (r := r) hvalid htotal token
  obtain rfl : q = p := Except.ok.inj (hq.symm.trans hp)
  obtain ⟨hcursor, hsettle⟩ := cursor_settle r (reader.poll r token h) q hfollower
  have hsame := (sameSources_poll r token h reader).trans hsettle
  rw [showing_of_sameSources hsame, hcursor]
  rcases hcases with ⟨hyes, hlanded, hmoved⟩ | ⟨hno, hstays, -⟩
  · obtain ⟨landed, hlanded', hstreamed, -⟩ := hs.move hvalid htotal
    obtain rfl : landed = true := Except.ok.inj (hlanded'.symm.trans hlanded)
    have hbefore : Streamed (.resting
        { reader.follower with cursor := (reader.follower.cursor.move h.sources .next).1 }) h
        (shown ++ (reader.follower.cursor.move h.sources .next).1.showing h.sources true) :=
      ⟨hs.1, hstreamed⟩
    rw [hyes, hmoved]
    exact hbefore.of_sameSources (hcursor.trans hmoved) hsame
  · rw [hno, Cursor.showing, if_neg Bool.false_ne_true, List.append_nil]
    exact hs.of_sameSources (hcursor.trans hstays) hsame

theorem streamed_of_streams {reader : Reader} {h : Hub} {shown : List (Except Fault Entry)}
    (hs : Streams r reader h shown) : reader.Streamed h shown := by
  induction hs with
  | make _ _ hdiscrete _ hunmoved => exact streamed_make hdiscrete hunmoved
  | @deed reader h shown d _ _ happends hs ih =>
      have hplaced := (valid_of_reachable (reachable_of_streams hs)).placed
      exact ⟨ih.1, ih.2.grow fun id hid => happends.prefix_store hid (hplaced.leaves id hid)⟩
  | poll token htotal hp hs ih =>
      exact ih.poll (valid_of_reachable (reachable_of_streams hs)) htotal token hp
  | @move f h shown landed htotal hmove hs ih =>
      obtain ⟨answer, hanswer, hstreamed, -⟩ :=
        ih.move (valid_of_reachable (reachable_of_streams hs)) htotal
      obtain rfl : answer = landed := Except.ok.inj (hanswer.symm.trans hmove)
      exact ⟨ih.1, hstreamed⟩
  | @abandon s h shown hs ih =>
      obtain ⟨hcursor, hsame⟩ := cursor_abandon r s h
      exact ih.of_sameSources hcursor hsame

/-- What a reader has shown is at any time a beginning of the entries of its tree. Whenever a move
or a wait answers that there is no next entry, it has shown them all. -/
theorem streams_every_entry_once {reader : Reader} {h : Hub} {shown : List (Except Fault Entry)}
    (hs : Streams r reader h shown) :
    shown <+: (reader.follower.cursor.tree.common h.sources).map .ok ∧
      (reader.follower.cursor.tree.Total h.sources →
        (∃ landed, (reader.follower.cursor.move h.sources .next).2.outcome = .ok landed ∧
          (landed = false → shown = (reader.follower.cursor.tree.common h.sources).map .ok)) ∧
        ∀ token, ∃ p, (reader.poll r token h).answer.outcome = .ok p ∧
          (p = .ended (.ok false) →
            shown = (reader.follower.cursor.tree.common h.sources).map .ok)) := by
  have hstreamed := streamed_of_streams hs
  have hvalid := valid_of_reachable (reachable_of_streams hs)
  constructor
  · obtain ⟨es, rest, rfl, hentries, -⟩ := hstreamed.2
    rw [hentries, List.map_append]
    exact List.prefix_append _ _
  · intro htotal
    obtain ⟨landed, hlanded, -, hall⟩ := hstreamed.move hvalid htotal
    refine ⟨⟨landed, hlanded, hall⟩, fun token => ?_⟩
    obtain ⟨p, hp, -, hcases⟩ := exists_poll (r := r) hvalid htotal token
    refine ⟨p, hp, ?_⟩
    rintro rfl
    rcases hcases with ⟨hyes, -⟩ | ⟨-, -, hnot⟩
    · cases hyes
    · apply hall
      rw [hlanded] at hnot
      exact Bool.eq_false_iff.mpr fun htrue => hnot rfl (congrArg Except.ok htrue)

/-! A reader over two series in lockstep moves to the key 1. Only then does the second series store
the key 2, which the first one has held for long. -/

/-- A hub with two empty series. -/
def emptyPair : Hub := Hub.Deed.run (Hub.Deed.run {} (.newSeries {})) (.newSeries {})

/-- A cursor over the common keys of both series. -/
def pairCursor : Cursor := (Cursor.ofSeries 0).zip emptyPair.sources (Cursor.ofSeries 1)

/-- A follower of both series. -/
def pairFollower : Follower := (Follower.make emptyPair pairCursor).1

/-- Both series hold the key 1. -/
def firstPair : Hub :=
  Hub.Deed.run (Hub.Deed.run (Follower.make emptyPair pairCursor).2
    (.change 0 (.addLast (.int 1) (.int 10)))) (.change 1 (.addLast (.int 1) (.int 11)))

/-- The first series holds the key 2, too. -/
def unevenPair : Hub :=
  Hub.Deed.run firstPair
    (.change 0 (.append [(.int 1, .int 10), (.int 2, .int 20)] .acceptEqual))

/-- Both series hold both keys. -/
def evenPair : Hub := Hub.Deed.run unevenPair (.change 1 (.addLast (.int 2) (.int 21)))

/-- The follower after its first move. -/
def firstMove : Follower :=
  { pairFollower with cursor := (pairFollower.cursor.move unevenPair.sources .next).1 }

/-- The follower after its second move. -/
def secondMove : Follower :=
  { firstMove with cursor := (firstMove.cursor.move evenPair.sources .next).1 }

theorem streams_uneven_pair :
    [(Except.ok (.int 1, .pair (.int 10) (.int 11)) : Except Fault Entry),
        .ok (.int 2, .pair (.int 20) (.int 21))] =
      (secondMove.cursor.tree.common evenPair.sources).map .ok := by
  have hmade :
      Streams .lasting (.resting pairFollower) (Follower.make emptyPair pairCursor).2 [] :=
    .make (.deed _ rfl (.deed _ rfl .empty)) (.zip _ (.ofSeries 0) (.ofSeries 1))
      ⟨trivial, trivial⟩ (by decide) (by decide)
  have hpair : Streams .lasting (.resting pairFollower) firstPair [] :=
    .deed _ trivial trivial (fun _ => trivial) (.deed _ trivial trivial (fun _ => trivial) hmade)
  have huneven : Streams .lasting (.resting pairFollower) unevenPair [] :=
    .deed _ trivial trivial (fun _ => trivial) hpair
  have hfirst : Streams .lasting (.resting firstMove) evenPair _ :=
    .deed _ trivial trivial (fun _ => trivial)
      (.move ⟨trivial, trivial⟩ (show _ = Except.ok true from rfl) huneven)
  have hsecond : Streams .lasting (.resting secondMove) evenPair _ :=
    .move ⟨trivial, trivial⟩ (show _ = Except.ok true from rfl) hfirst
  obtain ⟨landed, hlanded, hall⟩ := ((streams_every_entry_once hsecond).2 ⟨trivial, trivial⟩).1
  obtain rfl : landed = false := Except.ok.inj (hlanded.symm.trans rfl)
  exact hall rfl

end Reader

end LiveSeries
