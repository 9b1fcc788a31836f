import LiveSeries.Proofs.CursorMoves
import LiveSeries.Proofs.SessionActs

/-!
# Moves that fault

A function may fault while a zip, however deep in a tree, computes the values of a candidate, and
a cursor that carries only configuration faults on every move. Wherever the fault strikes, the
cursor is the one it was before the move (`Cursor.move_of_not_landed`): only a move that lands
changes a position.

So a run of requests to a cursor does not show the moves that faulted. Without them it ends with
the same cursor, and every request that is left has the same answer
(`Cursor.faulted_moves_leave_no_trace`).
-/

namespace LiveSeries

/-! ## Positions -/

namespace Behaviour

variable {σ τ : Type}

/-- Only a move that lands changes the position. -/
def Steadfast (b : Behaviour σ) : Prop :=
  ∀ m p, (b.move m p).landed.outcome ≠ .ok true → (b.move m p).position = p

/-- A cursor that only carries configuration faults on every move. -/
def Unmoved (b : Behaviour σ) : Prop :=
  ∀ m p, b.state p = .unready → (b.move m p).landed.outcome = .error .cursorNotReady

theorem steadfast_ofSeries (s : Series) : (ofSeries s).Steadfast := by
  intro m p hm
  simp only [ofSeries] at hm ⊢
  split
  · next hready =>
      rw [if_pos hready] at hm
      cases hentry : destination s m p.key? with
      | none => rfl
      | some e =>
          rw [hentry] at hm
          exact absurd rfl hm
  · rfl

/-- The sides of a zip move on copies, and only a pair that was found replaces the originals. -/
theorem steadfast_zip (l : Behaviour σ) (r : Behaviour τ) : (l.zip r).Steadfast := by
  intro m p hm
  change (moveZip l r m p).landed.outcome ≠ _ at hm
  show (moveZip l r m p).position = p
  unfold moveZip at hm ⊢
  split
  · next hready =>
      rw [if_pos hready] at hm
      dsimp only at hm ⊢
      split
      · next p' hfound =>
          rw [hfound] at hm
          exact absurd rfl hm
      · rfl
      · rfl
  · rfl

theorem unmoved_ofSeries (s : Series) : (ofSeries s).Unmoved := by
  intro m p hp
  have hready : ¬ p.state.isReady = true := by
    change p.state = .unready at hp
    rw [hp]
    exact Bool.false_ne_true
  simp only [ofSeries, if_neg hready, Eval.outcome_fault]

theorem unmoved_zip (l : Behaviour σ) (r : Behaviour τ) : (l.zip r).Unmoved := by
  intro m p hp
  have hready : ¬ p.state.isReady = true := by
    change p.state = .unready at hp
    rw [hp]
    exact Bool.false_ne_true
  show (moveZip l r m p).landed.outcome = _
  rw [moveZip, if_neg hready, Eval.outcome_fault]

end Behaviour

namespace Tree

variable (sources : Sources)

theorem steadfast (t : Tree) : (t.behaviour sources).Steadfast := by
  induction t with
  | series id => exact Behaviour.steadfast_ofSeries (sources id)
  | op t o ih => exact ih
  | map t f ih => exact ih
  | zip l r ihl ihr => exact Behaviour.steadfast_zip _ _
  | carry t ih => exact ih
  | fill t otherwise ih => exact ih
  | refuse t ih => exact ih

theorem unmoved (t : Tree) : (t.behaviour sources).Unmoved := by
  induction t with
  | series id => exact Behaviour.unmoved_ofSeries (sources id)
  | op t o ih => exact ih
  | map t f ih => exact ih
  | zip l r ihl ihr => exact Behaviour.unmoved_zip _ _
  | carry t ih => exact ih
  | fill t otherwise ih => exact ih
  | refuse t ih => exact ih

end Tree

namespace Cursor

/-- Only a move that lands changes a cursor. -/
theorem move_of_not_landed {sources : Sources} {c : Cursor} {m : Motion}
    (h : (c.move sources m).2.outcome ≠ .ok true) : (c.move sources m).1 = c :=
  congrArg c.standing (c.tree.steadfast sources m c.position h)

theorem move_of_fault {sources : Sources} {c : Cursor} {m : Motion} {e : Fault}
    (h : (c.move sources m).2.outcome = .error e) : (c.move sources m).1 = c := by
  refine move_of_not_landed ?_
  rw [h]
  nofun

/-! ## Requests -/

/-- What can be asked of a cursor. The cursor is moved, given another shape, or looked at. -/
inductive Request where
  | move (m : Motion)
  | reset
  | dispose
  /-- Goes on with a fresh cursor over the same tree. -/
  | renew
  | op (o : Operation)
  | map (f : Selector)
  | carry
  | fill (otherwise : Value)
  | refuse
  /-- Goes on with a zip of which the cursor is the left side. -/
  | zipLeft (right : Cursor)
  /-- Goes on with a zip of which the cursor is the right side. -/
  | zipRight (left : Cursor)
  | state
  | key
  | value
  | current
  | get (k : Key)
  | find (k : Key) (lookup : Lookup)
  | flags
  | inspect
  | describe

/-- A request, with the sources as they are when it is made. -/
structure Call where
  sources : Sources
  request : Request

/-- The cursor after a request, and the answer. -/
def respond (c : Cursor) (call : Call) : Cursor × Except Fault Reply :=
  let sources := call.sources
  match call.request with
  | .move m =>
    let (c', landed) := c.move sources m
    (c', landed.outcome.map (c'.shown sources))
  | .reset => (c.reset sources, .ok ((c.reset sources).shown sources true))
  | .dispose => (c.dispose sources, .ok ((c.dispose sources).shown sources true))
  | .renew => (c.fresh sources, .ok .done)
  | .op o => (c.op o, .ok .done)
  | .map f => (c.map f, .ok .done)
  | .carry => (c.carry, .ok .done)
  | .fill otherwise => (c.fill otherwise, .ok .done)
  | .refuse => (c.refuse, .ok .done)
  | .zipLeft right => (c.zip sources right, .ok .done)
  | .zipRight left => (left.zip sources c, .ok .done)
  | .state => (c, .ok (.state (c.state sources)))
  | .key => (c, (c.key sources).map .key)
  | .value => (c, (c.value sources).outcome.map .value)
  | .current => (c, (c.current sources).outcome.map fun e => .entry (some e))
  | .get k => (c, (c.get? sources k).outcome.map .optional)
  | .find k lookup => (c, (c.find? sources k lookup).outcome.map .entry)
  | .flags => (c, .ok (.flags (c.isContinuous sources) (c.isCompleted sources)))
  | .inspect => (c, .ok (.inspection (c.tree.inspect sources c.position)))
  | .describe => (c, .ok (.text (Describe.cursor c.tree c.position)))

/-- A request that was made, and its answer. -/
structure Exchange where
  call : Call
  answer : Except Fault Reply

/-- The request is a move. -/
def Request.isMove : Request → Bool
  | .move _ => true
  | _ => false

/-- The request was a move, and it faulted. -/
def Exchange.isFaultedMove (x : Exchange) : Bool :=
  x.call.request.isMove && !x.answer.isOk

/-- The cursor after a run of requests. -/
def after : Cursor → List Call → Cursor
  | c, [] => c
  | c, call :: calls => (c.respond call).1.after calls

/-- The requests of a run with their answers. -/
def exchanges : Cursor → List Call → List Exchange
  | _, [] => []
  | c, call :: calls => ⟨call, (c.respond call).2⟩ :: (c.respond call).1.exchanges calls

/-- The exchanges of a run without the moves that faulted. -/
def unfaulted (c : Cursor) (calls : List Call) : List Exchange :=
  (c.exchanges calls).filter fun x => !x.isFaultedMove

theorem respond_of_faultedMove {c : Cursor} {call : Call}
    (h : (⟨call, (c.respond call).2⟩ : Exchange).isFaultedMove = true) : (c.respond call).1 = c := by
  obtain ⟨sources, request⟩ := call
  obtain ⟨hmove, hanswer⟩ := Bool.and_eq_true_iff.mp h
  cases request with
  | move m =>
      cases hlanded : (c.move sources m).2.outcome with
      | error e => exact move_of_fault hlanded
      | ok landed =>
          simp only [respond, hlanded] at hanswer
          cases hanswer
  | _ => cases hmove

theorem unfaulted_cons (c : Cursor) (call : Call) (calls : List Call) :
    c.unfaulted (call :: calls) =
      if (⟨call, (c.respond call).2⟩ : Exchange).isFaultedMove then c.unfaulted calls
      else ⟨call, (c.respond call).2⟩ :: (c.respond call).1.unfaulted calls := by
  cases h : (⟨call, (c.respond call).2⟩ : Exchange).isFaultedMove with
  | true =>
      simp only [unfaulted, exchanges, List.filter_cons, h, respond_of_faultedMove h]
      rfl
  | false =>
      simp only [unfaulted, exchanges, List.filter_cons, h]
      rfl

/-- A run without its faulted moves ends with the same cursor. -/
theorem after_unfaulted (c : Cursor) (calls : List Call) :
    c.after ((c.unfaulted calls).map (·.call)) = c.after calls := by
  induction calls generalizing c with
  | nil => rfl
  | cons call rest ih =>
      rw [unfaulted_cons, after]
      split
      · next h => rw [ih, respond_of_faultedMove h]
      · rw [List.map_cons, after, ih]

/-- A run without its faulted moves has the answers that are left. -/
theorem exchanges_unfaulted (c : Cursor) (calls : List Call) :
    c.exchanges ((c.unfaulted calls).map (·.call)) = c.unfaulted calls := by
  induction calls generalizing c with
  | nil => rfl
  | cons call rest ih =>
      rw [unfaulted_cons]
      split
      · exact ih c
      · rw [List.map_cons, exchanges, ih]

end Cursor

/-! ## Requests in a session -/

/-- The steps of a session that are requests to one cursor. -/
def CursorStep.request? : CursorStep → Option Cursor.Request
  | .move m => some (.move m)
  | .reset => some .reset
  | .dispose => some .dispose
  | .state => some .state
  | .key => some .key
  | .value => some .value
  | .current => some .current
  | .get k => some (.get k)
  | .find k lookup => some (.find k lookup)
  | .flags => some .flags
  | .inspect => some .inspect
  | .describe => some .describe
  | .fresh _ | .copy _ | .subscribe _ _ | .start _ | .poll => none

namespace Session

/-- A session keeps a cursor as its requests leave it, and answers as they do; they change nothing
that is shared, and no other object. -/
structure Responds (name : String) (c : Cursor) (response : Cursor × Except Fault Reply) (w : World)
    (said : Except StepError Answer × World) : Prop where
  answer : said.1 = (response.2.map fun r => { outcome := .ok r }).mapError .fault
  hub : said.2.hub = w.hub
  cursor : said.2.object? name = some (.cursor response.1)
  others : ∀ other, other ≠ name → said.2.object? other = w.object? other

variable {name : String} {c : Cursor} {w : World}

/-- A look at a cursor, which may fault. -/
theorem responds_charge (hc : w.object? name = some (.cursor c)) {α : Type} (e : Eval α)
    (say : α → Reply) :
    Responds name c (c, e.outcome.map say) w
      ((charge e >>= fun a => reply (say a) : Act Answer).run.run w) := by
  have hcharge := run_charge e w
  cases houtcome : e.outcome with
  | error f =>
      rw [houtcome] at hcharge
      rw [run_bind_of_error hcharge]
      exact ⟨rfl, rfl, hc, fun _ _ => rfl⟩
  | ok a =>
      rw [houtcome] at hcharge
      rw [run_bind_of_ok hcharge]
      exact ⟨rfl, rfl, hc, fun _ _ => rfl⟩

/-- What is said when a cursor was stored that moved or gave its position up. -/
theorem responds_moved (c' : Cursor) (e : Eval Bool) :
    Responds name c (c', e.outcome.map (c'.shown w.hub.sources)) w
      ((update name (.cursor c') >>= fun _ => charge e >>= fun landed =>
        sayMoved c' landed >>= reply : Act Answer).run.run w) := by
  let w₁ := w.setObject name (.cursor c')
  have hcursor : w₁.object? name = some (.cursor c') := World.object?_setObject w name _
  have hothers : ∀ other, other ≠ name → w₁.object? other = w.object? other := fun _ hne =>
    World.object?_setObject_of_ne w hne _
  rw [run_bind_of_ok (rfl : (update name (.cursor c')).run.run w = (.ok (), w₁))]
  have hcharge := run_charge e w₁
  cases houtcome : e.outcome with
  | error f =>
      rw [houtcome] at hcharge
      rw [run_bind_of_error hcharge]
      exact ⟨rfl, rfl, hcursor, hothers⟩
  | ok landed =>
      rw [houtcome] at hcharge
      obtain ⟨calls, hsaid⟩ := run_sayMoved c' landed { w₁ with calls := w₁.calls + e.calls }
      rw [run_bind_of_ok hcharge, run_bind_of_ok hsaid]
      exact ⟨rfl, rfl, hcursor, hothers⟩

theorem Responds.of_findCursor {response : Cursor × Except Fault Reply} {f : Cursor → Act Answer}
    (hc : w.object? name = some (.cursor c)) (h : Responds name c response w ((f c).run.run w)) :
    Responds name c response w ((findCursor name >>= f).run.run w) := by
  have hfind : (findCursor name).run.run w = (.ok c, w) := run_find (congrArg (Option.bind · _) hc)
  rw [run_bind_of_ok hfind]
  exact h

theorem Responds.of_sources {response : Cursor × Except Fault Reply} {f : Sources → Act Answer}
    (h : Responds name c response w ((f w.hub.sources).run.run w)) :
    Responds name c response w ((sources >>= f).run.run w) := by
  rw [run_bind_of_ok (run_sources w)]
  exact h

/-- What a session does with a request to a cursor that it keeps. -/
theorem responds_performCursor (step : CursorStep) {request : Cursor.Request}
    (hstep : step.request? = some request) (hc : w.object? name = some (.cursor c)) :
    Responds name c (c.respond ⟨w.hub.sources, request⟩) w
      ((performCursor name step).run.run w) := by
  cases step <;> cases hstep <;> refine .of_findCursor hc ?_
  case move m => exact .of_sources (responds_moved _ (c.move w.hub.sources m).2)
  case reset => exact .of_sources (responds_moved _ (pure true))
  case dispose => exact .of_sources (responds_moved _ (pure true))
  case state => exact .of_sources ⟨rfl, rfl, hc, fun _ _ => rfl⟩
  case key => exact .of_sources (responds_charge hc (.lift (c.key w.hub.sources)) .key)
  case value => exact .of_sources (responds_charge hc (c.value w.hub.sources) .value)
  case current =>
    exact .of_sources (responds_charge hc (c.current w.hub.sources) fun e => .entry (some e))
  case get k => exact .of_sources (responds_charge hc (c.get? w.hub.sources k) .optional)
  case find k lookup =>
    exact .of_sources (responds_charge hc (c.find? w.hub.sources k lookup) .entry)
  case flags => exact .of_sources ⟨rfl, rfl, hc, fun _ _ => rfl⟩
  case inspect => exact .of_sources ⟨rfl, rfl, hc, fun _ _ => rfl⟩
  case describe => exact ⟨rfl, rfl, hc, fun _ _ => rfl⟩

/-- After a move that faulted a session has the same shared state, and every name stands for what
it stood for. -/
theorem run_faultedMove (hc : w.object? name = some (.cursor c)) {m : Motion} {e : Fault}
    (h : (c.move w.hub.sources m).2.outcome = .error e) :
    ((performCursor name (.move m)).run.run w).1 = .error (.fault e) ∧
      ((performCursor name (.move m)).run.run w).2.hub = w.hub ∧
      ∀ other, ((performCursor name (.move m)).run.run w).2.object? other = w.object? other := by
  obtain ⟨hanswer, hhub, hcursor, hothers⟩ := responds_performCursor (.move m) rfl hc
  refine ⟨?_, hhub, fun other => ?_⟩
  · rw [hanswer]
    simp only [Cursor.respond, h]
    rfl
  · by_cases hne : other = name
    · rw [hne, hcursor, hc]
      exact congrArg (fun c => some (Object.cursor c)) (Cursor.move_of_fault h)
    · exact hothers other hne

end Session

namespace Cursor

/-- A move that faults leaves the cursor as it was, whatever its tree and wherever it stands; and a
cursor that only carries configuration faults on every move. A run of requests goes on as if the
moves that faulted had not been made: without them it ends with the same cursor, and has the same
answers. In a session such a move changes nothing that a later step could find. -/
theorem faulted_moves_leave_no_trace (c : Cursor) (calls : List Call) :
    (∀ sources m e, (c.move sources m).2.outcome = .error e → (c.move sources m).1 = c) ∧
      (∀ sources m, c.state sources = .unready →
        (c.move sources m).2.outcome = .error .cursorNotReady) ∧
      c.after ((c.unfaulted calls).map (·.call)) = c.after calls ∧
      c.exchanges ((c.unfaulted calls).map (·.call)) = c.unfaulted calls ∧
      ∀ (w : World) name m e, w.object? name = some (.cursor c) →
        (c.move w.hub.sources m).2.outcome = .error e →
        ((Session.performCursor name (.move m)).run.run w).1 = .error (.fault e) ∧
          ((Session.performCursor name (.move m)).run.run w).2.hub = w.hub ∧
          ∀ other, ((Session.performCursor name (.move m)).run.run w).2.object? other =
            w.object? other :=
  ⟨fun _ _ _ => move_of_fault, fun sources m => c.tree.unmoved sources m c.position,
    after_unfaulted c calls, exchanges_unfaulted c calls,
    fun _ _ _ _ hc => Session.run_faultedMove hc⟩

/-! The quotients of one series are paired with a second series. The key 1 has no partner there,
and at the key 2 the quotient faults. -/

/-- The two series. -/
def dividedSeries : Sources
  | 0 => .ofList [(.int 1, .int 10), (.int 2, .int 0), (.int 3, .int 50)]
  | _ => .ofList [(.int 2, .int 7), (.int 3, .int 8)]

/-- The zip of the quotients with the second series. -/
def quotients : Cursor :=
  ((ofSeries 0).op (.arith .divideReverse (.int 100))).zip dividedSeries (ofSeries 1)

/-- The move to the key 3. -/
def toThree : Call := ⟨dividedSeries, .move (.find (.int 3) .eq)⟩

theorem faulted_moves_leave_no_trace_divideByZero :
    (quotients.move dividedSeries .first).2.outcome = .error .divideByZero ∧
      (quotients.move dividedSeries .first).1 = quotients ∧
      quotients.after [⟨dividedSeries, .move .first⟩, toThree] = quotients.after [toThree] ∧
      quotients.exchanges [toThree] =
        [⟨toThree, .ok (.moved true .moving (some (.ok (.int 3, .pair (.int 2) (.int 8)))))⟩] :=
  have hfaults : (quotients.move dividedSeries .first).2.outcome = .error .divideByZero := rfl
  have hrun := faulted_moves_leave_no_trace quotients [⟨dividedSeries, .move .first⟩, toThree]
  ⟨hfaults, hrun.1 _ _ _ hfaults, hrun.2.2.1.symm, hrun.2.2.2.1⟩

end Cursor

end LiveSeries
