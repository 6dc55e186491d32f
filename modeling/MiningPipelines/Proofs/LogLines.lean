import Mathlib.Data.List.Forall2
import MiningPipelines.Proofs.Cancellation

/-!
# Log lines in a stream

An engine may write log lines between its answers, as many as it likes (`Arrival.Relogged`). A run
passes them on and counts them as messages, and that is all : they neither move the cursor nor
reach a handler. So a message has another number once log lines are inserted or deleted before
it (`Item.Place`), and everything else about the run stays as it was.

Two runs over such streams are abreast of each other (`Run.Abreast`) whenever both have handled
the same items but for log lines. A log line keeps one of them abreast of the other, an
item that both streams hold keeps both so (`Run.Abreast.handleItem`), and runs that are abreast end
alike (`Run.Abreast.drain`). `Executor.execute_relogged` says this of whole executions.
-/

namespace MiningPipelines

/-! ## Streams that differ in their log lines -/

/-- The second stream is the first with log lines inserted and deleted. Where the signal fires while
the run is `asking` for an item, that item is under way : no log line comes in between. -/
inductive Arrival.Relogged : Bool → List Arrival → List Arrival → Prop
  | nil (asking : Bool) : Relogged asking [] []
  | item (asking : Bool) (x : Item) {rest rest' : List Arrival} : Relogged false rest rest' →
      Relogged asking (.item x :: rest) (.item x :: rest')
  | fires (asking : Bool) {rest rest' : List Arrival} : Relogged true rest rest' →
      Relogged asking (.fires :: rest) (.fires :: rest')
  | waits (asking : Bool) {rest rest' : List Arrival} : Relogged false rest rest' →
      Relogged asking (.waits :: rest) (.waits :: rest')
  | insert (text : String) {rest rest' : List Arrival} : Relogged false rest rest' →
      Relogged false rest (.item (.ok (.log text)) :: rest')
  | delete (text : String) {rest rest' : List Arrival} : Relogged false rest rest' →
      Relogged false (.item (.ok (.log text)) :: rest) rest'

namespace Item

/-- The item is a log line and nothing else. -/
def isLog : Item → Bool
  | .ok ⟨none, none, some _⟩ => true
  | _ => false

/-- The items that are no log lines. -/
def unlogged (items : List Item) : List Item := items.filter (!·.isLog)

theorem unlogged_append (items rest : List Item) :
    unlogged (items ++ rest) = unlogged items ++ unlogged rest :=
  List.filter_append _ _

theorem unlogged_append_log (items : List Item) (text : String) :
    unlogged (items ++ [.ok (.log text)]) = unlogged items :=
  (unlogged_append _ _).trans (List.append_nil _)

theorem length_unlogged_add_countP (items : List Item) :
    (unlogged items).length + items.countP isLog = items.length := by
  have hcount := List.length_eq_countP_add_countP isLog (l := items)
  rw [unlogged, ← List.countP_eq_length_filter, hcount, Nat.add_comm]
  simp

/-- The message with number `n` has number `n'` in the other stream : both hold the same there,
nothing but log lines was inserted or deleted before it, and those are what its number is moved
by. -/
structure Place (items items' : List Item) (n n' : Nat) : Prop where
  item : items[n]? = items'[n']?
  before : unlogged (items.take n) = unlogged (items'.take n')
  shift : n' + (items.take n).countP isLog = n + (items'.take n').countP isLog

/-- The messages behind the same items, but for log lines, have the same place. -/
theorem place_of_unlogged_eq {items items' rest rest' : List Item}
    (h : unlogged items = unlogged items') (hhead : rest.head? = rest'.head?) :
    Place (items ++ rest) (items' ++ rest') items.length items'.length := by
  refine ⟨?_, ?_, ?_⟩
  · rw [List.getElem?_append_right (Nat.le_refl _), List.getElem?_append_right (Nat.le_refl _),
      Nat.sub_self, Nat.sub_self, ← List.head?_eq_getElem?, ← List.head?_eq_getElem?, hhead]
  · rw [List.take_left, List.take_left, h]
  · have hlength := length_unlogged_add_countP items
    have hlength' := length_unlogged_add_countP items'
    rw [List.take_left, List.take_left, ← hlength, ← hlength', h]
    omega

end Item

section Moved

variable (items items' : List Item) (last : Option Arrival)

/-- The failures of runs over the two streams : the same, but for the number of the message at
which a run found a fault itself. The runs took `last` from their streams. -/
inductive Failure.Moved : Failure → Failure → Prop
  | numbered {n n' : Nat} (cause : ProtocolFault) : Item.Place items items' n n' →
      Failure.Moved (.protocol n cause) (.protocol n' cause)
  | reported (cause : Failure) : last = some (.item (.error cause)) → Failure.Moved cause cause
  | unnumbered (cause : Failure) : (∀ n fault, cause ≠ .protocol n fault) →
      Failure.Moved cause cause

/-- The outcomes of runs over the two streams. -/
inductive Outcome.Moved : Outcome → Outcome → Prop
  | succeeded (executionId : String) (delivered : Nat) :
      Outcome.Moved (.succeeded executionId delivered) (.succeeded executionId delivered)
  | failed {cause cause' : Failure} (delivered : Nat) :
      Failure.Moved items items' last cause cause' →
      Outcome.Moved (.failed cause delivered) (.failed cause' delivered)
  | cancelled (delivered : Nat) : Outcome.Moved (.cancelled delivered) (.cancelled delivered)

/-- Handling the same item ends both runs, or neither. -/
inductive Run.StopsAlike :
    Option (Except Failure String) → Option (Except Failure String) → Prop
  | neither : Run.StopsAlike none none
  | success (executionId : String) :
      Run.StopsAlike (some (.ok executionId)) (some (.ok executionId))
  | failure {cause cause' : Failure} : Failure.Moved items items' last cause cause' →
      Run.StopsAlike (some (.error cause)) (some (.error cause'))

end Moved

/-! ## Runs abreast of each other -/

namespace Run

variable {σ : Type}

/-- The deliveries that a run has reported : the numbers of the messages, and the positions that
they went to. -/
def dispatches (r : Run σ) : List (Nat × Nat) := r.events.filterMap Event.dispatch?

variable (items items' : List Item)

/-- The deliveries that two runs over the streams have reported. -/
def ReportAlike (r r' : Run σ) : Prop :=
  List.Forall₂ (fun d d' => Item.Place items items' d.1 d'.1 ∧ d.2 = d'.2)
    r.dispatches r'.dispatches

/-- The runs differ in the log lines they have reported and in the numbers of messages only. -/
structure Abreast (r r' : Run σ) : Prop where
  id : r.id = r'.id
  delivered : r.delivered = r'.delivered
  registry : r.registry = r'.registry
  signal : r.signal = r'.signal
  calls : r.calls = r'.calls
  reports : ReportAlike items items' r r'

/-- The runs have ended alike. -/
structure EndAlike (p p' : Run σ × Outcome) : Prop where
  outcome : Outcome.Moved items items' p.1.taken.getLast? p.2 p'.2
  calls : p.1.calls = p'.1.calls
  reports : ReportAlike items items' p.1 p'.1

variable {items items'} {handlers : Behaviour} {sink : Sink σ} {r r' : Run σ} {n n' : Nat}

theorem dispatches_emit {e : Event} (h : e.dispatch? = none) (r : Run σ) :
    (r.emit sink e).dispatches = r.dispatches := by
  rw [dispatches, emit, List.filterMap_append, List.filterMap_cons_none h, List.filterMap_nil,
    List.append_nil]
  rfl

theorem dispatches_cancel (r : Run σ) : (r.cancel sink).1.dispatches = r.dispatches :=
  dispatches_emit rfl (r.enter .cancelled)

theorem dispatches_conclude (r : Run σ) (v : Except Failure String) :
    (r.conclude sink v).1.dispatches = r.dispatches := by
  cases v with
  | ok executionId => exact dispatches_emit rfl (r.enter .succeeded)
  | error cause => exact dispatches_emit rfl (r.enter .failed)

variable (handlers sink) in
/-- A run that sees its signal fired is cancelled before it takes another item. -/
theorem cancelled_of_fired (r : Run σ) {asking : Bool}
    (hfired : (!asking && r.signal.fired) = true) (index : Nat) (rest : List Arrival) :
    (r.drain handlers sink asking index rest).2 = .cancelled r.delivered ∧
      (r.drain handlers sink asking index rest).1.calls = r.calls ∧
      (r.drain handlers sink asking index rest).1.dispatches = r.dispatches := by
  rcases rest with _ | ⟨_ | _ | _, rest⟩
  case cons.waits => exact ⟨rfl, rfl, dispatches_cancel (r.takeFire .waits)⟩
  all_goals
    rw [Run.drain, if_pos hfired]
    exact ⟨rfl, rfl, dispatches_cancel r⟩

namespace Abreast

variable (sink) in
/-- A log line in the first stream. -/
theorem left (h : r.Abreast items items' r') (x : Arrival) (text : String) :
    ((r.take x).emit sink (.logMessage r.id text)).Abreast items items' r' := by
  refine ⟨h.id, h.delivered, h.registry, h.signal, h.calls, ?_⟩
  rw [ReportAlike, dispatches_emit rfl]
  exact h.reports

variable (sink) in
/-- A log line in the second stream. -/
theorem right (h : r.Abreast items items' r') (x : Arrival) (text : String) :
    r.Abreast items items' ((r'.take x).emit sink (.logMessage r'.id text)) := by
  refine ⟨h.id, h.delivered, h.registry, h.signal, h.calls, ?_⟩
  rw [ReportAlike, dispatches_emit rfl]
  exact h.reports

theorem take (h : r.Abreast items items' r') (x : Arrival) :
    (r.take x).Abreast items items' (r'.take x) :=
  ⟨h.id, h.delivered, h.registry, h.signal, h.calls, h.reports⟩

/-- The handlers know the same calls. -/
theorem reply (h : r.Abreast items items' r') (c : Callback) (result : Wire.PartResult) :
    r.reply handlers c result = r'.reply handlers c result := by
  rw [Run.reply, Run.reply, h.calls]

theorem called (h : r.Abreast items items' r') (i : Nat) (c : Callback)
    (result : Wire.PartResult) (logs logs' : List LogRecord) :
    (r.called handlers i c result logs).Abreast items items'
      (r'.called handlers i c result logs') := by
  refine ⟨h.id, h.delivered, ?_, ?_, ?_, h.reports⟩
  · rw [Run.called, Run.called, h.registry]
  · rw [Run.called, Run.called, h.reply, h.signal]
  · rw [Run.called, Run.called, h.calls]

/-- A delivery is reported with the number that its message has in each stream. -/
theorem confirm (h : r.Abreast items items' r') (hplace : Item.Place items items' n n') (i : Nat)
    (c : Callback) :
    (r.confirm sink n i c).Abreast items items' (r'.confirm sink n' i c) := by
  have hdispatches : ∀ (s : Run σ) (m : Nat),
      (s.confirm sink m i c).dispatches = s.dispatches ++ [(m, i)] := by
    intro s m
    rw [dispatches, Run.confirm, emit, List.filterMap_append]
    rfl
  refine ⟨h.id, congrArg (· + 1) h.delivered, h.registry, h.signal, h.calls, ?_⟩
  rw [ReportAlike, hdispatches, hdispatches]
  exact List.rel_append h.reports (.cons ⟨hplace, rfl⟩ .nil)

theorem deliver (h : r.Abreast items items' r') (hplace : Item.Place items items' n n')
    (last : Option Arrival) (result : Wire.PartResult) :
    (r.deliver handlers sink n result).1.Abreast items items'
        (r'.deliver handlers sink n' result).1 ∧
      StopsAlike items items' last ((r.deliver handlers sink n result).2.map .error)
        ((r'.deliver handlers sink n' result).2.map .error) := by
  rcases Wire.Entries.decodable_or_firstFault result.values with hd | ⟨key, cause, hf⟩
  · cases hroute : r.registry.route? result.tag with
    | none =>
      obtain ⟨logs, hdeliver⟩ := r.deliver_of_no_route handlers sink n hd hroute
      obtain ⟨logs', hdeliver'⟩ :=
        r'.deliver_of_no_route handlers sink n' hd (h.registry ▸ hroute)
      rw [hdeliver, hdeliver', h.registry]
      exact ⟨⟨h.id, h.delivered, rfl, h.signal, h.calls, h.reports⟩, .failure (.numbered _ hplace)⟩
    | some route =>
      obtain ⟨i, c⟩ := route
      obtain ⟨logs, haccepted, hrefused⟩ := r.deliver_of_route handlers sink n hd hroute
      obtain ⟨logs', haccepted', hrefused'⟩ :=
        r'.deliver_of_route handlers sink n' hd (h.registry ▸ hroute)
      have hcalled : (r.called handlers i c result logs).Abreast items items' _ :=
        h.called i c result logs logs'
      rw [← h.reply] at haccepted' hrefused'
      cases hanswer : (r.reply handlers c result).result with
      | ok _ =>
        rw [haccepted hanswer, haccepted' hanswer]
        exact ⟨hcalled.confirm hplace i c, .neither⟩
      | error reason =>
        rw [hrefused reason hanswer, hrefused' reason hanswer]
        exact ⟨hcalled, .failure (.unnumbered _ (by simp))⟩
  · rw [r.deliver_of_firstFault handlers sink n hf, r'.deliver_of_firstFault handlers sink n' hf]
    exact ⟨h, .failure (.numbered _ hplace)⟩

variable (handlers sink) in
/-- An item that both streams hold keeps the runs abreast, and ends both or neither. -/
theorem handleItem (h : r.Abreast items items' r') (hplace : Item.Place items items' n n')
    (x : Item) :
    (r.handleItem handlers sink n x).1.Abreast items items'
        (r'.handleItem handlers sink n' x).1 ∧
      StopsAlike items items' (r.handleItem handlers sink n x).1.taken.getLast?
        (r.handleItem handlers sink n x).2 (r'.handleItem handlers sink n' x).2 := by
  cases x with
  | error cause =>
    refine ⟨h.take _, .failure (.reported cause ?_)⟩
    rw [Run.handleItem, Run.take, List.getLast?_concat]
  | ok m =>
    by_cases hm : m.fieldCount = 1
    · obtain ⟨_ | f, _ | result, _ | text⟩ := m <;> try cases hm
      · exact ⟨(h.left sink _ text).right sink _ text, .neither⟩
      · have hresult : (⟨none, some result, none⟩ : Wire.Message) = .result result := rfl
        rw [hresult, Run.handleItem, Run.handleItem, handle_result, handle_result]
        exact (h.take _).deliver hplace _ result
      · refine ⟨h.take _, ?_⟩
        obtain ⟨_ | executionId, _ | text⟩ := f
        · exact .failure (.numbered _ hplace)
        · exact .failure (.unnumbered _ (by simp))
        · exact .success executionId
        · exact .failure (.numbered _ hplace)
    · rw [Run.handleItem, Run.handleItem, handle_malformed _ _ _ _ hm, handle_malformed _ _ _ _ hm]
      exact ⟨h.take _, .failure (.numbered _ hplace)⟩

theorem cancel (h : r.Abreast items items' r') :
    EndAlike items items' (r.cancel sink) (r'.cancel sink) := by
  refine ⟨?_, h.calls, ?_⟩
  · rw [Run.cancel, Run.cancel, h.delivered]
    exact .cancelled _
  · rw [ReportAlike, dispatches_cancel, dispatches_cancel]
    exact h.reports

theorem conclude (h : r.Abreast items items' r') {v v' : Except Failure String}
    (hv : StopsAlike items items' r.taken.getLast? (some v) (some v')) :
    EndAlike items items' (r.conclude sink v) (r'.conclude sink v') := by
  have hreports : ReportAlike items items' (r.conclude sink v).1 (r'.conclude sink v').1 := by
    rw [ReportAlike, dispatches_conclude, dispatches_conclude]
    exact h.reports
  cases hv with
  | success executionId =>
    refine ⟨?_, h.calls, hreports⟩
    rw [Run.conclude, Run.conclude, h.delivered]
    exact .succeeded executionId _
  | failure hcause =>
    refine ⟨?_, h.calls, hreports⟩
    rw [Run.conclude, Run.conclude, h.delivered]
    exact .failed _ hcause

/-- The signal fires while both runs ask for an item, or wait for one. -/
theorem takeFire (h : r.Abreast items items' r') (x : Arrival) :
    (r.takeFire x).Abreast items items' (r'.takeFire x) := by
  refine ⟨h.id, h.delivered, h.registry, ?_, h.calls, h.reports⟩
  rw [Run.takeFire, Run.takeFire, h.signal]

/-- A signal that has fired cancels both runs, whatever the streams hold. -/
theorem drain_of_fired (h : r.Abreast items items' r') {asking : Bool}
    (hfired : (!asking && r.signal.fired) = true) (rest rest' : List Arrival) :
    EndAlike items items' (r.drain handlers sink asking n rest)
      (r'.drain handlers sink asking n' rest') := by
  obtain ⟨houtcome, hcalls, hdispatches⟩ := r.cancelled_of_fired handlers sink hfired n rest
  obtain ⟨houtcome', hcalls', hdispatches'⟩ :=
    r'.cancelled_of_fired handlers sink (h.signal ▸ hfired) n' rest'
  refine ⟨?_, hcalls.trans (h.calls.trans hcalls'.symm), ?_⟩
  · rw [houtcome, houtcome', h.delivered]
    exact .cancelled _
  · rw [ReportAlike, hdispatches, hdispatches']
    exact h.reports

variable (handlers sink) in
/-- Runs abreast of each other end alike on what is left of their streams. -/
theorem drain {asking : Bool} {rest rest' : List Arrival}
    (hrest : Arrival.Relogged asking rest rest') (h : r.Abreast items items' r')
    (before before' : List Item) (hitems : items = before ++ rest.filterMap Arrival.item?)
    (hitems' : items' = before' ++ rest'.filterMap Arrival.item?)
    (hbefore : Item.unlogged before = Item.unlogged before') :
    EndAlike items items' (r.drain handlers sink asking before.length rest)
      (r'.drain handlers sink asking before'.length rest') := by
  -- `before` and `before'` are what has been taken, log lines included : they number the messages
  -- to come, and the places of these follow from what the two have in common.
  induction hrest generalizing before before' r r' with
  | nil asking =>
    by_cases hfired : (!asking && r.signal.fired) = true
    · exact h.drain_of_fired hfired _ _
    have hplace : Item.Place items items' before.length before'.length :=
      hitems ▸ hitems' ▸ Item.place_of_unlogged_eq hbefore rfl
    rw [Run.drain, Run.drain, if_neg hfired, if_neg (h.signal ▸ hfired)]
    exact h.conclude (.failure (.numbered _ hplace))
  | @item asking x rest rest' _ ih =>
    by_cases hfired : (!asking && r.signal.fired) = true
    · exact h.drain_of_fired hfired _ _
    have hplace : Item.Place items items' before.length before'.length :=
      hitems ▸ hitems' ▸ Item.place_of_unlogged_eq hbefore rfl
    obtain ⟨hnext, hstop⟩ := h.handleItem handlers sink hplace x
    rw [Run.drain, Run.drain, if_neg hfired, if_neg (h.signal ▸ hfired)]
    generalize r.handleItem handlers sink before.length x = p at hnext hstop ⊢
    generalize r'.handleItem handlers sink before'.length x = p' at hnext hstop ⊢
    obtain ⟨next, v⟩ := p
    obtain ⟨next', v'⟩ := p'
    cases hstop with
    | neither =>
      have hdrain := ih hnext _ _ (hitems.trans (List.append_cons _ _ _))
        (hitems'.trans (List.append_cons _ _ _))
        (by rw [Item.unlogged_append, Item.unlogged_append, hbefore])
      rwa [List.length_append, List.length_append] at hdrain
    | success executionId => exact hnext.conclude (.success executionId)
    | failure hcause => exact hnext.conclude (.failure hcause)
  | @fires asking rest rest' _ ih =>
    by_cases hfired : (!asking && r.signal.fired) = true
    · exact h.drain_of_fired hfired _ _
    rw [Run.drain, Run.drain, if_neg hfired, if_neg (h.signal ▸ hfired)]
    exact ih (h.takeFire .fires) _ _ hitems hitems' hbefore
  | waits asking =>
    rw [Run.drain, Run.drain]
    exact (h.takeFire .waits).cancel
  | @insert text rest rest' _ ih =>
    by_cases hfired : (!false && r.signal.fired) = true
    · exact h.drain_of_fired hfired _ _
    have hdrain := ih (h.right sink (.item (.ok (.log text))) text) _ _ hitems
      (hitems'.trans (List.append_cons _ _ _))
      (hbefore.trans (Item.unlogged_append_log before' text).symm)
    rw [List.length_append] at hdrain
    rwa [drain_of_continues sink (h.signal ▸ Bool.eq_false_iff.2 hfired) rest' rfl]
  | @delete text rest rest' _ ih =>
    by_cases hfired : (!false && r.signal.fired) = true
    · exact h.drain_of_fired hfired _ _
    have hdrain := ih (h.left sink (.item (.ok (.log text))) text) _ _
      (hitems.trans (List.append_cons _ _ _)) hitems'
      ((Item.unlogged_append_log before text).trans hbefore)
    rw [List.length_append] at hdrain
    rwa [drain_of_continues sink (Bool.eq_false_iff.2 hfired) rest rfl]

end Abreast

end Run

/-! ## Whole executions -/

namespace Executor

variable {σ : Type} (x : Executor σ) (runId : String) (parts : Pipeline) (context : Context)
  (signal : Signal) (state : σ) {logs logs' : List LogRecord} {arrivals arrivals' : List Arrival}

/-- Log lines leave no trace in an execution but their own events and the numbers of messages.
Where they are inserted and deleted anywhere in the stream, the handlers are called with the same
values in the same order, the execution ends in the same way after the same number of deliveries,
and the deliveries are reported for the same positions. The number of the message that is reported
with a delivery, or with a fault that the run has found, is moved by the log lines before it. -/
theorem execute_relogged (h : Arrival.Relogged false arrivals arrivals')
    {transport : Wire.Request → Exchange}
    (hopen : x.transport (request parts context) = ⟨logs, .opened arrivals⟩)
    (hopen' : transport (request parts context) = ⟨logs', .opened arrivals'⟩) :
    let items := arrivals.filterMap Arrival.item?
    let items' := arrivals'.filterMap Arrival.item?
    let report := x.execute runId parts context signal state
    let report' := { x with transport }.execute runId parts context signal state
    report.run.calls = report'.run.calls ∧
      Outcome.Moved items items' report.run.taken.getLast? report.outcome report'.outcome ∧
      Run.ReportAlike items items' report.run report'.run := by
  intro items items' report report'
  have hstart : ∀ logs logs', (x.streaming runId parts state signal logs).Abreast items items'
      (x.streaming runId parts state signal logs') :=
    fun logs logs' => ⟨rfl, rfl, rfl, rfl, rfl, .nil⟩
  cases hfired : signal.fired with
  | true =>
    have hreport : report = _ := x.execute_of_fired runId parts context state hfired
    have hreport' : report' = _ :=
      execute_of_fired { x with transport } runId parts context state hfired
    rw [hreport, hreport']
    exact ⟨rfl, .cancelled 0, .nil⟩
  | false =>
    have hreport : report = _ := x.execute_of_opened runId parts context state hfired hopen
    have hreport' : report' = _ :=
      { x with transport }.execute_of_opened runId parts context state hfired hopen'
    obtain ⟨houtcome, hcalls, hreports⟩ :=
      (hstart logs logs').drain x.handlers x.sink h [] [] rfl rfl rfl
    rw [hreport, hreport']
    exact ⟨hcalls, houtcome, hreports⟩

/-- Log lines are deleted before a delivery and inserted behind it : the delivery is reported with a
smaller number, and the fault behind with a larger one. -/
theorem execute_relogged_shifted :
    let handlers : Behaviour := ⟨fun _ _ _ => .ok⟩
    let parts : Pipeline := [.fetch "k" none (some (.named "f"))]
    let answer : Item := .ok (.result ⟨none, []⟩)
    let empty : Item := .ok ⟨none, none, none⟩
    let items : List Item := [.ok (.log "a"), answer, empty]
    let items' : List Item := [answer, .ok (.log "b"), .ok (.log "c"), empty]
    let report := (replaying handlers .positional items).execute "r" parts .empty .armed ()
    let report' := (replaying handlers .positional items').execute "r" parts .empty .armed ()
    report.outcome = .failed (.protocol 2 .notOneMessage) 1 ∧
      report'.outcome = .failed (.protocol 3 .notOneMessage) 1 ∧
      report.run.dispatches = [(1, 0)] ∧ report'.run.dispatches = [(0, 0)] ∧
      report.run.calls = report'.run.calls ∧
      Outcome.Moved items items' (some (.item empty)) report.outcome report'.outcome ∧
      Run.ReportAlike items items' report.run report'.run := by
  intro handlers parts answer empty items items' report report'
  have hrelogged : Arrival.Relogged false (items.map .item) (items'.map .item) :=
    .delete "a" (.item _ _ (.insert "b" (.insert "c" (.item _ _ (.nil _)))))
  have hopen' : (replaying handlers .positional items').transport (request parts .empty) =
      ⟨[], .opened (items'.map .item)⟩ := rfl
  exact ⟨rfl, rfl, rfl, rfl, execute_relogged (replaying handlers .positional items) "r" parts
    .empty .armed () hrelogged rfl hopen'⟩

end Executor

end MiningPipelines
