import MiningPipelines.Proofs.Step

/-!
# The events of an execution

Whatever the engine sends and whenever the signal fires, the sink is handed one event that
starts the run, then log lines and deliveries, and then one event that ends the run
(`Report.Traced`). `Account` says what the events in the middle have to do with what was
taken from the stream. Each step of a run keeps that (`Run.Reports.step`), so it holds when
the run ends (`Run.Reports.drain`), however it does.

The sink gets these events one by one and nothing else : its state is what they make of its first
state (`Sink.after`), at every step of a run (`Run.Fed`) and of its report (`Executor.execute_fed`).
-/

namespace MiningPipelines

/-- The event stands between the first and the last of a run. -/
def Event.isProgress : Event → Bool
  | .logMessage _ _ | .dispatched _ _ _ _ => true
  | _ => false

/-- The text of a log line. -/
def Event.text? : Event → Option String
  | .logMessage _ text => some text
  | _ => none

/-- The message and the callback of a delivery. -/
def Event.dispatch? : Event → Option (Nat × Nat)
  | .dispatched _ messageIndex partIndex _ => some (messageIndex, partIndex)
  | _ => none

/-- The text of a message that is a log line. -/
def Arrival.text? : Arrival → Option String
  | .item (.ok ⟨none, none, some text⟩) => some text
  | _ => none

/-- What arrives on a stream, if it opens. -/
def Opening.arrivals : Opening → List Arrival
  | .opened arrivals => arrivals
  | _ => []

/-- The events between the first and the last of a run with `size` callbacks that took
`taken` from its stream and is about to ask for the message with number `index`. -/
structure Account (size : Nat) (taken : List Arrival) (index delivered : Nat)
    (events : List Event) : Prop where
  only : ∀ e ∈ events, e.isProgress
  texts : events.filterMap Event.text? = taken.filterMap Arrival.text?
  ascending : (events.filterMap Event.dispatch?).Pairwise fun d e => d.1 < e.1
  bounds : ∀ d ∈ events.filterMap Event.dispatch?, d.1 < index ∧ d.2 < size
  delivered : (events.filterMap Event.dispatch?).length = delivered

namespace Account

variable {size index delivered : Nat} {taken : List Arrival} {events : List Event}

/-- Before the first item there is nothing to account for. -/
theorem nil (size index : Nat) : Account size [] index 0 [] :=
  ⟨List.forall_mem_nil _, rfl, List.Pairwise.nil, List.forall_mem_nil _, rfl⟩

/-- Whatever is no log line may be taken without an event. -/
theorem take (h : Account size taken index delivered events) {x : Arrival}
    (hx : x.text? = none) : Account size (taken ++ [x]) index delivered events := by
  refine ⟨h.only, ?_, h.ascending, h.bounds, h.delivered⟩
  rw [h.texts, List.filterMap_append, List.filterMap_cons_none hx, List.filterMap_nil,
    List.append_nil]

/-- A log line is one event with its text. -/
theorem log (h : Account size taken index delivered events) (runId text : String) :
    Account size (taken ++ [.item (.ok (.log text))]) (index + 1) delivered
      (events ++ [.logMessage runId text]) := by
  have hdispatch : (events ++ [Event.logMessage runId text]).filterMap Event.dispatch? =
      events.filterMap Event.dispatch? := by
    rw [List.filterMap_append, List.filterMap_cons_none rfl, List.filterMap_nil, List.append_nil]
  refine ⟨?_, ?_, ?_, ?_, ?_⟩
  · exact List.forall_mem_append.2 ⟨h.only, List.forall_mem_singleton.2 rfl⟩
  · rw [List.filterMap_append, h.texts, List.filterMap_append]
    rfl
  · rw [hdispatch]
    exact h.ascending
  · rw [hdispatch]
    intro d hd
    obtain ⟨hindex, hsize⟩ := h.bounds d hd
    exact ⟨Nat.lt_succ_of_lt hindex, hsize⟩
  · rw [hdispatch]
    exact h.delivered

/-- A delivery is one event with the number of its message, the largest so far. -/
theorem dispatched (h : Account size taken index delivered events) (result : Wire.PartResult)
    (runId label : String) {i : Nat} (hi : i < size) :
    Account size (taken ++ [.item (.ok (.result result))]) (index + 1) (delivered + 1)
      (events ++ [.dispatched runId index i label]) := by
  have hdispatch : (events ++ [Event.dispatched runId index i label]).filterMap Event.dispatch? =
      events.filterMap Event.dispatch? ++ [(index, i)] := by
    rw [List.filterMap_append]
    rfl
  have htake : Arrival.text? (.item (.ok (.result result))) = none := rfl
  obtain ⟨honly, htexts, hascending, hbounds, hdelivered⟩ := h.take htake
  refine ⟨?_, ?_, ?_, ?_, ?_⟩
  · exact List.forall_mem_append.2 ⟨honly, List.forall_mem_singleton.2 rfl⟩
  · rw [← htexts]
    simp [Event.text?]
  · rw [hdispatch, List.pairwise_append]
    refine ⟨hascending, List.pairwise_singleton _ _, ?_⟩
    rintro d hd e he
    obtain rfl := List.mem_singleton.1 he
    exact (hbounds d hd).1
  · rw [hdispatch]
    intro d hd
    rcases List.mem_append.1 hd with hd | hd
    · exact ⟨Nat.lt_succ_of_lt (hbounds d hd).1, (hbounds d hd).2⟩
    · obtain rfl := List.mem_singleton.1 hd
      exact ⟨Nat.lt_succ_self _, hi⟩
  · rw [hdispatch, List.length_append, hdelivered]
    rfl

end Account

/-! ## Calls -/

namespace Behaviour

variable {handlers : Behaviour} {calls before : List Call} {c : Call}

/-- The last call did not end well. -/
def LastFails (handlers : Behaviour) (calls : List Call) : Prop :=
  ∃ before c reason, calls = before ++ [c] ∧
    (c.handler.call (handlers.after before) c.values).result = .error reason

/-- The calls of a run with this outcome : all ended well and count as deliveries, or all
but the last, which failed the run. -/
inductive Settles (handlers : Behaviour) : List Call → Outcome → Prop
  | all {calls : List Call} {o : Outcome} : handlers.Accepts calls →
      calls.length = o.delivered → handlers.Settles calls o
  | butLast {before : List Call} {c : Call} {reason : String} (label : String) :
      handlers.Accepts before →
      (c.handler.call (handlers.after before) c.values).result = .error reason →
      handlers.Settles (before ++ [c]) (.failed (.handler label reason) before.length)

theorem Accepts.not_lastFails (h : handlers.Accepts calls) : ¬handlers.LastFails calls := by
  rintro ⟨before, c, reason, rfl, hc⟩
  cases (eachAfter_append_singleton.1 h).2.symm.trans hc

/-- At most one call is no delivery. -/
theorem Settles.length {o : Outcome} (h : handlers.Settles calls o) :
    calls.length = o.delivered ∨ calls.length = o.delivered + 1 := by
  cases h with
  | all _ hlength => exact Or.inl hlength
  | butLast => exact Or.inr (List.length_append)

/-- There is one call more than deliveries exactly if a handler failed the run. -/
theorem Settles.length_eq_succ_iff {o : Outcome} (h : handlers.Settles calls o) :
    calls.length = o.delivered + 1 ↔ handlers.LastFails calls ∧
      ∃ label reason, o = .failed (.handler label reason) o.delivered := by
  cases h with
  | all haccepts hlength =>
    constructor
    · intro h
      omega
    · rintro ⟨hfails, -⟩
      exact absurd hfails haccepts.not_lastFails
  | butLast label haccepts hc =>
    constructor
    · intro _
      exact ⟨⟨_, _, _, rfl, hc⟩, label, _, rfl⟩
    · intro _
      exact List.length_append

end Behaviour

/-! ## Runs -/

namespace Run

variable {σ : Type}

/-- What holds before each item of a run with `size` callbacks : the events so far are the
first and those in `middle`, and every call ended well. -/
structure Reports (handlers : Behaviour) (runId : String) (count size index : Nat)
    (middle : List Event) (r : Run σ) : Prop where
  id : r.id = runId
  events : r.events = .started runId count size :: middle
  account : Account size r.taken index r.delivered middle
  size : r.registry.size = size
  accepts : handlers.Accepts r.calls
  calls : r.calls.length = r.delivered

/-- What holds at the end of a run. -/
structure Ended (handlers : Behaviour) (runId : String) (count size : Nat)
    (middle : List Event) (r : Run σ) (o : Outcome) : Prop where
  events : r.events = .started runId count size :: (middle ++ [o.event runId])
  account : ∃ index, Account size r.taken index o.delivered middle
  calls : handlers.Settles r.calls o

variable {handlers : Behaviour} {sink : Sink σ} {runId : String} {count size index : Nat}
  {middle : List Event} {r : Run σ}

/-- Reporting the outcome adds the last event. -/
theorem Closes.ended {last : Run σ} {o : Outcome} (h : r.Closes last o) (hid : r.id = runId)
    (hevents : r.events = .started runId count size :: middle)
    (haccount : Account size r.taken index r.delivered middle)
    (hcalls : handlers.Settles r.calls o) : last.Ended handlers runId count size middle o := by
  refine ⟨?_, ⟨index, ?_⟩, ?_⟩
  · rw [h.events, hevents, hid]
    rfl
  · rw [h.taken, h.delivered]
    exact haccount
  · rw [h.calls]
    exact hcalls

/-- An item that ends the run is no log line. -/
theorem Step.text?_eq_none {x : Item} {next : Run σ} {v : Except Failure String}
    (h : Step handlers sink r index x next (some v)) : Arrival.text? (.item x) = none := by
  cases h with
  | malformed m hm => obtain ⟨_ | _, _ | _, _ | _⟩ := m <;> first | rfl | exact absurd rfl hm
  | _ => rfl

namespace Reports

/-- A run may end between two items. -/
theorem ended (h : r.Reports handlers runId count size index middle) {last : Run σ} {o : Outcome}
    (hclose : r.Closes last o) : last.Ended handlers runId count size middle o :=
  hclose.ended h.id h.events h.account (.all h.accepts (h.calls.trans hclose.delivered.symm))

/-- Neither the log nor the phase nor the signal is reported. -/
theorem with_logs (h : r.Reports handlers runId count size index middle) (logs : List LogRecord)
    (phase : Phase) (signal : Signal) :
    Run.Reports handlers runId count size index middle
      { r with logs := logs, phase := phase, signal := signal } :=
  ⟨h.id, h.events, h.account, h.size, h.accepts, h.calls⟩

theorem takeFire (h : r.Reports handlers runId count size index middle) {x : Arrival}
    (hx : x.text? = none) : (r.takeFire x).Reports handlers runId count size index middle :=
  ⟨h.id, h.events, h.account.take hx, h.size, h.accepts, h.calls⟩

/-- An item that does not end the run is reported. -/
theorem step (h : r.Reports handlers runId count size index middle) {x : Item} {next : Run σ}
    (hstep : Step handlers sink (r.take (.item x)) index x next none) :
    ∃ middle, next.Reports handlers runId count size (index + 1) middle := by
  obtain ⟨hid, hevents, haccount, hsize, haccepts, hcalls⟩ := h
  cases hstep with
  | log text =>
    refine ⟨middle ++ [Event.logMessage r.id text], hid, ?_, haccount.log r.id text, hsize,
      haccepts, hcalls⟩
    rw [← List.cons_append, ← hevents]
    rfl
  | @delivered result i c logs hd hroute hreply =>
    obtain ⟨hi, -⟩ := List.getElem?_eq_some_iff.1 (Registry.route?_eq_some_iff.1 hroute).2
    refine ⟨middle ++ [Event.dispatched r.id index i c.label], hid, ?_,
      haccount.dispatched result r.id c.label (hsize ▸ hi), hsize, ?_, ?_⟩
    · rw [← List.cons_append, ← hevents]
      rfl
    · exact eachAfter_append_singleton.2 ⟨haccepts, hreply⟩
    · exact List.length_append.trans (congrArg Nat.succ hcalls)

/-- The run may end with an item, and only the last call may have failed then. -/
theorem stop (h : r.Reports handlers runId count size index middle) {x : Item} {next : Run σ}
    {v : Except Failure String}
    (hstep : Step handlers sink (r.take (.item x)) index x next (some v)) :
    (next.conclude sink v).1.Ended handlers runId count size middle (next.conclude sink v).2 := by
  have hclose := next.closes_conclude sink v
  obtain ⟨hid, hdelivered, hevents, htaken⟩ := hstep.ended
  have haccount : Account size next.taken index next.delivered middle := by
    rw [htaken, hdelivered]
    exact h.account.take hstep.text?_eq_none
  refine hclose.ended (hid.trans h.id) (hevents.trans h.events) haccount ?_
  have hall : next.calls = r.calls → handlers.Settles next.calls (next.conclude sink v).2 := by
    intro hcalls
    rw [hcalls]
    refine .all h.accepts ?_
    rw [h.calls, hclose.delivered, hdelivered]
    rfl
  cases hstep with
  | @handlerFailed result i c reason logs hd hroute hreply =>
    have hfailed := Behaviour.Settles.butLast (c := ⟨i, c.handler, result.contents⟩) c.label
      h.accepts hreply
    rw [h.calls] at hfailed
    exact hfailed
  | _ => exact hall rfl

/-- However a run ends, its events are in order, and it took a prefix of what arrived. -/
theorem drain (h : r.Reports handlers runId count size index middle) (asking : Bool)
    (arrivals : List Arrival) :
    ∃ middle, (r.drain handlers sink asking index arrivals).1.Ended handlers runId count size
        middle (r.drain handlers sink asking index arrivals).2 ∧
      ∃ rest, (r.drain handlers sink asking index arrivals).1.taken ++ rest =
        r.taken ++ arrivals := by
  induction arrivals generalizing r index middle asking with
  | nil =>
    rw [Run.drain]
    split
    · exact ⟨middle, h.ended (closes_cancel sink r), [], rfl⟩
    · exact ⟨middle, h.ended (closes_conclude sink r _), [], rfl⟩
  | cons x rest ih =>
    cases x with
    | waits =>
      have hfire := h.takeFire (x := .waits) rfl
      exact ⟨middle, hfire.ended (closes_cancel sink _), rest, List.append_assoc _ _ _⟩
    | fires =>
      rw [Run.drain]
      split
      · exact ⟨middle, h.ended (closes_cancel sink r), .fires :: rest, rfl⟩
      · obtain ⟨last, hended, left, hleft⟩ := ih (h.takeFire (x := .fires) rfl) true
        exact ⟨last, hended, left, hleft.trans (List.append_assoc _ _ _)⟩
    | item x =>
      rw [Run.drain]
      split
      · exact ⟨middle, h.ended (closes_cancel sink r), .item x :: rest, rfl⟩
      · obtain ⟨next, verdict, hhandle, hstep⟩ := r.exists_step handlers sink index x
        rw [hhandle]
        cases verdict with
        | none =>
          obtain ⟨_, hnext⟩ := h.step hstep
          obtain ⟨last, hended, left, hleft⟩ := ih hnext false
          refine ⟨last, hended, left, hleft.trans ?_⟩
          rw [hstep.taken]
          exact List.append_assoc _ _ _
        | some v =>
          have hclose := next.closes_conclude sink v
          refine ⟨middle, h.stop hstep, rest, ?_⟩
          rw [hclose.taken, hstep.taken]
          exact List.append_assoc _ _ _

end Reports

end Run

/-! ## What the sink is handed -/

namespace Sink

variable {σ : Type}

/-- The state of the sink after events. -/
def after (sink : Sink σ) (state : σ) (events : List Event) : σ :=
  events.foldl (fun s e => (sink.send s e).state) state

theorem after_append_singleton (sink : Sink σ) (state : σ) (events : List Event) (e : Event) :
    sink.after state (events ++ [e]) = (sink.send (sink.after state events) e).state := by
  rw [after, List.foldl_append]
  rfl

end Sink

/-- The sink of the run, in `state` at first, has got its events and nothing else. -/
def Run.Fed {σ : Type} (sink : Sink σ) (state : σ) (r : Run σ) : Prop :=
  r.sink = sink.after state r.events

namespace Run.Fed

variable {σ : Type} {sink : Sink σ} {state : σ} {r next : Run σ}

/-- An event that is emitted goes to the sink and to the record. -/
theorem emit (h : r.Fed sink state) (e : Event) : (r.emit sink e).Fed sink state := by
  have hsend : sink.after state (r.events ++ [e]) = (sink.send r.sink e).state := by
    rw [Sink.after_append_singleton, ← h]
  exact hsend.symm

theorem conclude (h : r.Fed sink state) (v : Except Failure String) :
    (r.conclude sink v).1.Fed sink state := by
  cases v with
  | ok executionId => exact Fed.emit (r := r.enter .succeeded) h _
  | error cause => exact Fed.emit (r := r.enter .failed) h _

theorem cancel (h : r.Fed sink state) : (r.cancel sink).1.Fed sink state :=
  Fed.emit (r := r.enter .cancelled) h _

/-- No step of a run writes to the sink but by emitting an event. -/
theorem step (h : r.Fed sink state) {handlers : Behaviour} {index : Nat} {x : Item}
    {v : Option (Except Failure String)} (hstep : Step handlers sink r index x next v) :
    next.Fed sink state := by
  cases hstep with
  | log text => exact h.emit _
  | @delivered result i c logs =>
    exact Fed.emit
      (r := { r.called handlers i c result logs with delivered := r.delivered + 1 }) h _
  | handlerFailed | misrouted | undecodable | final | malformed | fault => exact h

/-- The sink is fed for as long as the run goes on. -/
theorem drain (h : r.Fed sink state) (handlers : Behaviour) (asking : Bool) (index : Nat)
    (arrivals : List Arrival) :
    (r.drain handlers sink asking index arrivals).1.Fed sink state := by
  induction arrivals generalizing r asking index with
  | nil =>
    rw [Run.drain]
    split
    · exact h.cancel
    · exact h.conclude _
  | cons x rest ih =>
    cases x with
    | waits => exact Fed.cancel (r := r.takeFire .waits) h
    | fires =>
      rw [Run.drain]
      split
      · exact h.cancel
      · exact ih (r := r.takeFire .fires) h true index
    | item x =>
      obtain ⟨next, v, hhandle, hstep⟩ := r.exists_step handlers sink index x
      have hnext : next.Fed sink state := Fed.step (r := r.take (.item x)) h hstep
      rw [Run.drain]
      split
      · exact h.cancel
      · simp only [hhandle]
        cases v with
        | none => exact ih hnext false (index + 1)
        | some v => exact hnext.conclude v

end Run.Fed

/-! ## Executions -/

/-- The events, the calls and the outcome of an execution belong together : one event
starts it, those in `middle` report what was taken from the stream, and one ends it. These are the
events that the sink is handed, which was in `state` before. -/
structure Report.Traced {σ : Type} (report : Report σ) (sink : Sink σ) (state : σ)
    (handlers : Behaviour) (runId : String) (parts : Pipeline) (arrivals : List Arrival)
    (middle : List Event) : Prop where
  events : report.run.events =
    .started runId parts.length (Pipeline.callbacks parts).length ::
      (middle ++ [report.outcome.event runId])
  /-- The sink is in the state that these events, sent one by one, make of its first. -/
  handed : report.run.sink = sink.after state
    (.started runId parts.length (Pipeline.callbacks parts).length ::
      (middle ++ [report.outcome.event runId]))
  only : ∀ e ∈ middle, e.isProgress
  /-- Nothing was taken out of turn. -/
  taken : report.run.taken <+: arrivals
  texts : middle.filterMap Event.text? = report.run.taken.filterMap Arrival.text?
  ascending : (middle.filterMap Event.dispatch?).Pairwise fun d e => d.1 < e.1
  inside : ∀ d ∈ middle.filterMap Event.dispatch?, d.2 < (Pipeline.callbacks parts).length
  delivered : (middle.filterMap Event.dispatch?).length = report.outcome.delivered
  calls : report.run.calls.length = report.outcome.delivered ∨
    report.run.calls.length = report.outcome.delivered + 1
  lastCall : report.run.calls.length = report.outcome.delivered + 1 ↔
    handlers.LastFails report.run.calls ∧
      ∃ label reason, report.outcome = .failed (.handler label reason) report.outcome.delivered

namespace Executor

variable {σ : Type} (x : Executor σ) (runId : String) (parts : Pipeline) (context : Context)
  (signal : Signal) (state : σ)

theorem reports_start : (x.start runId parts signal state).Reports x.handlers runId parts.length
    (Pipeline.callbacks parts).length 0 [] :=
  ⟨rfl, rfl, .nil _ _, rfl, eachAfter_nil, rfl⟩

/-- Every execution ends, even if its stream does not open. -/
theorem ended_execute : ∃ middle, (x.execute runId parts context signal state).run.Ended x.handlers
      runId parts.length (Pipeline.callbacks parts).length middle
      (x.execute runId parts context signal state).outcome ∧
    (x.execute runId parts context signal state).run.taken <+:
      (x.transport (request parts context)).opening.arrivals := by
  have hstart := x.reports_start runId parts signal state
  unfold execute
  split
  · exact ⟨[], hstart.ended (Run.closes_cancel x.sink _), List.nil_prefix⟩
  · have hopen := hstart.with_logs
    dsimp only
    cases (x.transport (request parts context)).opening with
    | stalled => exact ⟨[], (hopen _ _ _).ended (Run.closes_cancel x.sink _), List.nil_prefix⟩
    | refused cause =>
      exact ⟨[], (hopen _ _ _).ended (Run.closes_conclude x.sink _ (.error cause)),
        List.nil_prefix⟩
    | opened arrivals =>
      obtain ⟨middle, hended, rest, hrest⟩ := (hopen _ _ _).drain false arrivals
      exact ⟨middle, hended, rest, hrest⟩

/-- A sink gets the events of a run and nothing else. -/
theorem execute_fed :
    (x.execute runId parts context signal state).run.Fed x.sink state := by
  have hstart : (x.start runId parts signal state).Fed x.sink state := rfl
  unfold execute
  generalize x.start runId parts signal state = r at hstart ⊢
  split
  · exact hstart.cancel
  · let logged : Run σ := { r with logs := r.logs ++ (x.transport (request parts context)).logs }
    have hlogged : logged.Fed x.sink state := hstart
    dsimp only
    split
    · exact Run.Fed.cancel (r := { logged with signal := r.signal.fire }) hlogged
    · exact hlogged.conclude _
    · exact Run.Fed.drain (r := logged.enter .streaming) hlogged x.handlers false 0 _

/-- Each execution hands its events to the sink in order and once. -/
theorem execute_traced : ∃ middle, (x.execute runId parts context signal state).Traced x.sink state
    x.handlers runId parts (x.transport (request parts context)).opening.arrivals middle := by
  obtain ⟨middle, ⟨hevents, ⟨index, haccount⟩, hcalls⟩, htaken⟩ :=
    x.ended_execute runId parts context signal state
  have hfed : (x.execute runId parts context signal state).run.Fed x.sink state :=
    x.execute_fed runId parts context signal state
  rw [Run.Fed, hevents] at hfed
  exact ⟨middle, hevents, hfed, haccount.only, htaken, haccount.texts, haccount.ascending,
    fun d hd => (haccount.bounds d hd).2, haccount.delivered, hcalls.length,
    hcalls.length_eq_succ_iff⟩

end Executor

end MiningPipelines
