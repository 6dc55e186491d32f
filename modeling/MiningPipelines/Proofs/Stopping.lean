import Mathlib.Data.List.Induction
import MiningPipelines.Proofs.Step

/-!
# The item that ends a run

`Standing.Stops` says, without running anything, which items end a run and how : a fault
of the stream, a message that does not populate one field, a final result, and a result
that cannot be decoded, goes nowhere, or reaches a handler that fails. Whether a result
does depends on the items before it through the cursor and the calls so far, which
`Standing.after` computes.

Unless a signal fires, a run takes the items up to the first that stops it
(`Standing.FirstStop`), and its outcome is the verdict of that item. If none stops it, the
stream has ended too early. `Run.At` says where a run stands behind the items that it has
handled.
-/

namespace MiningPipelines

/-- The part result of a message that is nothing else. -/
def Item.result? : Item → Option Wire.PartResult
  | .ok ⟨none, some result, none⟩ => some result
  | _ => none

/-- The signal does not fire in a run with these handlers : it has not fired, and it has no
handle or no handler fires it. -/
def Behaviour.Quiet (handlers : Behaviour) (signal : Signal) : Prop :=
  signal.fired = false ∧
    (signal.held = false ∨ ∀ calls name values, (handlers.after calls name values).cancels = false)

theorem Behaviour.cancels_call {handlers : Behaviour}
    (h : ∀ calls name values, (handlers.after calls name values).cancels = false)
    (calls : List Call) (values : Values) (handler : Handler) :
    (handler.call (handlers.after calls) values).cancels = false := by
  cases handler with
  | named name => exact h calls name values
  | printTraces =>
    unfold Handler.call Reply.ofResult
    cases Handler.printTracesOf values <;> rfl
  | printCounts =>
    unfold Handler.call Reply.ofResult
    cases Handler.printCountsOf values <;> rfl

/-- A quiet signal stays so over the call of a handler. -/
theorem Behaviour.Quiet.called {σ : Type} {handlers : Behaviour} {r : Run σ}
    (h : handlers.Quiet r.signal) (i : Nat) (c : Callback) (result : Wire.PartResult)
    (logs : List LogRecord) : handlers.Quiet (r.called handlers i c result logs).signal := by
  obtain ⟨hfired, hheld | hcancels⟩ := h
  · have hfire : r.signal.fire.fired = false := by simp [Signal.fire, hfired, hheld]
    unfold Run.called
    split
    · exact ⟨hfire, Or.inl hheld⟩
    · exact ⟨hfired, Or.inl hheld⟩
  · have hreply := Behaviour.cancels_call hcancels r.calls result.contents c.handler
    unfold Run.called Run.reply
    rw [hreply]
    exact ⟨hfired, Or.inr hcancels⟩

/-- Why a result goes to no callback. -/
inductive Registry.Misroutes (r : Registry) : Option Tag → ProtocolFault → Prop
  | unknownTag {tag : Tag} : r.mode = .tagged → (∀ c ∈ r.callbacks, c.tag ≠ some tag) →
      r.Misroutes (some tag) (.unknownTag tag)
  | noneLeft {tag : Option Tag} : r.mode = .positional ∨ tag = none → r.size ≤ r.cursor →
      r.Misroutes tag (.tooManyResults r.size)

/-- What a run carries from one item to the next. -/
structure Standing where
  registry : Registry
  calls : List Call

namespace Standing

/-- Before the first item. -/
def start (parts : Pipeline) (mode : CorrelationMode) : Standing := ⟨.ofPipeline parts mode, []⟩

/-- After one more item. Only a result that goes to a callback counts. -/
def next (s : Standing) (x : Item) : Standing :=
  match x.result? with
  | none => s
  | some result =>
    match s.registry.route? result.tag with
    | none => s
    | some (i, c) => ⟨s.registry.advance i, s.calls ++ [⟨i, c.handler, result.contents⟩]⟩

/-- After more items. -/
def after (s : Standing) (items : List Item) : Standing := items.foldl next s

/-- The item that has number `index` ends the run, with this verdict. -/
inductive Stops (handlers : Behaviour) (s : Standing) (index : Nat) :
    Item → Except Failure String → Prop
  | fault (cause : Failure) : Stops handlers s index (.error cause) (.error cause)
  | notOneField (m : Wire.Message) : m.fieldCount ≠ 1 →
      Stops handlers s index (.ok m) (.error (.protocol index .notOneMessage))
  | success (executionId : String) :
      Stops handlers s index (.ok (.success executionId)) (.ok executionId)
  | remote (text : String) : Stops handlers s index (.ok (.failure text)) (.error (.remote text))
  | notOneOutcome (f : Wire.FinalResult) : f.success.isSome = f.error.isSome →
      Stops handlers s index (.ok ⟨some f, none, none⟩) (.error (.protocol index .notOneOutcome))
  | undecodable {result : Wire.PartResult} {key : String} {cause : DecodeFault} :
      Wire.Entries.FirstFault result.values key cause →
      Stops handlers s index (.ok (.result result))
        (.error (.protocol index (.undecodableValue key cause)))
  | misrouted {result : Wire.PartResult} {cause : ProtocolFault} :
      Wire.Entries.Decodable result.values → s.registry.Misroutes result.tag cause →
      Stops handlers s index (.ok (.result result)) (.error (.protocol index cause))
  | handlerFailed {result : Wire.PartResult} {i : Nat} {c : Callback} {reason : String} :
      Wire.Entries.Decodable result.values → s.registry.route? result.tag = some (i, c) →
      (c.handler.call (handlers.after s.calls) result.contents).result = .error reason →
      Stops handlers s index (.ok (.result result)) (.error (.handler c.label reason))

/-- None of the items ends the run. -/
def Passes (handlers : Behaviour) (s : Standing) (items : List Item) : Prop :=
  EachAfter (fun before y => ∀ v, ¬(s.after before).Stops handlers before.length y v) items

/-- The item `y` behind the items `before` is the first that ends the run. -/
structure FirstStop (handlers : Behaviour) (s : Standing) (items before : List Item) (y : Item)
    (v : Except Failure String) : Prop where
  split : ∃ rest, items = before ++ y :: rest
  passes : s.Passes handlers before
  stops : (s.after before).Stops handlers before.length y v

theorem after_append_singleton (s : Standing) (items : List Item) (x : Item) :
    s.after (items ++ [x]) = (s.after items).next x := by
  rw [after, List.foldl_append]
  rfl

variable {handlers : Behaviour} {s : Standing} {items : List Item}

theorem after_append_of_no_result {y : Item} (hy : y.result? = none) :
    s.after (items ++ [y]) = s.after items := by
  rw [after_append_singleton, next, hy]

theorem after_append_of_result {y : Item} {result : Wire.PartResult} {i : Nat} {c : Callback}
    (hy : y.result? = some result)
    (hroute : (s.after items).registry.route? result.tag = some (i, c)) :
    s.after (items ++ [y]) =
      ⟨(s.after items).registry.advance i,
        (s.after items).calls ++ [⟨i, c.handler, result.contents⟩]⟩ := by
  rw [after_append_singleton, next, hy]
  simp only [hroute]

/-- Either no item ends the run or there is a first that does. -/
theorem passes_or_firstStop (handlers : Behaviour) (s : Standing) (items : List Item) :
    s.Passes handlers items ∨ ∃ before y v, s.FirstStop handlers items before y v := by
  induction items using List.reverseRecOn with
  | nil => exact Or.inl eachAfter_nil
  | append_singleton items x ih =>
    rcases ih with hitems | ⟨before, y, v, ⟨rest, rfl⟩, hbefore, hy⟩
    · by_cases hx : ∃ v, (s.after items).Stops handlers items.length x v
      · obtain ⟨v, hx⟩ := hx
        exact Or.inr ⟨items, x, v, ⟨[], rfl⟩, hitems, hx⟩
      · exact Or.inl (eachAfter_append_singleton.2 ⟨hitems, fun v hv => hx ⟨v, hv⟩⟩)
    · exact Or.inr ⟨before, y, v, ⟨rest ++ [x], by simp⟩, hbefore, hy⟩

end Standing

theorem Registry.misroutes_iff {r : Registry} {tag : Option Tag} {cause : ProtocolFault} :
    r.Misroutes tag cause ↔ r.route? tag = none ∧ cause = r.misrouted tag := by
  have hleft : (if r.cursor < r.size then some r.cursor else none) = none ↔ r.size ≤ r.cursor := by
    simp
  rw [route?_eq_none_iff]
  unfold position? misrouted
  constructor
  · rintro (⟨hmode, hunknown⟩ | ⟨hmode | rfl, hsize⟩)
    · simp only [hmode]
      exact ⟨by simpa [indexOfTag?_eq] using hunknown, trivial⟩
    · simp only [hmode]
      exact ⟨hleft.2 hsize, trivial⟩
    · cases r.mode <;> exact ⟨hleft.2 hsize, rfl⟩
  · rintro ⟨hnone, rfl⟩
    cases hmode : r.mode <;> cases tag <;> simp only [hmode] at hnone ⊢
    case tagged.some tag => exact .unknownTag hmode (by simpa [indexOfTag?_eq] using hnone)
    case tagged.none => exact .noneLeft (Or.inr rfl) (hleft.1 hnone)
    all_goals exact .noneLeft (Or.inl hmode) (hleft.1 hnone)

namespace Standing

variable {handlers : Behaviour} {s : Standing} {index : Nat} {v : Except Failure String}

theorem not_stops_log (text : String) : ¬s.Stops handlers index (.ok (.log text)) v := by
  rintro ⟨⟩
  contradiction

/-- A result that reaches a handler which accepts it does not end the run. -/
theorem not_stops_result {result : Wire.PartResult} {i : Nat} {c : Callback}
    (hd : Wire.Entries.Decodable result.values)
    (hroute : s.registry.route? result.tag = some (i, c))
    (hreply : (c.handler.call (handlers.after s.calls) result.contents).result = .ok ()) :
    ¬s.Stops handlers index (.ok (.result result)) v := by
  intro h
  cases h with
  | notOneField _ hm => exact hm rfl
  | undecodable hf => exact hf.not_decodable hd
  | misrouted _ hmis => cases (Registry.misroutes_iff.1 hmis).1.symm.trans hroute
  | handlerFailed _ hroute' hreply' =>
    obtain ⟨rfl, rfl⟩ := Prod.mk.inj (Option.some.inj (hroute.symm.trans hroute'))
    cases hreply.symm.trans hreply'

end Standing

namespace Run

variable {σ : Type} {handlers : Behaviour} {sink : Sink σ} {s : Standing} {r : Run σ}

/-- An item stops a run exactly if handling it gives a verdict. -/
theorem stops_iff (hregistry : r.registry = s.registry) (hcalls : r.calls = s.calls)
    {index : Nat} {x : Item} {v : Except Failure String} :
    s.Stops handlers index x v ↔ (r.handleItem handlers sink index x).2 = some v := by
  obtain ⟨registry, calls⟩ := s
  obtain rfl : r.registry = registry := hregistry
  obtain rfl : r.calls = calls := hcalls
  constructor
  · rintro (_ | ⟨_, hm⟩ | _ | _ | ⟨⟨_ | _, _ | _⟩, hf⟩ | hf | ⟨hd, hmis⟩ | ⟨hd, hroute, hreply⟩)
    · rfl
    · rw [handleItem, handle_malformed _ _ _ _ hm]
    · rfl
    · rfl
    · rfl
    · cases hf
    · cases hf
    · rfl
    · rw [handleItem, handle_result, deliver_of_firstFault _ _ _ _ hf]
      rfl
    · obtain ⟨hroute, rfl⟩ := Registry.misroutes_iff.1 hmis
      obtain ⟨logs, h⟩ := deliver_of_no_route handlers sink (r.take (.item _)) index hd hroute
      rw [handleItem, handle_result, h]
      rfl
    · obtain ⟨logs, -, h⟩ := deliver_of_route handlers sink (r.take (.item _)) index hd hroute
      rw [handleItem, handle_result, h _ hreply]
      rfl
  · intro h
    obtain ⟨next, _, hhandle, hstep⟩ := r.exists_step handlers sink index x
    rw [hhandle] at h
    obtain rfl := h
    -- Only the steps that end a run are left, each for one of the reasons.
    cases hstep with
    | handlerFailed logs hd hroute hreply => exact .handlerFailed hd hroute hreply
    | misrouted logs hd hroute => exact .misrouted hd (Registry.misroutes_iff.2 ⟨hroute, rfl⟩)
    | undecodable hf => exact .undecodable hf
    | final f =>
      obtain ⟨_ | executionId, _ | text⟩ := f
      · exact .notOneOutcome _ rfl
      · exact .remote text
      · exact .success executionId
      · exact .notOneOutcome _ rfl
    | malformed m hm => exact .notOneField m hm
    | fault cause => exact .fault cause

/-- The run has handled the items and goes on. -/
structure At (handlers : Behaviour) (start : Standing) (items : List Item) (r : Run σ) :
    Prop where
  registry : r.registry = (start.after items).registry
  calls : r.calls = (start.after items).calls
  delivered : r.delivered = (items.filterMap Item.result?).length
  taken : r.taken = items.map .item
  quiet : handlers.Quiet r.signal

variable {start : Standing} {items : List Item}

/-- A run goes on behind an item that does not end it. -/
theorem At.step (h : r.At handlers start items) {x : Item} {next : Run σ}
    (hstep : Step handlers sink (r.take (.item x)) items.length x next none) :
    next.At handlers start (items ++ [x]) := by
  obtain ⟨hregistry, hcalls, hdelivered, htaken, hquiet⟩ := h
  have htaken' : (r.take (.item x)).taken = (items ++ [x]).map .item := by
    rw [List.map_append, ← htaken]
    rfl
  cases hstep with
  | log text =>
    have hafter : start.after (items ++ [.ok (.log text)]) = start.after items :=
      Standing.after_append_of_no_result rfl
    rw [← hafter] at hregistry hcalls
    refine ⟨hregistry, hcalls, ?_, htaken', hquiet⟩
    rw [List.filterMap_append, List.length_append, ← hdelivered]
    rfl
  | @delivered result i c logs hd hroute hreply =>
    have hafter : start.after (items ++ [.ok (.result result)]) = _ :=
      Standing.after_append_of_result rfl (hregistry ▸ hroute)
    refine ⟨?_, ?_, ?_, htaken', hquiet.called (r := r) i c result logs⟩
    · rw [hafter, ← hregistry]
      rfl
    · rw [hafter, ← hcalls]
      rfl
    · rw [List.filterMap_append, List.length_append, ← hdelivered]
      rfl

variable (sink)

section Drain

variable (hfired : r.signal.fired = false) {index : Nat} {x : Item} {next : Run σ}
  (rest : List Arrival)

include hfired

/-- A run in which the signal has not fired handles the next item and goes on. -/
theorem drain_of_continues (h : r.handleItem handlers sink index x = (next, none)) :
    r.drain handlers sink false index (.item x :: rest) =
      next.drain handlers sink false (index + 1) rest := by
  have hcancel : ¬(!false && r.signal.fired) = true := by simp [hfired]
  rw [drain, if_neg hcancel]
  simp only [h]

/-- A run in which the signal has not fired handles the next item and ends with it. -/
theorem drain_of_verdict {v : Except Failure String}
    (h : r.handleItem handlers sink index x = (next, some v)) :
    r.drain handlers sink false index (.item x :: rest) = next.conclude sink v := by
  have hcancel : ¬(!false && r.signal.fired) = true := by simp [hfired]
  rw [drain, if_neg hcancel]
  simp only [h]

end Drain

/-- A run comes through items that do not end it. -/
theorem exists_drain_of_passes (h : r.At handlers start [])
    (hpass : start.Passes handlers items) : ∃ next : Run σ, next.At handlers start items ∧
      ∀ rest, r.drain handlers sink false 0 (items.map .item ++ rest) =
        next.drain handlers sink false items.length rest := by
  induction items using List.reverseRecOn with
  | nil => exact ⟨r, h, fun rest => rfl⟩
  | append_singleton items x ih =>
    obtain ⟨hitems, hx⟩ := eachAfter_append_singleton.1 hpass
    obtain ⟨before, hbefore, hdrain⟩ := ih hitems
    obtain ⟨next, verdict, hhandle, hstep⟩ := before.exists_step handlers sink items.length x
    obtain rfl : verdict = none := by
      rw [Option.eq_none_iff_forall_ne_some]
      rintro v rfl
      exact hx v ((stops_iff hbefore.registry hbefore.calls).2 (congrArg Prod.snd hhandle))
    refine ⟨next, hbefore.step hstep, fun rest => ?_⟩
    rw [List.map_append, List.append_assoc, hdrain, List.length_append, List.map_singleton,
      List.singleton_append, drain_of_continues sink hbefore.quiet.1 rest hhandle,
      List.length_singleton]

/-- A run ends at the item that stops it, whatever stands behind. -/
theorem At.exists_drain_of_stops (h : r.At handlers start items) {y : Item}
    {v : Except Failure String} (hy : (start.after items).Stops handlers items.length y v) :
    ∃ last : Run σ, last.delivered = (items.filterMap Item.result?).length ∧
      last.taken = (items ++ [y]).map .item ∧ ∀ rest,
      r.drain handlers sink false items.length (.item y :: rest) = last.conclude sink v := by
  obtain ⟨last, _, hhandle, hstep⟩ := r.exists_step handlers sink items.length y
  have hsome : (r.handleItem handlers sink items.length y).2 = some v :=
    (stops_iff h.registry h.calls).1 hy
  rw [hhandle] at hsome
  obtain rfl := hsome
  obtain ⟨-, hdelivered, -, htaken⟩ := hstep.ended
  refine ⟨last, hdelivered.trans h.delivered, htaken.trans ?_, fun rest => ?_⟩
  · rw [List.map_append, ← h.taken]
    rfl
  · exact drain_of_verdict sink h.quiet.1 rest hhandle

end Run

/-! ## Whole executions -/

/-- Accepts the first result of a run only. -/
def Behaviour.once : Behaviour where
  after calls _ _ := if calls.isEmpty then .ok else ⟨.error "full", [], false⟩

namespace Executor

variable {σ : Type} (x : Executor σ) (runId : String) (parts : Pipeline) (context : Context)
  {signal : Signal} (state : σ) {logs : List LogRecord}

/-- Answers every request with the same items. -/
def replaying (handlers : Behaviour) (mode : CorrelationMode) (items : List Item) :
    Executor Unit :=
  ⟨fun _ => ⟨[], .opened (items.map .item)⟩, mode, .discarding, handlers⟩

/-- The run when its stream has been opened. -/
def streaming (signal : Signal) (logs : List LogRecord) : Run σ :=
  { x.start runId parts signal state with
    logs := (x.start runId parts signal state).logs ++ logs }.enter .streaming

theorem at_streaming (hquiet : x.handlers.Quiet signal) (logs : List LogRecord) :
    (x.streaming runId parts state signal logs).At x.handlers (.start parts x.mode) [] :=
  ⟨rfl, rfl, rfl, rfl, hquiet⟩

theorem execute_of_opened {arrivals : List Arrival} (hfired : signal.fired = false)
    (hopen : x.transport (request parts context) = ⟨logs, .opened arrivals⟩) :
    x.execute runId parts context signal state =
      let d := (x.streaming runId parts state signal logs).drain x.handlers x.sink false 0 arrivals
      ⟨d.2, d.1, true⟩ := by
  have hnot : ¬signal.fired = true := by simp [hfired]
  unfold execute
  rw [if_neg hnot, hopen]
  rfl

/-- The run comes through items that do not end it, whatever the stream holds next. -/
theorem exists_execute_of_passes (hquiet : x.handlers.Quiet signal) {items : List Item}
    (logs : List LogRecord) (hpass : (Standing.start parts x.mode).Passes x.handlers items) :
    ∃ r : Run σ, r.At x.handlers (.start parts x.mode) items ∧ ∀ transport rest,
      transport (request parts context) = ⟨logs, .opened (items.map .item ++ rest)⟩ →
      { x with transport }.execute runId parts context signal state =
        let d := r.drain x.handlers x.sink false items.length rest
        ⟨d.2, d.1, true⟩ := by
  obtain ⟨r, hr, hdrain⟩ :=
    Run.exists_drain_of_passes x.sink (x.at_streaming runId parts state hquiet logs) hpass
  refine ⟨r, hr, fun transport rest hopen => ?_⟩
  rw [← hdrain rest]
  exact { x with transport }.execute_of_opened runId parts context state hquiet.1 hopen

/-- An execution takes the items up to the first that ends it, and its outcome is the
verdict of this item. What stands behind changes nothing. If no item ends the run, the
stream has ended too early. -/
theorem execute_firstStop (hquiet : x.handlers.Quiet signal) {items : List Item}
    (hopen : x.transport (request parts context) = ⟨logs, .opened (items.map .item)⟩) :
    let start := Standing.start parts x.mode
    let report := x.execute runId parts context signal state
    (start.Passes x.handlers items ∨
      ∃ before y v, start.FirstStop x.handlers items before y v) ∧
    (start.Passes x.handlers items →
      report.outcome = .failed (.protocol items.length .noFinalResult)
        (items.filterMap Item.result?).length ∧
      report.run.taken = items.map .item) ∧
    ∀ before y v, start.FirstStop x.handlers items before y v →
      report.outcome = .ofVerdict (before.filterMap Item.result?).length v ∧
      report.run.taken = (before ++ [y]).map .item ∧
      ∀ transport rest,
        transport (request parts context) =
          ⟨logs, .opened (before.map .item ++ .item y :: rest)⟩ →
        { x with transport }.execute runId parts context signal state = report := by
  intro start report
  refine ⟨Standing.passes_or_firstStop _ _ _, fun hpass => ?_, ?_⟩
  · obtain ⟨r, hr, hexecute⟩ :=
      x.exists_execute_of_passes runId parts context state hquiet logs hpass
    have hreport : report = _ := hexecute x.transport [] (by rw [hopen, List.append_nil])
    have hend : r.drain x.handlers x.sink false items.length [] =
        r.conclude x.sink (.error (.protocol items.length .noFinalResult)) := by
      rw [Run.drain, hr.quiet.1]
      rfl
    rw [hreport, hend]
    exact ⟨by rw [← hr.delivered]; rfl, hr.taken⟩
  · rintro before y v ⟨⟨rest, rfl⟩, hpass, hstops⟩
    obtain ⟨r, hr, hexecute⟩ :=
      x.exists_execute_of_passes runId parts context state hquiet logs hpass
    obtain ⟨last, hdelivered, htaken, hdrain⟩ := hr.exists_drain_of_stops x.sink hstops
    have hreport : report = _ := hexecute x.transport (.item y :: rest.map .item)
      (by rw [hopen, List.map_append, List.map_cons])
    rw [hdrain] at hreport
    refine ⟨?_, ?_, fun transport rest' hopen' => ?_⟩
    · rw [hreport, ← hdelivered]
      exact last.outcome_conclude x.sink v
    · rw [hreport, ← htaken]
      exact (last.closes_conclude x.sink v).taken
    · rw [hexecute transport (.item y :: rest') hopen', hdrain, hreport]

/-- The second result of a run is refused, and the success behind it is never read. -/
theorem execute_once :
    let parts : Pipeline :=
      [.fetch "k" none (some (.named "f")), .fetch "l" none (some (.named "f"))]
    let answer : Wire.Message := .result ⟨none, []⟩
    let x := replaying .once .positional
      [.ok (.log "a"), .ok answer, .ok answer, .ok (.success "g")]
    let report := x.execute "r" parts .empty .armed ()
    report.outcome = .failed (.handler "Fetch(l)" "full") 1 ∧ report.run.taken.length = 3 := by
  intro parts answer x report
  have hquiet : x.handlers.Quiet .armed := by
    refine ⟨rfl, Or.inr fun calls name values => ?_⟩
    cases calls <;> rfl
  have hd : Wire.Entries.Decodable [] := List.forall_mem_nil _
  have hlog : (Standing.start parts .positional).Passes .once ([] ++ [.ok (.log "a")]) :=
    eachAfter_append_singleton.2 ⟨eachAfter_nil, fun v => Standing.not_stops_log "a"⟩
  have hpass : (Standing.start parts .positional).Passes .once ([.ok (.log "a")] ++ [.ok answer]) :=
    eachAfter_append_singleton.2 ⟨hlog, fun v => Standing.not_stops_result hd rfl rfl⟩
  have hstops : ((Standing.start parts .positional).after [.ok (.log "a"), .ok answer]).Stops
      .once 2 (.ok answer) (.error (.handler "Fetch(l)" "full")) :=
    .handlerFailed (i := 1) (c := ⟨none, "Fetch(l)", .named "f"⟩) hd rfl rfl
  obtain ⟨houtcome, htaken, -⟩ :=
    (execute_firstStop x "r" parts .empty () hquiet rfl).2.2 _ _ _ ⟨⟨_, rfl⟩, hpass, hstops⟩
  exact ⟨houtcome, congrArg List.length htaken⟩

end Executor

end MiningPipelines
