import MiningPipelines.Proofs.Built
import MiningPipelines.Proofs.Stopping

/-!
# Answers and the handlers they reach

An engine that reads a pipeline off the wire knows the fetches in wire order, with their
tags. It may answer by tag, in any order and as often as it likes, or send one answer
without a tag for each fetch, in wire order. Either way each answer reaches the handler of
the fetch that it was meant for, and the run succeeds once the engine says so.

If each result goes to some callback (`Standing.Routes`) and each call ends well, the run
succeeds (`Executor.execute_of_routes`). `Standing.Tagged` and `Standing.Untagged` are the
two kinds of answers for which this is so, and say which calls come of them.
-/

namespace MiningPipelines

/-- A log line, or a result that can be decoded. -/
inductive Item.Sound : Item → Prop
  | log (text : String) : Item.Sound (.ok (.log text))
  | result {result : Wire.PartResult} : Wire.Entries.Decodable result.values →
      Item.Sound (.ok (.result result))

namespace Standing

variable {s : Standing} {items : List Item}

/-- Each result goes to some callback. -/
def Routes (s : Standing) (items : List Item) : Prop :=
  EachAfter (fun before y => ∀ result, y.result? = some result →
    ∃ i c, (s.after before).registry.route? result.tag = some (i, c)) items

/-- Only the cursor of the registry moves. -/
theorem registry_after (s : Standing) (items : List Item) :
    ∃ cursor, (s.after items).registry = { s.registry with cursor := cursor } := by
  induction items using List.reverseRecOn with
  | nil => exact ⟨s.registry.cursor, rfl⟩
  | append_singleton items y ih =>
    obtain ⟨cursor, ih⟩ := ih
    rw [after_append_singleton, next]
    split
    · exact ⟨cursor, ih⟩
    · split
      · exact ⟨cursor, ih⟩
      · exact ⟨_, by rw [Registry.advance, ih]⟩

theorem callbacks_after (s : Standing) (items : List Item) :
    (s.after items).registry.callbacks = s.registry.callbacks := by
  obtain ⟨_, h⟩ := s.registry_after items
  rw [h]

theorem mode_after (s : Standing) (items : List Item) :
    (s.after items).registry.mode = s.registry.mode := by
  obtain ⟨_, h⟩ := s.registry_after items
  rw [h]

/-- Each call is that of some callback. -/
theorem index_lt_of_mem_calls (hcalls : s.calls = []) :
    ∀ call ∈ (s.after items).calls, call.index < s.registry.size := by
  induction items using List.reverseRecOn with
  | nil => simp [after, hcalls]
  | append_singleton items y ih =>
    cases hy : y.result? with
    | none =>
      rw [after_append_of_no_result hy]
      exact ih
    | some result =>
      cases hroute : (s.after items).registry.route? result.tag with
      | none =>
        rw [after_append_singleton, next, hy]
        simpa only [hroute] using ih
      | some route =>
        obtain ⟨i, c⟩ := route
        rw [after_append_of_result hy hroute]
        refine List.forall_mem_append.2 ⟨ih, List.forall_mem_singleton.2 ?_⟩
        have hi := (Registry.route?_eq_some_iff.1 hroute).2
        rw [callbacks_after] at hi
        exact (List.getElem?_eq_some_iff.1 hi).1

end Standing

/-! ## Answers by tag -/

namespace Registry

variable {r : Registry} {tag : Tag}

theorem exists_route_of_tag (hmode : r.mode = .tagged)
    (h : ∃ c ∈ r.callbacks, c.tag = some tag) : ∃ i c, r.route? (some tag) = some (i, c) := by
  cases hroute : r.route? (some tag) with
  | some route => exact ⟨route.1, route.2, rfl⟩
  | none =>
    exfalso
    obtain ⟨c, hc, htag⟩ := h
    rw [route?_eq_none_iff] at hroute
    simp only [position?, hmode, indexOfTag?_eq] at hroute
    exact absurd htag (by simpa using List.findIdx?_eq_none_iff.1 hroute c hc)

theorem tag_of_route (hmode : r.mode = .tagged) {i : Nat} {c : Callback}
    (h : r.route? (some tag) = some (i, c)) : c.tag = some tag := by
  obtain ⟨hi, hc⟩ := route?_eq_some_iff.1 h
  simp only [position?, hmode] at hi
  obtain ⟨d, hd, htag, -⟩ := indexOfTag?_eq_some_iff.1 hi
  rw [Option.some.inj (hc.symm.trans hd), htag]

end Registry

namespace Standing

variable {s : Standing} {items : List Item}

/-- Each result has the tag of a callback. -/
def Tagged (s : Standing) (items : List Item) : Prop :=
  ∀ result ∈ items.filterMap Item.result?, ∃ tag, result.tag = some tag ∧
    ∃ c ∈ s.registry.callbacks, c.tag = some tag

theorem Tagged.routes (h : s.Tagged items) (hmode : s.registry.mode = .tagged) :
    s.Routes items := by
  rintro before y rest rfl result hresult
  obtain ⟨tag, htag, hc⟩ := h result (List.mem_filterMap.2 ⟨y, by simp, hresult⟩)
  rw [htag]
  refine Registry.exists_route_of_tag ((s.mode_after before).trans hmode) ?_
  rwa [callbacks_after]

/-- The handler of a callback is called with the results that carry its tag, in order. -/
theorem Tagged.filter_calls (h : s.Tagged items) (hmode : s.registry.mode = .tagged)
    (hcalls : s.calls = []) (hnodup : (s.registry.callbacks.map Callback.tag).Nodup) {i : Nat}
    {c : Callback} (hc : s.registry.callbacks[i]? = some c) :
    (s.after items).calls.filter (fun call => call.index = i) =
      ((items.filterMap Item.result?).filter fun result => result.tag = c.tag).map
        fun result => ⟨i, c.handler, result.contents⟩ := by
  induction items using List.reverseRecOn with
  | nil => simp [after, hcalls]
  | append_singleton items y ih =>
    have hroutes := h.routes hmode
    have ih := ih fun result hresult => h result (by simp [hresult])
    cases hy : y.result? with
    | none =>
      rw [after_append_of_no_result hy, ih]
      simp [hy]
    | some result =>
      obtain ⟨tag, htag, -⟩ := h result (by simp [hy])
      obtain ⟨j, d, hroute⟩ := (eachAfter_append_singleton.1 hroutes).2 result hy
      rw [after_append_of_result hy hroute, List.filter_append, ih]
      have hd : s.registry.callbacks[j]? = some d := by
        rw [← callbacks_after s items]
        exact (Registry.route?_eq_some_iff.1 hroute).2
      rw [htag] at hroute
      have hdtag := Registry.tag_of_route ((s.mode_after items).trans hmode) hroute
      -- With different tags, the result goes to this callback exactly if it carries its tag.
      by_cases hij : j = i
      · obtain rfl := hij
        obtain rfl := Option.some.inj (hc.symm.trans hd)
        simp [hy, htag, hdtag]
      · have hne : c.tag ≠ some tag := by
          intro hctag
          have hjl : j < (s.registry.callbacks.map Callback.tag).length := by
            rw [List.length_map]
            exact (List.getElem?_eq_some_iff.1 hd).1
          refine hij ((List.getElem?_inj hjl hnodup).1 ?_)
          rw [List.getElem?_map, List.getElem?_map, hc, hd, Option.map_some, Option.map_some,
            hctag, hdtag]
        simp [hy, htag, hij, Ne.symm hne]

end Standing

/-! ## Answers by order -/

theorem Registry.exists_route_at_cursor {r : Registry} (h : r.cursor < r.size) :
    ∃ c, r.callbacks[r.cursor]? = some c ∧ r.route? none = some (r.cursor, c) := by
  have hposition : r.position? none = some r.cursor := by
    unfold position?
    cases r.mode <;> exact if_pos h
  exact exists_route_of_position hposition

namespace Standing

variable {s : Standing} {items : List Item}

/-- The call that a result makes if it goes to position `i`. -/
def callAt (s : Standing) (result : Wire.PartResult) (i : Nat) : Option Call :=
  s.registry.callbacks[i]?.map fun c => ⟨i, c.handler, result.contents⟩

/-- Results without tags, no more than there are callbacks. -/
structure Untagged (s : Standing) (items : List Item) : Prop where
  tags : ∀ result ∈ items.filterMap Item.result?, result.tag = none
  room : (items.filterMap Item.result?).length ≤ s.registry.size

/-- The cursor counts the results, and each result makes the call at the cursor. -/
theorem Untagged.after (h : s.Untagged items) (hcursor : s.registry.cursor = 0)
    (hcalls : s.calls = []) : s.Routes items ∧
      (s.after items).registry.cursor = (items.filterMap Item.result?).length ∧
      (s.after items).calls.map some =
        (items.filterMap Item.result?).zipIdx.map fun n => s.callAt n.1 n.2 := by
  induction items using List.reverseRecOn with
  | nil => exact ⟨eachAfter_nil, hcursor, by simp [Standing.after, hcalls]⟩
  | append_singleton items y ih =>
    obtain ⟨htags, hroom⟩ := h
    rw [List.filterMap_append] at htags hroom
    rw [List.length_append] at hroom
    obtain ⟨hroutes, hafter, hmap⟩ :=
      ih ⟨fun result hresult => htags result (List.mem_append_left _ hresult), by omega⟩
    cases hy : y.result? with
    | none =>
      rw [after_append_of_no_result hy, List.filterMap_append, List.filterMap_cons_none hy,
        List.filterMap_nil, List.append_nil]
      exact ⟨eachAfter_append_singleton.2 ⟨hroutes, by simp [hy]⟩, hafter, hmap⟩
    | some result =>
      have hsome : [y].filterMap Item.result? = [result] := List.filterMap_cons_some hy
      rw [hsome] at htags hroom
      have htag := htags result (List.mem_append_right _ (List.mem_singleton_self _))
      -- The cursor counts the results before this one, and there is a callback for each result.
      have hsize : (s.after items).registry.size = s.registry.size :=
        congrArg List.length (s.callbacks_after items)
      have hlt : (s.after items).registry.cursor < (s.after items).registry.size := by
        rw [hafter, hsize]
        exact hroom
      obtain ⟨c, hc, hroute⟩ := Registry.exists_route_at_cursor hlt
      rw [hafter] at hc hroute
      rw [callbacks_after] at hc
      rw [← htag] at hroute
      rw [after_append_of_result hy hroute, List.filterMap_append, hsome, List.zipIdx_append,
        List.map_append, List.map_append, hmap, List.length_append]
      refine ⟨eachAfter_append_singleton.2 ⟨hroutes, fun other hother => ?_⟩, ?_, ?_⟩
      · obtain rfl := Option.some.inj (hy.symm.trans hother)
        exact ⟨_, c, hroute⟩
      · simp [Registry.advance, hafter]
      · simp [callAt, hc]

end Standing

namespace Run

variable {σ : Type} {handlers : Behaviour} {start : Standing} {items : List Item} {r : Run σ}

/-- The call of a handler that fails is the last one. -/
theorem At.calls_of_failed (sink : Sink σ) (h : r.At handlers start items)
    {result : Wire.PartResult} {i : Nat} {c : Callback} {reason : String}
    (hd : Wire.Entries.Decodable result.values)
    (hroute : (start.after items).registry.route? result.tag = some (i, c))
    (hreply : (c.handler.call (handlers.after (start.after items).calls) result.contents).result =
      .error reason) (rest : List Arrival) :
    (r.drain handlers sink false items.length (.item (.ok (.result result)) :: rest)).1.calls =
      (start.after items).calls ++ [⟨i, c.handler, result.contents⟩] := by
  rw [← h.registry] at hroute
  rw [← h.calls] at hreply ⊢
  obtain ⟨logs, -, hdeliver⟩ :=
    deliver_of_route handlers sink (r.take (.item _)) items.length hd hroute
  have hhandle : r.handleItem handlers sink items.length (.ok (.result result)) =
      ((r.take (.item (.ok (.result result)))).called handlers i c result logs,
        some (.error (.handler c.label reason))) := by
    rw [handleItem, handle_result, hdeliver reason hreply]
    rfl
  rw [drain_of_verdict sink h.quiet.1 rest hhandle]
  rfl

/-- The run succeeds when the engine says so. -/
theorem At.drain_success (sink : Sink σ) (h : r.At handlers start items) (executionId : String)
    (rest : List Arrival) :
    let d := r.drain handlers sink false items.length (.item (.ok (.success executionId)) :: rest)
    d.2 = .succeeded executionId (items.filterMap Item.result?).length ∧
      d.1.calls = (start.after items).calls := by
  have hhandle : r.handleItem handlers sink items.length (.ok (.success executionId)) =
      (r.take (.item (.ok (.success executionId))), some (.ok executionId)) := rfl
  dsimp only
  rw [drain_of_verdict sink h.quiet.1 rest hhandle, ← h.delivered, ← h.calls]
  exact ⟨rfl, rfl⟩

end Run

/-- An operation with a pipeline of one fetch in its configuration. -/
def Operation.holding : Operation :=
  ⟨"o", [("p", .pipeline [.ofFetch ⟨"k", .string⟩ "a" (.named "f")])]⟩

theorem Operation.built_holding : Operation.holding.Built :=
  @Operation.Built.make [("p", .pipeline [.ofFetch ⟨"k", .string⟩ "a" (.named "f")])] _ "o" _
    (List.forall_mem_singleton.2 (List.forall_mem_singleton.2 (.fetch _ _ _))) rfl rfl

/-! ## Whole executions -/

namespace Executor

variable {σ : Type} (x : Executor σ) (runId : String) (parts : Pipeline) (context : Context)
  {signal : Signal} (state : σ) {items : List Item} {executionId : String}

/-- The engine answers a pipeline with `items` and then reports success. -/
structure Answers (items : List Item) (executionId : String) : Prop where
  sound : ∀ y ∈ items, y.Sound
  opened : ∃ logs rest, x.transport (request parts context) =
    ⟨logs, .opened (items.map .item ++ .item (.ok (.success executionId)) :: rest)⟩

/-- If each result goes to a callback and each call ends well, the run succeeds. -/
theorem execute_of_routes (hquiet : x.handlers.Quiet signal)
    (hanswers : x.Answers parts context items executionId)
    (hroutes : (Standing.start parts x.mode).Routes items)
    (haccepts : x.handlers.Accepts (x.execute runId parts context signal state).run.calls) :
    (x.execute runId parts context signal state).outcome =
        .succeeded executionId (items.filterMap Item.result?).length ∧
      (x.execute runId parts context signal state).run.calls =
        ((Standing.start parts x.mode).after items).calls := by
  obtain ⟨hsound, logs, rest, hopen⟩ := hanswers
  rcases Standing.passes_or_firstStop x.handlers (.start parts x.mode) items with
    hpass | ⟨before, y, v, ⟨left, rfl⟩, hpass, hstops⟩
  · obtain ⟨r, hr, hexecute⟩ :=
      x.exists_execute_of_passes runId parts context state hquiet logs hpass
    rw [hexecute x.transport _ hopen]
    exact hr.drain_success x.sink executionId rest
  · -- Only a handler that fails could end the run, and its call would be the last.
    exfalso
    obtain ⟨r, hr, hexecute⟩ :=
      x.exists_execute_of_passes runId parts context state hquiet logs hpass
    cases hsound y (by simp) with
    | log text => exact Standing.not_stops_log text hstops
    | @result result hd =>
      obtain ⟨i, c, hroute⟩ := hroutes before _ left rfl result rfl
      cases hreply : (c.handler.call
        (x.handlers.after ((Standing.start parts x.mode).after before).calls)
        result.contents).result with
      | ok _ => exact Standing.not_stops_result hd hroute hreply hstops
      | error reason =>
        have hrun := hexecute x.transport
          (.item (.ok (.result result)) ::
            (left.map .item ++ .item (.ok (.success executionId)) :: rest))
          (by rw [hopen]; simp)
        have hcalls : (x.execute runId parts context signal state).run.calls = _ :=
          (congrArg (fun report => report.run.calls) hrun).trans
            (hr.calls_of_failed x.sink hd hroute hreply _)
        rw [hcalls] at haccepts
        cases (eachAfter_append_singleton.1 haccepts).2.symm.trans hreply

variable {parts}

/-- An engine that answers fetches by their tags, in any order and as often as it likes,
reaches the handler of each fetch with the answers that carry its tag, in order. -/
theorem execute_tagged (hmode : x.mode = .tagged) (hquiet : x.handlers.Quiet signal)
    (hbuilt : Pipeline.Built parts)
    (hnodup : ((Wire.Pipeline.fetches (Pipeline.toWire parts)).map fun f => f.node.tag).Nodup)
    (hanswers : x.Answers parts context items executionId)
    (htags : ∀ result ∈ items.filterMap Item.result?,
      ∃ f ∈ Wire.Pipeline.fetches (Pipeline.toWire parts), result.tag = f.node.tag)
    (haccepts : x.handlers.Accepts (x.execute runId parts context signal state).run.calls) :
    let report := x.execute runId parts context signal state
    report.outcome = .succeeded executionId (items.filterMap Item.result?).length ∧
    (∀ i f, (Wire.Pipeline.fetches (Pipeline.toWire parts))[i]? = some f →
      ∃ handler, Pipeline.handlerAt? parts f.position = some handler ∧
        report.run.calls.filter (fun call => call.index = i) =
          ((items.filterMap Item.result?).filter fun result => result.tag = f.node.tag).map
            fun result => ⟨i, handler, result.contents⟩) ∧
    ∀ call ∈ report.run.calls,
      call.index < (Wire.Pipeline.fetches (Pipeline.toWire parts)).length := by
  have hhandled := hbuilt.handled
  have htagged : (Standing.start parts x.mode).Tagged items := by
    intro result hresult
    obtain ⟨f, hf, htag⟩ := htags result hresult
    obtain ⟨tag, hftag⟩ := Option.isSome_iff_exists.1 (hbuilt.tag_isSome hf)
    obtain ⟨handler, -, hcallback⟩ := hhandled.exists_callback hf
    refine ⟨tag, htag.trans hftag, ⟨f.node.tag, f.node.label, handler⟩, ?_, hftag⟩
    rw [show (Standing.start parts x.mode).registry.callbacks = _ from Pipeline.callbacks_eq parts]
    exact List.mem_filterMap.2 ⟨f, hf, hcallback⟩
  obtain ⟨houtcome, hcalls⟩ := x.execute_of_routes runId parts context state hquiet hanswers
    (htagged.routes hmode) haccepts
  refine ⟨houtcome, fun i f hf => ?_, ?_⟩
  · obtain ⟨handler, hhandler, hcallback⟩ := hhandled.callback hf
    refine ⟨handler, hhandler, ?_⟩
    rw [hcalls]
    exact htagged.filter_calls hmode rfl (hhandled.map_tag_callbacks ▸ hnodup) hcallback
  · rw [hcalls, ← hhandled.length_callbacks]
    exact Standing.index_lt_of_mem_calls rfl

/-- Two fetches, one of them in a configuration, are answered three times. -/
theorem execute_tagged_nested :
    let parts : Pipeline := [.operation .holding, .ofFetch ⟨"l", .string⟩ "b" (.named "g")]
    let x := replaying (fun _ _ => Reply.ok : String → Values → Reply) .tagged
      [.ok (.result ⟨some "b", []⟩), .ok (.log "t"), .ok (.result ⟨some "a", []⟩),
        .ok (.result ⟨some "b", []⟩), .ok (.success "e")]
    (x.execute "r" parts .empty .never ()).outcome = .succeeded "e" 3 := by
  intro parts x
  have hbuilt : Pipeline.Built parts := List.forall_mem_cons.2
    ⟨.operation Operation.built_holding, List.forall_mem_singleton.2 (.fetch _ _ _)⟩
  have hresult : ∀ tag, Item.Sound (.ok (.result ⟨tag, []⟩)) :=
    fun _ => .result (List.forall_mem_nil _)
  have hanswers : x.Answers parts .empty [.ok (.result ⟨some "b", []⟩), .ok (.log "t"),
      .ok (.result ⟨some "a", []⟩), .ok (.result ⟨some "b", []⟩)] "e" :=
    ⟨by simp [hresult, Item.Sound.log], [], [], rfl⟩
  have haccepts : x.handlers.Accepts (x.execute "r" parts .empty .never ()).run.calls :=
    Behaviour.accepts_of_forall (List.forall_mem_cons.2 ⟨fun _ => rfl,
      List.forall_mem_cons.2 ⟨fun _ => rfl, List.forall_mem_singleton.2 fun _ => rfl⟩⟩)
  exact (execute_tagged x "r" .empty () rfl ⟨rfl, Or.inl rfl⟩ hbuilt (by decide) hanswers
    (by decide) haccepts).1

end Executor

/-- The walk lists the callbacks in wire order : it appends that of each fetch on the wire
which has a handler, from left to right, and each position of the pipeline is met once. So
an engine that answers each fetch once, without tags and in wire order, reaches the handler
of each fetch with its answer, in either mode. -/
theorem Pipeline.walk_eq_wire_order (parts : Pipeline) :
    (∀ out, Pipeline.collect out parts = out ++
      (Wire.Pipeline.fetches (Pipeline.toWire parts)).filterMap (Pipeline.callback? parts)) ∧
    ((Wire.Pipeline.fetches (Pipeline.toWire parts)).map Placed.position).Nodup ∧
    (∀ pos p, Pipeline.at? pos parts = some p → p.isFetch →
      ⟨pos, p.toFetch⟩ ∈ Wire.Pipeline.fetches (Pipeline.toWire parts)) ∧
    ∀ {σ : Type} (x : Executor σ) (runId : String) (context : Context) (signal : Signal)
      (state : σ) (items : List Item) (executionId : String),
      Pipeline.Handled parts → x.handlers.Quiet signal →
      x.Answers parts context items executionId →
      (∀ result ∈ items.filterMap Item.result?, result.tag = none) →
      (items.filterMap Item.result?).length =
        (Wire.Pipeline.fetches (Pipeline.toWire parts)).length →
      x.handlers.Accepts (x.execute runId parts context signal state).run.calls →
      let report := x.execute runId parts context signal state
      report.outcome =
        .succeeded executionId (Wire.Pipeline.fetches (Pipeline.toWire parts)).length ∧
      report.run.calls.length = (Wire.Pipeline.fetches (Pipeline.toWire parts)).length ∧
      ∀ (i : Nat) (f : Placed Wire.Fetch) (result : Wire.PartResult),
        (Wire.Pipeline.fetches (Pipeline.toWire parts))[i]? = some f →
        (items.filterMap Item.result?)[i]? = some result →
        ∃ handler, Pipeline.handlerAt? parts f.position = some handler ∧
          report.run.calls[i]? = some ⟨i, handler, result.contents⟩ := by
  refine ⟨Pipeline.collect_eq_fetches parts, Pipeline.nodup_fetches parts,
    fun pos p hat hp => Pipeline.mem_fetches.2 ⟨p, hat, hp, rfl⟩, ?_⟩
  intro σ x runId context signal state items executionId hhandled hquiet hanswers htags hlength
    haccepts report
  have huntagged : (Standing.start parts x.mode).Untagged items :=
    ⟨htags, Nat.le_of_eq (hlength.trans hhandled.length_callbacks.symm)⟩
  obtain ⟨hroutes, -, hmap⟩ := huntagged.after rfl rfl
  obtain ⟨houtcome, hcalls⟩ :=
    x.execute_of_routes runId parts context state hquiet hanswers hroutes haccepts
  rw [← hcalls] at hmap
  refine ⟨hlength ▸ houtcome, ?_, fun i f result hf hresult => ?_⟩
  · simpa [hlength] using congrArg List.length hmap
  · obtain ⟨handler, hhandler, hcallback⟩ := hhandled.callback hf
    refine ⟨handler, hhandler, ?_⟩
    have hcall : (Standing.start parts x.mode).callAt result i =
        some ⟨i, handler, result.contents⟩ :=
      congrArg (Option.map _) hcallback
    have hi := congrArg (·[i]?) hmap
    simp only [List.getElem?_map, List.getElem?_zipIdx, hresult, Option.map_some] at hi
    rw [Nat.zero_add, hcall] at hi
    obtain ⟨call, hget, he⟩ := Option.map_eq_some_iff.1 hi
    exact hget.trans he

/-- The fetch inside the operation is answered before the one that follows it. -/
theorem Pipeline.walk_eq_wire_order_nested :
    let parts : Pipeline := [.parallel [.fetchAfter ["l"] .holding (some "b") (some (.named "g"))]]
    let x := Executor.replaying (fun _ _ => Reply.ok : String → Values → Reply) .positional
      [.ok (.result ⟨none, []⟩), .ok (.log "t"), .ok (.result ⟨none, []⟩), .ok (.success "e")]
    let report := x.execute "r" parts .empty .never ()
    report.outcome = .succeeded "e" 2 ∧
      report.run.calls.map Call.handler = [.named "f", .named "g"] := by
  intro parts x report
  have hbuilt : Pipeline.Built parts := List.forall_mem_singleton.2 (.parallel
    (List.forall_mem_singleton.2 (@Part.Built.fetchAfter [⟨"l", .string⟩] _ _ _ _
      Operation.built_holding rfl)))
  have hresult : Item.Sound (.ok (.result ⟨none, []⟩)) := .result (List.forall_mem_nil _)
  have hanswers : x.Answers parts .empty [.ok (.result ⟨none, []⟩), .ok (.log "t"),
      .ok (.result ⟨none, []⟩)] "e" :=
    ⟨by simp [hresult, Item.Sound.log], [], [], rfl⟩
  have haccepts : x.handlers.Accepts report.run.calls := Behaviour.accepts_of_forall
    (List.forall_mem_cons.2 ⟨fun _ => rfl, List.forall_mem_singleton.2 fun _ => rfl⟩)
  obtain ⟨houtcome, -, -⟩ := (Pipeline.walk_eq_wire_order parts).2.2.2 x "r" .empty .never () _ "e"
    hbuilt.handled ⟨rfl, Or.inl rfl⟩ hanswers (by decide) rfl haccepts
  exact ⟨houtcome, by decide⟩

end MiningPipelines
