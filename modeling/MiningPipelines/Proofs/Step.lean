import MiningPipelines.Proofs.Delivery

/-!
# One step of a run

What a run does with an item, said once for every proof about runs (`Run.Step`). A log
line is forwarded to the sink. A result goes to the handler of its callback, and the run
goes on unless that fails. Any other item ends the run, which keeps its state but for the
log, and an ended run reports its outcome once (`Run.Closes`).

What an item or a call means depends on those before it. A property of a sequence of this
kind is an `EachAfter`.
-/

namespace MiningPipelines

/-! ## Sequences -/

section EachAfter

variable {α : Type} {P : List α → α → Prop} {xs : List α} {x : α}

/-- Each element satisfies `P` behind those before it. -/
def EachAfter (P : List α → α → Prop) (xs : List α) : Prop :=
  ∀ before x rest, xs = before ++ x :: rest → P before x

theorem eachAfter_nil : EachAfter P [] := by
  intro before x rest h
  exact absurd h.symm (by simp)

/-- A longer sequence has one more element to look at, behind all others. -/
theorem eachAfter_append_singleton :
    EachAfter P (xs ++ [x]) ↔ EachAfter P xs ∧ P xs x := by
  constructor
  · intro h
    refine ⟨fun before y rest hsplit => ?_, h xs x [] rfl⟩
    exact h before y (rest ++ [x]) (by rw [hsplit]; simp)
  · rintro ⟨hxs, hx⟩ before y rest hsplit
    rcases List.eq_nil_or_concat rest with rfl | ⟨rest, z, rfl⟩
    · obtain ⟨rfl, hy⟩ := List.append_inj' hsplit rfl
      obtain rfl : x = y := List.singleton_inj.1 hy
      exact hx
    · rw [List.concat_eq_append, ← List.cons_append, ← List.append_assoc] at hsplit
      exact hxs before y rest (List.append_inj' hsplit rfl).1

end EachAfter

/-- Every call in a sequence of calls ended well. -/
def Behaviour.Accepts (handlers : Behaviour) (calls : List Call) : Prop :=
  EachAfter (fun before c => (c.handler.call (handlers.after before) c.values).result = .ok ())
    calls

/-- Calls that end well whatever was called before. -/
theorem Behaviour.accepts_of_forall {handlers : Behaviour} {calls : List Call}
    (h : ∀ c ∈ calls, ∀ before,
      (c.handler.call (handlers.after before) c.values).result = .ok ()) :
    handlers.Accepts calls := by
  rintro before c rest rfl
  exact h c (by simp) before

/-! ## Steps -/

/-- How many of its fields a message populates. -/
def Wire.Message.fieldCount (m : Wire.Message) : Nat :=
  [m.finalResult.isSome, m.partResult.isSome, m.logMessage.isSome].count true

namespace Run

variable {σ : Type}

/-- The answer of the handler of a callback to a result, at this point of the run. -/
def reply (handlers : Behaviour) (r : Run σ) (c : Callback) (result : Wire.PartResult) :
    Reply :=
  c.handler.call (handlers.after r.calls) result.contents

/-- The run after the handler of the callback at position `i` was called. -/
def called (handlers : Behaviour) (r : Run σ) (i : Nat) (c : Callback)
    (result : Wire.PartResult) (logs : List LogRecord) : Run σ :=
  { r with
    registry := r.registry.advance i
    signal := if (r.reply handlers c result).cancels then r.signal.fire else r.signal
    calls := r.calls ++ [⟨i, c.handler, result.contents⟩]
    logs := r.logs ++ logs }

/-- The run after the result with number `index` reached its handler. -/
def confirm (sink : Sink σ) (r : Run σ) (index i : Nat) (c : Callback) : Run σ :=
  { r with delivered := r.delivered + 1 }.emit sink (.dispatched r.id index i c.label)

/-- What a run does with the item that has number `index`. The last part is set when the
item ends the run. -/
inductive Step (handlers : Behaviour) (sink : Sink σ) (r : Run σ) (index : Nat) :
    Item → Run σ → Option (Except Failure String) → Prop
  | log (text : String) :
      Step handlers sink r index (.ok (.log text)) (r.emit sink (.logMessage r.id text)) none
  | delivered {result : Wire.PartResult} {i : Nat} {c : Callback} (logs : List LogRecord) :
      Wire.Entries.Decodable result.values → r.registry.route? result.tag = some (i, c) →
      (r.reply handlers c result).result = .ok () →
      Step handlers sink r index (.ok (.result result))
        ((r.called handlers i c result logs).confirm sink index i c) none
  | handlerFailed {result : Wire.PartResult} {i : Nat} {c : Callback} {reason : String}
      (logs : List LogRecord) :
      Wire.Entries.Decodable result.values → r.registry.route? result.tag = some (i, c) →
      (r.reply handlers c result).result = .error reason →
      Step handlers sink r index (.ok (.result result)) (r.called handlers i c result logs)
        (some (.error (.handler c.label reason)))
  | misrouted {result : Wire.PartResult} (logs : List LogRecord) :
      Wire.Entries.Decodable result.values → r.registry.route? result.tag = none →
      Step handlers sink r index (.ok (.result result)) { r with logs := r.logs ++ logs }
        (some (.error (.protocol index (r.registry.misrouted result.tag))))
  | undecodable {result : Wire.PartResult} {key : String} {cause : DecodeFault} :
      Wire.Entries.FirstFault result.values key cause →
      Step handlers sink r index (.ok (.result result)) r
        (some (.error (.protocol index (.undecodableValue key cause))))
  | final (f : Wire.FinalResult) :
      Step handlers sink r index (.ok ⟨some f, none, none⟩) r (some (verdict index f))
  | malformed (m : Wire.Message) : m.fieldCount ≠ 1 →
      Step handlers sink r index (.ok m) r (some (.error (.protocol index .notOneMessage)))
  | fault (cause : Failure) : Step handlers sink r index (.error cause) r (some (.error cause))

/-- What the run has taken from its stream changes when it takes an item, not when it handles it. -/
theorem Step.taken {handlers : Behaviour} {sink : Sink σ} {r r' : Run σ} {index : Nat} {x : Item}
    {v : Option (Except Failure String)} (h : Step handlers sink r index x r' v) :
    r'.taken = r.taken := by
  cases h <;> rfl

/-- An item that ends the run is in no event and counts as no delivery. -/
theorem Step.ended {handlers : Behaviour} {sink : Sink σ} {r r' : Run σ} {index : Nat} {x : Item}
    {v : Except Failure String} (h : Step handlers sink r index x r' (some v)) :
    r'.id = r.id ∧ r'.delivered = r.delivered ∧ r'.events = r.events ∧ r'.taken = r.taken := by
  cases h <;> exact ⟨rfl, rfl, rfl, rfl⟩

variable (handlers : Behaviour) (sink : Sink σ) (r : Run σ) (index : Nat)
  {result : Wire.PartResult}

/-- A result that goes to a callback is handed to its handler, whose answer decides. -/
theorem deliver_of_route {i : Nat} {c : Callback} (hd : Wire.Entries.Decodable result.values)
    (hroute : r.registry.route? result.tag = some (i, c)) : ∃ logs,
      ((r.reply handlers c result).result = .ok () →
        r.deliver handlers sink index result =
          ((r.called handlers i c result logs).confirm sink index i c, none)) ∧
      ∀ reason, (r.reply handlers c result).result = .error reason →
        r.deliver handlers sink index result =
          (r.called handlers i c result logs, some (.handler c.label reason)) := by
  have hvalues : decodeValues [] result.values = .ok result.contents :=
    decodeValues_of_decodable [] hd
  obtain ⟨logs, hdispatch⟩ := Registry.dispatch_of_route (handlers.after r.calls) index
    result.contents hroute
  refine ⟨logs, fun hreply => ?_, fun reason hreply => ?_⟩
  all_goals
    unfold reply at hreply
    unfold deliver
    rw [hvalues]
    simp only [hdispatch, Registry.answer, hreply]
    rfl

/-- A result for no callback is a fault of the protocol; no handler is called. -/
theorem deliver_of_no_route (hd : Wire.Entries.Decodable result.values)
    (hroute : r.registry.route? result.tag = none) :
    ∃ logs, r.deliver handlers sink index result =
      ({ r with logs := r.logs ++ logs },
        some (.protocol index (r.registry.misrouted result.tag))) := by
  have hvalues : decodeValues [] result.values = .ok result.contents :=
    decodeValues_of_decodable [] hd
  obtain ⟨logs, hdispatch⟩ := Registry.dispatch_of_no_route (handlers.after r.calls) index
    result.contents hroute
  refine ⟨logs, ?_⟩
  unfold deliver
  rw [hvalues]
  simp [hdispatch]

/-- A value that cannot be decoded is a fault of the protocol, before any callback is looked for. -/
theorem deliver_of_firstFault {key : String} {cause : DecodeFault}
    (hf : Wire.Entries.FirstFault result.values key cause) :
    r.deliver handlers sink index result =
      (r, some (.protocol index (.undecodableValue key cause))) := by
  unfold deliver
  rw [decodeValues_of_firstFault [] hf]

theorem handle_result : r.handle handlers sink index (.result result) =
    ((r.deliver handlers sink index result).1,
      (r.deliver handlers sink index result).2.map .error) := by
  rcases h : r.deliver handlers sink index result with ⟨next, _ | cause⟩ <;>
    simp only [Wire.Message.result, handle, h, Option.map_none, Option.map_some]

/-- A result is one step, whether it is delivered or not. -/
theorem step_result (result : Wire.PartResult) :
    Step handlers sink r index (.ok (.result result))
      (r.handle handlers sink index (.result result)).1
      (r.handle handlers sink index (.result result)).2 := by
  rw [handle_result]
  rcases Wire.Entries.decodable_or_firstFault result.values with hd | ⟨key, cause, hf⟩
  · cases hroute : r.registry.route? result.tag with
    | none =>
      obtain ⟨logs, h⟩ := r.deliver_of_no_route handlers sink index hd hroute
      rw [h]
      exact .misrouted logs hd hroute
    | some route =>
      obtain ⟨i, c⟩ := route
      obtain ⟨logs, haccepted, hrefused⟩ := r.deliver_of_route handlers sink index hd hroute
      cases hreply : (r.reply handlers c result).result with
      | ok _ =>
        rw [haccepted hreply]
        exact .delivered logs hd hroute hreply
      | error reason =>
        rw [hrefused reason hreply]
        exact .handlerFailed logs hd hroute hreply
  · rw [r.deliver_of_firstFault handlers sink index hf]
    exact .undecodable hf

/-- A message has to populate one field. -/
theorem handle_malformed {m : Wire.Message} (h : m.fieldCount ≠ 1) :
    r.handle handlers sink index m = (r, some (.error (.protocol index .notOneMessage))) := by
  obtain ⟨_ | _, _ | _, _ | _⟩ := m <;> first | rfl | exact absurd rfl h

/-- A run takes the item and does a step with it. -/
theorem exists_step (x : Item) : ∃ next v, r.handleItem handlers sink index x = (next, v) ∧
    Step handlers sink (r.take (.item x)) index x next v := by
  cases x with
  | error cause => exact ⟨_, _, rfl, .fault cause⟩
  | ok m =>
    by_cases h : m.fieldCount = 1
    · obtain ⟨_ | f, _ | result, _ | text⟩ := m <;> try cases h
      · exact ⟨_, _, rfl, .log text⟩
      · exact ⟨_, _, rfl, step_result handlers sink _ index result⟩
      · exact ⟨_, _, rfl, .final f⟩
    · exact ⟨_, _, handle_malformed handlers sink _ index h, .malformed m h⟩

end Run

/-! ## Ends -/

/-- The outcome of a run that ended with a verdict. -/
def Outcome.ofVerdict (delivered : Nat) : Except Failure String → Outcome
  | .ok executionId => .succeeded executionId delivered
  | .error cause => .failed cause delivered

/-- The event that reports how a run ended. -/
def Outcome.event (runId : String) : Outcome → Event
  | .succeeded executionId delivered => .succeeded runId executionId delivered
  | .failed cause _ => .failed runId cause.message
  | .cancelled delivered => .cancelled runId delivered

namespace Run

variable {σ : Type}

/-- The run `last` is `r` after its outcome was reported. -/
structure Closes (r last : Run σ) (o : Outcome) : Prop where
  events : last.events = r.events ++ [o.event r.id]
  taken : last.taken = r.taken
  calls : last.calls = r.calls
  delivered : o.delivered = r.delivered

theorem outcome_conclude (sink : Sink σ) (r : Run σ) (v : Except Failure String) :
    (r.conclude sink v).2 = .ofVerdict r.delivered v := by
  cases v <;> rfl

/-- A verdict is reported once, with the counts that the run has. -/
theorem closes_conclude (sink : Sink σ) (r : Run σ) (v : Except Failure String) :
    r.Closes (r.conclude sink v).1 (r.conclude sink v).2 := by
  cases v <;> exact ⟨rfl, rfl, rfl, rfl⟩

/-- A cancellation is reported once, with the number of results that were delivered. -/
theorem closes_cancel (sink : Sink σ) (r : Run σ) :
    r.Closes (r.cancel sink).1 (r.cancel sink).2 :=
  ⟨rfl, rfl, rfl, rfl⟩

end Run

end MiningPipelines
