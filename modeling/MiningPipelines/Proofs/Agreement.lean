import MiningPipelines.Proofs.Step

/-!
# Runs that agree

Two runs agree if they differ in their logs and in the states of their sinks only. No step looks at
these, so runs that agree and take the same from their streams still agree afterwards
(`Run.Agrees.drain`), and executors whose exchanges open in the same way report the same
(`Executor.execute_agrees`).
-/

namespace MiningPipelines

variable {σ τ : Type}

/-- The runs differ in their logs and in the states of their sinks only. -/
structure Run.Agrees (r : Run σ) (s : Run τ) : Prop where
  id : r.id = s.id
  phase : r.phase = s.phase
  delivered : r.delivered = s.delivered
  registry : r.registry = s.registry
  signal : r.signal = s.signal
  events : r.events = s.events
  calls : r.calls = s.calls
  taken : r.taken = s.taken

/-- The runs agree, and so does what comes with them. -/
def Run.AgreesWith {α : Type} (p : Run σ × α) (q : Run τ × α) : Prop :=
  p.1.Agrees q.1 ∧ p.2 = q.2

/-- The reports differ in the logs and in the states of the sinks only. -/
structure Report.Agrees (p : Report σ) (q : Report τ) : Prop where
  outcome : p.outcome = q.outcome
  run : p.run.Agrees q.run
  submitted : p.submitted = q.submitted

namespace Run

namespace Agrees

variable {r : Run σ} {s : Run τ}

theorem enter (h : r.Agrees s) (phase : Phase) : (r.enter phase).Agrees (s.enter phase) :=
  { h with phase := rfl }

/-- Sinks that differ may answer an event differently, and neither run looks at the answer. -/
theorem emit (h : r.Agrees s) (sink : Sink σ) (sink' : Sink τ) (e : Event) :
    (r.emit sink e).Agrees (s.emit sink' e) :=
  { h with events := congrArg (· ++ [e]) h.events }

theorem fire (h : r.Agrees s) :
    Run.Agrees { r with signal := r.signal.fire } { s with signal := s.signal.fire } :=
  { h with signal := congrArg Signal.fire h.signal }

theorem with_logs (h : r.Agrees s) (logs logs' : List LogRecord) :
    Run.Agrees { r with logs } { s with logs := logs' } :=
  { h with }

theorem take (h : r.Agrees s) (x : Arrival) : (r.take x).Agrees (s.take x) :=
  { h with taken := congrArg (· ++ [x]) h.taken }

theorem takeFire (h : r.Agrees s) (x : Arrival) : (r.takeFire x).Agrees (s.takeFire x) :=
  { (h.take x).fire with signal := congrArg Signal.fire h.signal }

/-- The outcome of a verdict counts what was delivered, which is the same on both sides. -/
theorem conclude (h : r.Agrees s) (sink : Sink σ) (sink' : Sink τ) (v : Except Failure String) :
    AgreesWith (r.conclude sink v) (s.conclude sink' v) := by
  cases v with
  | ok executionId =>
    rw [Run.conclude, Run.conclude, h.id, h.delivered]
    exact ⟨(h.enter .succeeded).emit sink sink' _, rfl⟩
  | error cause =>
    rw [Run.conclude, Run.conclude, h.id, h.delivered]
    exact ⟨(h.enter .failed).emit sink sink' _, rfl⟩

/-- Cancelled runs report what was delivered. -/
theorem cancel (h : r.Agrees s) (sink : Sink σ) (sink' : Sink τ) :
    AgreesWith (r.cancel sink) (s.cancel sink') := by
  rw [Run.cancel, Run.cancel, h.id, h.delivered]
  exact ⟨(h.enter .cancelled).emit sink sink' _, rfl⟩

/-- The registry answers both runs alike, and the handlers are called alike. -/
theorem deliver (h : r.Agrees s) (handlers : Behaviour) (sink : Sink σ) (sink' : Sink τ)
    (index : Nat) (result : Wire.PartResult) :
    AgreesWith (r.deliver handlers sink index result) (s.deliver handlers sink' index result) := by
  unfold Run.deliver
  cases decodeValues [] result.values with
  | error cause => exact ⟨h, rfl⟩
  | ok values =>
    simp only [h.id, h.delivered, h.registry, h.calls, h.signal]
    generalize s.registry.dispatch (handlers.after s.calls) index result.tag values = d
    cases d.result with
    | error cause =>
      exact ⟨{ h with id := rfl, delivered := rfl, registry := rfl, signal := rfl, calls := rfl },
        rfl⟩
    | ok p =>
      refine ⟨Agrees.emit ?_ sink sink' _, rfl⟩
      exact { h with id := rfl, delivered := rfl, registry := rfl, signal := rfl, calls := rfl }

/-- A message has the same effect on both runs but for what they log and where their events go. -/
theorem handle (h : r.Agrees s) (handlers : Behaviour) (sink : Sink σ) (sink' : Sink τ)
    (index : Nat) (m : Wire.Message) :
    AgreesWith (r.handle handlers sink index m) (s.handle handlers sink' index m) := by
  obtain ⟨_ | final, _ | result, _ | text⟩ := m
  case none.none.some =>
    rw [Run.handle, Run.handle, h.id]
    exact ⟨h.emit sink sink' _, rfl⟩
  case none.some.none =>
    obtain ⟨hrun, hstop⟩ := h.deliver handlers sink sink' index result
    have hresult : (⟨none, some result, none⟩ : Wire.Message) = .result result := rfl
    rw [hresult, handle_result, handle_result]
    exact ⟨hrun, congrArg (Option.map Except.error) hstop⟩
  all_goals exact ⟨h, rfl⟩

/-- Errors of the stream end both runs alike. -/
theorem handleItem (h : r.Agrees s) (handlers : Behaviour) (sink : Sink σ) (sink' : Sink τ)
    (index : Nat) (x : Item) :
    AgreesWith (r.handleItem handlers sink index x) (s.handleItem handlers sink' index x) := by
  cases x with
  | ok m => exact (h.take _).handle handlers sink sink' index m
  | error cause => exact ⟨h.take _, rfl⟩

/-- Runs that agree take the same from a stream, and end in the same way. -/
theorem drain (h : r.Agrees s) (handlers : Behaviour) (sink : Sink σ) (sink' : Sink τ)
    (asking : Bool) (index : Nat) (arrivals : List Arrival) :
    AgreesWith (r.drain handlers sink asking index arrivals)
      (s.drain handlers sink' asking index arrivals) := by
  induction arrivals generalizing r s asking index with
  | nil =>
    rw [Run.drain, Run.drain, h.signal]
    split
    · exact h.cancel sink sink'
    · exact h.conclude sink sink' _
  | cons x rest ih =>
    cases x with
    | waits => exact (h.takeFire .waits).cancel sink sink'
    | fires =>
      rw [Run.drain, Run.drain, h.signal]
      split
      · exact h.cancel sink sink'
      · exact ih (h.takeFire .fires) true index
    | item x =>
      have hitem := h.handleItem handlers sink sink' index x
      rw [Run.drain, Run.drain, h.signal]
      split
      · exact h.cancel sink sink'
      generalize r.handleItem handlers sink index x = p at hitem ⊢
      generalize s.handleItem handlers sink' index x = q at hitem ⊢
      obtain ⟨r', stop⟩ := p
      obtain ⟨s', stop'⟩ := q
      obtain ⟨hrun, rfl⟩ : r'.Agrees s' ∧ stop = stop' := hitem
      cases stop with
      | none => exact ih hrun false (index + 1)
      | some result => exact hrun.conclude sink sink' result

end Agrees

end Run

/-- Executors that differ in their sinks, and in what their transports log, report the same. -/
theorem Executor.execute_agrees {x : Executor σ} {y : Executor τ} (hmode : x.mode = y.mode)
    (hhandlers : x.handlers = y.handlers) (runId : String) (parts : Pipeline) (context : Context)
    (signal : Signal) (state : σ) (state' : τ)
    (hopening : (x.transport (request parts context)).opening =
      (y.transport (request parts context)).opening) :
    (x.execute runId parts context signal state).Agrees
      (y.execute runId parts context signal state') := by
  have hstart : (x.start runId parts signal state).Agrees (y.start runId parts signal state') := by
    rw [start, start, hmode]
    exact ⟨rfl, rfl, rfl, rfl, rfl, rfl, rfl, rfl⟩
  unfold execute
  generalize x.start runId parts signal state = r at hstart ⊢
  generalize y.start runId parts signal state' = s at hstart ⊢
  split
  · obtain ⟨hrun, houtcome⟩ := hstart.cancel x.sink y.sink
    exact ⟨houtcome, hrun, rfl⟩
  have hlogged := hstart.with_logs (r.logs ++ (x.transport (request parts context)).logs)
    (s.logs ++ (y.transport (request parts context)).logs)
  simp only [hopening, hhandlers]
  cases (y.transport (request parts context)).opening with
  | stalled =>
    obtain ⟨hrun, houtcome⟩ := hlogged.fire.cancel x.sink y.sink
    exact ⟨houtcome, hrun, rfl⟩
  | refused cause =>
    obtain ⟨hrun, houtcome⟩ := hlogged.conclude x.sink y.sink (.error cause)
    exact ⟨houtcome, hrun, rfl⟩
  | opened arrivals =>
    obtain ⟨hrun, houtcome⟩ :=
      (hlogged.enter .streaming).drain y.handlers x.sink y.sink false 0 arrivals
    exact ⟨houtcome, hrun, rfl⟩

end MiningPipelines
