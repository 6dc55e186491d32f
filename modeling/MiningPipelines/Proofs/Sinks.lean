import Mathlib.Data.List.Induction
import MiningPipelines.Proofs.Agreement
import MiningPipelines.Proofs.Trace

/-!
# What a sink is left with

A sink gets the events of a run and nothing else (`Executor.execute_fed`), and the events do not
depend on the sink (`Executor.execute_agrees`). So what a sink is left with follows from the trace
that a sink with room for everything collects : a bounded buffer keeps the front of it
(`EventBuffer.after_ofCapacity`), and nothing if its reader is gone.

`Executor.execute_withSink` puts these together : no sink changes the outcome or the calls of
a run, and a bounded buffer is left with the front of the trace.
-/

namespace MiningPipelines

variable {σ τ : Type}

namespace Sink

variable (events : List Event)

theorem after_collecting (before : List Event) :
    collecting.after before events = before ++ events := by
  induction events using List.reverseRecOn with
  | nil => exact (List.append_nil before).symm
  | append_singleton events e ih =>
    rw [after_append_singleton, ih, ← List.append_assoc]
    rfl

end Sink

namespace EventBuffer

variable {b : EventBuffer}

section Send

variable (e : Event)

theorem state_send_of_closed (h : b.isOpen = false) : (b.send e).state = b := by
  have hclosed : (!b.isOpen) = true := by simp [h]
  rw [send, if_pos hclosed]

theorem state_send_of_full (hopen : b.isOpen = true) (h : b.capacity ≤ b.events.length) :
    (b.send e).state = b := by
  have hnot : ¬(!b.isOpen) = true := by simp [hopen]
  rw [send, if_neg hnot, if_pos h]

theorem state_send_of_room (hopen : b.isOpen = true) (h : b.events.length < b.capacity) :
    (b.send e).state = { b with events := b.events ++ [e] } := by
  have hnot : ¬(!b.isOpen) = true := by simp [hopen]
  rw [send, if_neg hnot, if_neg (Nat.not_le_of_lt h)]

end Send

/-- A buffer whose reader is gone stays as it is. -/
theorem after_of_closed (h : b.isOpen = false) (events : List Event) :
    Sink.buffered.after b events = b := by
  induction events using List.reverseRecOn with
  | nil => rfl
  | append_singleton events e ih =>
    rw [Sink.after_append_singleton, ih]
    exact state_send_of_closed e h

/-- A buffer that nobody reads keeps the front of the events. -/
theorem after_ofCapacity (capacity : Nat) (events : List Event) :
    Sink.buffered.after (.ofCapacity capacity) events =
      ⟨max capacity 1, events.take (max capacity 1), true⟩ := by
  induction events using List.reverseRecOn with
  | nil => rw [List.take_nil]; rfl
  | append_singleton events e ih =>
    rw [Sink.after_append_singleton, ih]
    generalize max capacity 1 = room
    rcases Nat.lt_or_ge events.length room with hroom | hfull
    · have hkept : events.take room = events := List.take_of_length_le (Nat.le_of_lt hroom)
      have hall : (events ++ [e]).take room = events ++ [e] :=
        List.take_of_length_le (by rw [List.length_append]; exact hroom)
      rw [hkept, hall]
      exact state_send_of_room e rfl hroom
    · have hlength : (events.take room).length = room := List.length_take_of_le hfull
      rw [List.take_append_of_le_length hfull]
      exact state_send_of_full e rfl (Nat.le_of_eq hlength.symm)

end EventBuffer

namespace Executor

variable (x : Executor σ) (runId : String) (parts : Pipeline) (context : Context)
  (signal : Signal)

/-- The executor with another sink. -/
def withSink (sink : Sink τ) : Executor τ := ⟨x.transport, x.mode, sink, x.handlers⟩

/-- Whatever becomes of the events of a run, the outcome and the calls of handlers are the same.
What a sink collects are the events of the run, from the one that starts it to the one that reports
its outcome. A buffer that is read behind the run only holds as much of that trace as it has room
for, from the front, and one whose reader is gone holds nothing. -/
theorem execute_withSink (state : σ) (capacity : Nat) (b : EventBuffer) :
    let report := x.execute runId parts context signal state
    let trace := ((x.withSink .collecting).execute runId parts context signal []).run.sink
    let left := fun b => ((x.withSink .buffered).execute runId parts context signal b).run.sink
    (∀ {τ : Type} (sink : Sink τ) (state' : τ),
      let report' := (x.withSink sink).execute runId parts context signal state'
      report'.outcome = report.outcome ∧ report'.run.calls = report.run.calls) ∧
    trace = report.run.events ∧
    (∃ middle, trace = .started runId parts.length (Pipeline.callbacks parts).length ::
      (middle ++ [report.outcome.event runId])) ∧
    (left (.ofCapacity capacity)).events = trace.take (max capacity 1) ∧
    (left b.close).events = [] := by
  intro report trace left
  have hagrees : ∀ {τ : Type} (sink : Sink τ) (state' : τ),
      ((x.withSink sink).execute runId parts context signal state').Agrees report :=
    fun sink state' => execute_agrees (x := x.withSink sink) (y := x) rfl rfl runId parts context
      signal state' state rfl
  have htrace : trace = report.run.events := by
    have hfed := (x.withSink .collecting).execute_fed runId parts context signal []
    rw [Run.Fed, (hagrees _ _).run.events] at hfed
    exact hfed.trans (Sink.after_collecting report.run.events [])
  have hleft : ∀ b, left b = Sink.buffered.after b report.run.events := by
    intro b
    have hfed := (x.withSink .buffered).execute_fed runId parts context signal b
    rw [Run.Fed, (hagrees _ _).run.events] at hfed
    exact hfed
  obtain ⟨middle, hended, -⟩ := x.ended_execute runId parts context signal state
  refine ⟨fun sink state' => ?_, htrace, ⟨middle, htrace.trans hended.events⟩, ?_, ?_⟩
  · have h := hagrees sink state'
    exact ⟨h.outcome, h.run.calls⟩
  · rw [hleft, EventBuffer.after_ofCapacity, htrace]
  · rw [hleft, EventBuffer.after_of_closed rfl]
    rfl

end Executor

end MiningPipelines
