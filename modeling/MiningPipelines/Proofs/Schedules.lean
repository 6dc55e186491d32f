import MiningPipelines.Link
import MiningPipelines.Proofs.Stopping

/-!
# Schedules of a link

Engine and client share a bounded queue, and a schedule says who moves when. A move that
finds nothing to do changes nothing (`Link.Waits`), and `Link.Moves` says what any other
move does.

Whatever the schedule, what the client has taken, the queue, and what the engine has left
make up the script (`Link.Kept`), and what is still to come is what a client with the whole
script before it would do. A link whose ends move in turn comes to an end, since each move
that is no wait lowers `Link.work` and a link in which both ends wait has ended. The main
statement is `Executor.link_run` : the run that a schedule ends with is the run over the
script (`Engine.submit`), for every capacity and every schedule.
-/

namespace MiningPipelines

variable {σ : Type}

namespace Progress

/-- The run so far. -/
def run : Progress σ → Run σ
  | running _ r => r
  | ended r _ => r

/-- How the run ends when `rest` is all that is still to come. -/
def finish (handlers : Behaviour) (sink : Sink σ) : Progress σ → List Item → Run σ × Outcome
  | running index r, rest => r.drain handlers sink false index (rest.map .item)
  | ended r outcome, _ => (r, outcome)

end Progress

namespace Run

variable {handlers : Behaviour} {sink : Sink σ} {r : Run σ} {index : Nat}

theorem taken_conclude (sink : Sink σ) (r : Run σ) (v : Except Failure String) :
    (r.conclude sink v).1.taken = r.taken :=
  (r.closes_conclude sink v).taken

/-- An item that does not end the run lets the client ask for the next one. -/
theorem advance_of_continues {x : Item} {next : Run σ}
    (h : r.handleItem handlers sink index x = (next, none)) :
    r.advance handlers sink index (some x) = .running (index + 1) next := by
  simp only [advance, h]

/-- A verdict ends the run at once, with its report. -/
theorem advance_of_verdict {x : Item} {next : Run σ} {v : Except Failure String}
    (h : r.handleItem handlers sink index x = (next, some v)) :
    r.advance handlers sink index (some x) =
      .ended (next.conclude sink v).1 (next.conclude sink v).2 := by
  simp only [advance, h]

theorem taken_advance_some (x : Item) :
    (r.advance handlers sink index (some x)).run.taken = r.taken ++ [.item x] := by
  obtain ⟨next, v, hhandle, hstep⟩ := r.exists_step handlers sink index x
  have htaken : next.taken = r.taken ++ [.item x] := hstep.taken
  cases v with
  | none =>
    rw [advance_of_continues hhandle]
    exact htaken
  | some v =>
    rw [advance_of_verdict hhandle]
    exact (next.taken_conclude sink v).trans htaken

/-- A run whose signal has fired is cancelled, whatever is still to come. -/
theorem finish_of_fired (hfired : r.signal.fired = true) (rest : List Item) :
    (Progress.running index r).finish handlers sink rest = r.cancel sink := by
  have hcancel : (!false && r.signal.fired) = true := by simp [hfired]
  cases rest <;> exact if_pos hcancel

section NotFired

variable (hfired : r.signal.fired = false)

include hfired

/-- Taking an item first makes no difference to how the run ends. -/
theorem finish_advance_some (x : Item) (rest : List Item) :
    (r.advance handlers sink index (some x)).finish handlers sink rest =
      (Progress.running index r).finish handlers sink (x :: rest) := by
  obtain ⟨next, v, hhandle, -⟩ := r.exists_step handlers sink index x
  cases v with
  | none =>
    rw [advance_of_continues hhandle]
    exact (drain_of_continues sink hfired _ hhandle).symm
  | some v =>
    rw [advance_of_verdict hhandle]
    exact (drain_of_verdict sink hfired _ hhandle).symm

theorem finish_advance_none (rest : List Item) :
    (r.advance handlers sink index none).finish handlers sink rest =
      (Progress.running index r).finish handlers sink [] := by
  have hcancel : ¬(!false && r.signal.fired) = true := by simp [hfired]
  exact (if_neg hcancel).symm

end NotFired

end Run

namespace Agenda

/-- The items that the engine has still to send. -/
def left (engine : Engine) : Agenda → List Item
  | waiting request => engine.script request
  | sending left => left

/-- The requests that the engine has still to look at. -/
def pending : Agenda → List Wire.Request
  | waiting request => [request]
  | sending _ => []

end Agenda

namespace Link

/-! ## Moves -/

/-- There is nothing that this end could do now. -/
inductive Waits (l : Link σ) : Mover → Prop
  | stopped {left : List Item} {r : Run σ} {outcome : Outcome} :
      l.agenda = .sending left → l.progress = .ended r outcome → l.Waits .engine
  | sent : l.agenda = .sending [] → l.Waits .engine
  | full {left : List Item} : l.agenda = .sending left → l.capacity ≤ l.queue.length →
      l.Waits .engine
  | ended {r : Run σ} {outcome : Outcome} : l.progress = .ended r outcome → l.Waits .client
  | empty : l.queue = [] → l.agenda ≠ .sending [] → l.Waits .client

/-- What a move makes of a link. -/
inductive Moves (engine : Engine) (handlers : Behaviour) (sink : Sink σ) (l : Link σ) :
    Mover → Link σ → Prop
  | waits {mover : Mover} : l.Waits mover → l.Moves engine handlers sink mover l
  | looks {request : Wire.Request} : l.agenda = .waiting request →
      l.Moves engine handlers sink .engine
        { l with
          agenda := .sending (engine.script request)
          requests := l.requests ++ [request] }
  | sends {x : Item} {left : List Item} : l.agenda = .sending (x :: left) →
      l.queue.length < l.capacity →
      l.Moves engine handlers sink .engine
        { l with agenda := .sending left, queue := l.queue ++ [x] }
  | cancels {index : Nat} {r : Run σ} : l.progress = .running index r → r.signal.fired = true →
      l.Moves engine handlers sink .client
        { l with progress := .ended (r.cancel sink).1 (r.cancel sink).2 }
  | takes {index : Nat} {r : Run σ} {x : Item} {rest : List Item} :
      l.progress = .running index r → r.signal.fired = false → l.queue = x :: rest →
      l.Moves engine handlers sink .client
        { l with queue := rest, progress := r.advance handlers sink index (some x) }
  | finds {index : Nat} {r : Run σ} : l.progress = .running index r → r.signal.fired = false →
      l.queue = [] → l.agenda = .sending [] →
      l.Moves engine handlers sink .client
        { l with progress := r.advance handlers sink index none }

/-- The link after a move. -/
def move (engine : Engine) (handlers : Behaviour) (sink : Sink σ) (l : Link σ) : Mover → Link σ
  | .engine => l.moveEngine engine
  | .client => l.moveClient handlers sink

variable {engine : Engine} {handlers : Behaviour} {sink : Sink σ} {l l' : Link σ}

/-- What the engine does is one of its moves. -/
theorem moves_moveEngine (l : Link σ) :
    l.Moves engine handlers sink .engine (l.moveEngine engine) := by
  obtain ⟨capacity, _ | _ | ⟨x, left⟩, requests, queue, _ | _⟩ := l
  case sending.cons.running =>
    unfold moveEngine
    dsimp only
    split
    case isTrue hroom => exact .sends rfl hroom
    case isFalse hfull => exact .waits (.full rfl (Nat.le_of_not_lt hfull))
  case sending.cons.ended => exact .waits (.stopped rfl rfl)
  case sending.nil.running | sending.nil.ended => exact .waits (.sent rfl)
  case waiting.running | waiting.ended => exact .looks rfl

theorem moves_moveClient (l : Link σ) :
    l.Moves engine handlers sink .client (l.moveClient handlers sink) := by
  obtain ⟨capacity, agenda, requests, queue, ⟨index, r⟩ | _⟩ := l
  case ended => exact .waits (.ended rfl)
  unfold moveClient
  dsimp only
  split
  case isTrue hfired => exact .cancels rfl hfired
  case isFalse hfired =>
    have hnot : r.signal.fired = false := by simpa using hfired
    obtain _ | ⟨x, rest⟩ := queue
    case cons => exact .takes rfl hnot rfl
    obtain request | _ | ⟨y, left⟩ := agenda
    case waiting => exact .waits (.empty rfl (by simp))
    case sending.nil => exact .finds rfl hnot rfl rfl
    case sending.cons => exact .waits (.empty rfl (by simp))

variable (engine handlers sink) in
/-- Every end does one of its moves. -/
theorem moves_move (l : Link σ) (mover : Mover) :
    l.Moves engine handlers sink mover (l.move engine handlers sink mover) := by
  cases mover with
  | engine => exact l.moves_moveEngine
  | client => exact l.moves_moveClient

theorem run_append (l : Link σ) (schedule rest : List Mover) :
    l.run engine handlers sink (schedule ++ rest) =
      (l.run engine handlers sink schedule).run engine handlers sink rest := by
  rw [run, List.foldl_append]
  rfl

theorem run_cons (l : Link σ) (mover : Mover) (schedule : List Mover) :
    l.run engine handlers sink (mover :: schedule) =
      (l.move engine handlers sink mover).run engine handlers sink schedule := by
  cases mover <;> rfl

theorem run_append_singleton (l : Link σ) (schedule : List Mover) (mover : Mover) :
    l.run engine handlers sink (schedule ++ [mover]) =
      (l.run engine handlers sink schedule).move engine handlers sink mover := by
  rw [run_append, run_cons]
  rfl

/-! ## What every schedule keeps -/

/-- What the client has still to read. -/
def unread (engine : Engine) (l : Link σ) : List Item := l.queue ++ l.agenda.left engine

/-- Looking at the request does not change what is to be sent. -/
theorem unread_looks {request : Wire.Request} (h : l.agenda = .waiting request) :
    unread engine
      { l with
        agenda := .sending (engine.script request)
        requests := l.requests ++ [request] } = l.unread engine := by
  rw [unread, unread, h]
  rfl

/-- An item that is sent is still unread. -/
theorem unread_sends {x : Item} {left : List Item} (h : l.agenda = .sending (x :: left)) :
    unread engine { l with agenda := .sending left, queue := l.queue ++ [x] } =
      l.unread engine := by
  rw [unread, unread, h, Agenda.left, Agenda.left, List.append_assoc, List.singleton_append]

section Moves

variable {mover : Mover} (h : l.Moves engine handlers sink mover l')

include h

/-- A request is looked at or pending. -/
theorem Moves.requests :
    l'.requests ++ l'.agenda.pending = l.requests ++ l.agenda.pending := by
  cases h with
  | waits _ | cancels _ _ | takes _ _ _ | finds _ _ _ _ => rfl
  | looks hagenda =>
    rw [hagenda]
    exact List.append_nil _
  | sends hagenda _ =>
    rw [hagenda]
    rfl

/-- The queue stays within its capacity. -/
theorem Moves.room (hroom : l.queue.length ≤ l.capacity) :
    l'.capacity = l.capacity ∧ l'.queue.length ≤ l'.capacity := by
  cases h with
  | waits _ | looks _ | cancels _ _ | finds _ _ _ _ => exact ⟨rfl, hroom⟩
  | @sends x left _ hlt =>
    have hlength : (l.queue ++ [x]).length ≤ l.capacity := by
      rw [List.length_append]
      exact hlt
    exact ⟨rfl, hlength⟩
  | takes _ _ hqueue =>
    rw [hqueue] at hroom
    exact ⟨rfl, Nat.le_of_succ_le hroom⟩

/-- Items go from the front of what is unread to the end of what was taken, and none is lost or
there twice. -/
theorem Moves.taken : l'.progress.run.taken ++ (l'.unread engine).map .item =
    l.progress.run.taken ++ (l.unread engine).map .item := by
  cases h with
  | waits _ => rfl
  | looks hagenda => rw [unread_looks hagenda]
  | sends hagenda _ => rw [unread_sends hagenda]
  | cancels hprogress _ =>
    rw [hprogress]
    rfl
  | @takes index r x rest hprogress _ hqueue =>
    have htaken : (r.advance handlers sink index (some x)).run.taken = r.taken ++ [.item x] :=
      Run.taken_advance_some x
    rw [unread, unread, hprogress, hqueue, htaken, List.append_assoc]
    rfl
  | @finds index r hprogress _ _ _ =>
    have htaken : (r.advance handlers sink index none).run.taken = r.taken :=
      r.taken_conclude sink (.error (.protocol index .noFinalResult))
    rw [hprogress, htaken]
    rfl

/-- How the run ends when the client reads all that is unread does not depend on when it does. -/
theorem Moves.finish : l'.progress.finish handlers sink (l'.unread engine) =
    l.progress.finish handlers sink (l.unread engine) := by
  cases h with
  | waits _ => rfl
  | looks hagenda => rw [unread_looks hagenda]
  | sends hagenda _ => rw [unread_sends hagenda]
  | cancels hprogress hfired =>
    rw [hprogress, Run.finish_of_fired hfired]
    rfl
  | takes hprogress hfired hqueue =>
    rw [unread, unread, hprogress, hqueue]
    exact Run.finish_advance_some hfired _ _
  | finds hprogress hfired hqueue hagenda =>
    rw [unread, unread, hprogress, hqueue, hagenda]
    exact Run.finish_advance_none hfired _

end Moves

/-- What holds of a link after any moves, with the run `first` before the first item. -/
structure Kept (engine : Engine) (handlers : Behaviour) (sink : Sink σ) (capacity : Nat)
    (request : Wire.Request) (first : Run σ) (l : Link σ) : Prop where
  capacity_eq : l.capacity = max capacity 1
  room : l.queue.length ≤ l.capacity
  /-- The request is looked at once. -/
  requests : l.requests ++ l.agenda.pending = [request]
  /-- Before that nothing else happens. -/
  untouched : ∀ r, l.agenda = .waiting r → l.queue = [] ∧ l.progress = .running 0 first
  taken : l.progress.run.taken ++ (l.unread engine).map .item =
    (engine.script request).map .item
  /-- What is still to come is what comes of the whole script. -/
  finish : l.progress.finish handlers sink (l.unread engine) =
    first.drain handlers sink false 0 ((engine.script request).map .item)

variable {capacity : Nat} {request : Wire.Request} {first : Run σ}

/-- Before the first move everything is still to come. -/
theorem kept_start (htaken : first.taken = []) :
    (Link.start capacity request first).Kept engine handlers sink capacity request first where
  capacity_eq := rfl
  room := Nat.zero_le _
  requests := rfl
  untouched := fun _ _ => ⟨rfl, rfl⟩
  taken := congrArg (· ++ (engine.script request).map Arrival.item) htaken
  finish := rfl

/-- The client does nothing before the engine has looked at the request. -/
theorem Moves.untouched (hfirst : first.signal.fired = false) {mover : Mover}
    (hmove : l.Moves engine handlers sink mover l')
    (h : ∀ r, l.agenda = .waiting r → l.queue = [] ∧ l.progress = .running 0 first) :
    ∀ r, l'.agenda = .waiting r → l'.queue = [] ∧ l'.progress = .running 0 first := by
  intro looked hwaiting
  cases hmove with
  | waits _ => exact h looked hwaiting
  | looks _ | sends _ _ => cases hwaiting
  | cancels hprogress hfired =>
    obtain ⟨-, hrunning⟩ := h looked hwaiting
    obtain ⟨-, rfl⟩ := Progress.running.inj (hprogress.symm.trans hrunning)
    cases hfired.symm.trans hfirst
  | takes _ _ hqueue =>
    obtain ⟨hempty, -⟩ := h looked hwaiting
    cases hqueue.symm.trans hempty
  | finds _ _ _ hagenda => cases hagenda.symm.trans hwaiting

/-- One move keeps what the client has taken and is still to take. -/
theorem Kept.move (hfirst : first.signal.fired = false)
    (h : l.Kept engine handlers sink capacity request first) {mover : Mover}
    (hmove : l.Moves engine handlers sink mover l') :
    l'.Kept engine handlers sink capacity request first where
  capacity_eq := (hmove.room h.room).1.trans h.capacity_eq
  room := (hmove.room h.room).2
  requests := hmove.requests.trans h.requests
  untouched := hmove.untouched hfirst h.untouched
  taken := hmove.taken.trans h.taken
  finish := hmove.finish.trans h.finish

/-- A schedule keeps what each of its moves keeps. -/
theorem Kept.run (hfirst : first.signal.fired = false)
    (h : l.Kept engine handlers sink capacity request first) (schedule : List Mover) :
    (l.run engine handlers sink schedule).Kept engine handlers sink capacity request first := by
  induction schedule using List.reverseRecOn with
  | nil => exact h
  | append_singleton schedule mover ih =>
    rw [run_append_singleton]
    exact ih.move hfirst (moves_move _ _ _ _ mover)

/-- A run that has ended is the one over the script, and the engine has seen its request. -/
theorem Kept.of_ended (h : l.Kept engine handlers sink capacity request first) {r : Run σ}
    {outcome : Outcome} (hended : l.progress = .ended r outcome) :
    l.requests = [request] ∧
      (r, outcome) = first.drain handlers sink false 0 ((engine.script request).map .item) := by
  constructor
  · cases hagenda : l.agenda with
    | waiting looked =>
      obtain ⟨-, hrunning⟩ := h.untouched looked hagenda
      cases hended.symm.trans hrunning
    | sending left =>
      have hrequests := h.requests
      rw [hagenda] at hrequests
      exact (List.append_nil _).symm.trans hrequests
  · rw [← h.finish, hended]
    rfl

/-! ## Links that end -/

/-- How many moves there are to make : the engine looks once and sends each item, and the
client takes each item and ends once. -/
def work (engine : Engine) (l : Link σ) : Nat :=
  2 * (l.agenda.left engine).length + l.queue.length + l.agenda.pending.length +
    match l.progress with
    | .running _ _ => 1
    | .ended _ _ => 0

variable (handlers sink) in
theorem work_advance_le (r : Run σ) (index : Nat) (x : Option Item) :
    (match r.advance handlers sink index x with
      | .running _ _ => 1
      | .ended _ _ => 0) ≤ 1 := by
  cases r.advance handlers sink index x <;> simp

/-- A move either waits or leaves less to do. -/
theorem Moves.waits_or_work_lt {mover : Mover} (h : l.Moves engine handlers sink mover l') :
    (l' = l ∧ l.Waits mover) ∨ l'.work engine < l.work engine := by
  cases h with
  | waits hwaits => exact Or.inl ⟨rfl, hwaits⟩
  | looks hagenda =>
    right
    simp only [work, hagenda, Agenda.left, Agenda.pending, List.length_cons, List.length_nil]
    omega
  | sends hagenda _ =>
    right
    simp only [work, hagenda, Agenda.left, Agenda.pending, List.length_append, List.length_cons,
      List.length_nil]
    omega
  | cancels hprogress _ =>
    right
    simp only [work, hprogress]
    omega
  | @takes index r x rest hprogress _ hqueue =>
    right
    have hle := work_advance_le handlers sink r index (some x)
    simp only [work, hprogress, hqueue, List.length_cons]
    omega
  | @finds index r hprogress _ _ _ =>
    right
    simp only [work, hprogress, Run.advance]
    omega

/-- Ends that both wait have ended. -/
theorem exists_ended_of_waits (hcapacity : 0 < l.capacity) (hwaits : ∀ mover, l.Waits mover) :
    ∃ r outcome, l.progress = .ended r outcome := by
  cases hwaits .client with
  | ended hended => exact ⟨_, _, hended⟩
  | empty hqueue hagenda =>
    cases hwaits .engine with
    | stopped _ hended => exact ⟨_, _, hended⟩
    | sent hsent => exact absurd hsent hagenda
    | full _ hfull =>
      rw [hqueue] at hfull
      exact absurd hfull (Nat.not_le_of_lt hcapacity)

variable (engine handlers sink) in
/-- A schedule in which some end does not wait leaves less to do. -/
theorem run_waits_or_work_lt (l : Link σ) (schedule : List Mover) :
    (l.run engine handlers sink schedule = l ∧ ∀ mover ∈ schedule, l.Waits mover) ∨
      (l.run engine handlers sink schedule).work engine < l.work engine := by
  induction schedule using List.reverseRecOn with
  | nil => exact Or.inl ⟨rfl, List.forall_mem_nil _⟩
  | append_singleton schedule mover ih =>
    rw [run_append_singleton]
    have hmove := (l.run engine handlers sink schedule).moves_move engine handlers sink mover
    rcases ih with ⟨hsame, hwaits⟩ | hlt
    · rw [hsame] at hmove ⊢
      rcases hmove.waits_or_work_lt with ⟨hstays, hwaits'⟩ | hlt
      · refine Or.inl ⟨hstays, fun other hother => ?_⟩
        rcases List.mem_append.1 hother with hbefore | hlast
        · exact hwaits other hbefore
        · rw [List.mem_singleton.1 hlast]
          exact hwaits'
      · exact Or.inr hlt
    · right
      rcases hmove.waits_or_work_lt with ⟨hstays, -⟩ | hlt'
      · rw [hstays]
        exact hlt
      · exact Nat.lt_trans hlt' hlt

/-- No move changes a run that has ended. -/
theorem Moves.of_ended {r : Run σ} {outcome : Outcome} (hended : l.progress = .ended r outcome)
    {mover : Mover} (h : l.Moves engine handlers sink mover l') :
    l'.progress = .ended r outcome := by
  cases h with
  | waits _ | looks _ | sends _ _ => exact hended
  | cancels hrunning _ | takes hrunning _ _ | finds hrunning _ _ _ =>
    cases hended.symm.trans hrunning

/-- Once a run has ended, no schedule changes it. -/
theorem run_of_ended {r : Run σ} {outcome : Outcome} (hended : l.progress = .ended r outcome)
    (schedule : List Mover) :
    (l.run engine handlers sink schedule).progress = .ended r outcome := by
  induction schedule using List.reverseRecOn with
  | nil => exact hended
  | append_singleton schedule mover ih =>
    rw [run_append_singleton]
    exact (moves_move _ _ _ _ mover).of_ended ih

/-- In rounds in which both ends move, a link has ended when there have been as many rounds as
there were moves to make. -/
theorem Kept.exists_ended_of_rounds (hfirst : first.signal.fired = false)
    (h : l.Kept engine handlers sink capacity request first) {rounds : List (List Mover)}
    (hrounds : ∀ round ∈ rounds, ∀ mover, mover ∈ round)
    (hwork : l.work engine ≤ rounds.length) :
    ∃ r outcome, (l.run engine handlers sink rounds.flatten).progress = .ended r outcome := by
  induction rounds generalizing l with
  | nil =>
    cases hprogress : l.progress with
    | ended r outcome => exact ⟨r, outcome, hprogress⟩
    | running index r =>
      simp only [work, hprogress, List.length_nil] at hwork
      omega
  | cons round rounds ih =>
    rw [List.flatten_cons, run_append]
    -- In a round without work both ends wait, so the run has ended; any other leaves less to do.
    rcases l.run_waits_or_work_lt engine handlers sink round with ⟨hsame, hwaits⟩ | hlt
    · have hpositive : 0 < l.capacity := by
        rw [h.capacity_eq]
        exact Nat.lt_of_lt_of_le Nat.one_pos (Nat.le_max_right _ _)
      have hboth : ∀ mover, l.Waits mover :=
        fun mover => hwaits mover (hrounds round (List.mem_cons_self ..) mover)
      obtain ⟨r, outcome, hended⟩ := exists_ended_of_waits hpositive hboth
      rw [hsame]
      exact ⟨r, outcome, run_of_ended hended _⟩
    · refine ih (h.run hfirst round) (fun other hother => ?_) ?_
      · exact hrounds other (List.mem_cons_of_mem _ hother)
      · rw [List.length_cons] at hwork
        exact Nat.le_of_lt_succ (Nat.lt_of_lt_of_le hlt hwork)

end Link

/-! ## Executions over a link -/

namespace Executor

variable (x : Executor σ) (capacity : Nat) (runId : String) (parts : Pipeline) (context : Context)
  (state : σ)

/-- The link on which a pipeline is run, when the stream has been opened. -/
def link (signal : Signal) : Link σ :=
  .start capacity (request parts context) (x.streaming runId parts state signal [])

/-- Whatever the capacity and the schedule, the client takes the script from the front, item by
item, with the engine at most the capacity ahead. The engine looks at the request once. The
run that the schedule ends with is the run over the script, and it ends if the two ends move
in turn for long enough. -/
theorem link_run (engine : Engine) {signal : Signal} (hfired : signal.fired = false)
    (schedule : List Mover) :
    let script := engine.script (request parts context)
    let direct := { x with transport := engine.submit }.execute runId parts context signal state
    let l := (x.link capacity runId parts context state signal).run engine x.handlers x.sink
      schedule
    (∃ consumed, l.progress.run.taken = consumed.map .item ∧
      consumed ++ l.queue ++ l.agenda.left engine = script ∧
      (consumed ++ l.queue).length ≤ consumed.length + max capacity 1) ∧
    l.requests ++ l.agenda.pending = [request parts context] ∧
    (∀ r outcome, l.progress = .ended r outcome →
      l.requests = [request parts context] ∧ direct = ⟨outcome, r, true⟩) ∧
    ∀ rounds : List (List Mover), schedule = rounds.flatten →
      (∀ round ∈ rounds, ∀ mover, mover ∈ round) → 2 * script.length + 2 ≤ rounds.length →
      ∃ r outcome, l.progress = .ended r outcome := by
  intro script direct l
  have hstart : (x.link capacity runId parts context state signal).Kept engine x.handlers x.sink
      capacity (request parts context) (x.streaming runId parts state signal []) :=
    Link.kept_start rfl
  have hkept : l.Kept engine x.handlers x.sink capacity (request parts context)
      (x.streaming runId parts state signal []) := hstart.run hfired schedule
  obtain ⟨consumed, unread, hsplit, htaken, hunread⟩ := List.map_eq_append_iff.1 hkept.taken.symm
  obtain rfl : unread = l.unread engine :=
    List.map_inj_right (fun _ _ => Arrival.item.inj) |>.1 hunread
  refine ⟨⟨consumed, htaken.symm, ?_, ?_⟩, hkept.requests, fun r outcome hended => ?_, ?_⟩
  · rw [List.append_assoc]
    exact hsplit.symm
  · rw [List.length_append, ← hkept.capacity_eq]
    exact Nat.add_le_add_left hkept.room _
  · obtain ⟨hrequests, hdrain⟩ := hkept.of_ended hended
    have hdirect : direct = _ :=
      { x with transport := engine.submit }.execute_of_opened runId parts context state hfired rfl
    refine ⟨hrequests, hdirect.trans ?_⟩
    exact congrArg (fun d => (⟨d.2, d.1, true⟩ : Report σ)) hdrain.symm
  · rintro rounds rfl hrounds hlength
    have hwork : (x.link capacity runId parts context state signal).work engine =
        2 * script.length + 2 := rfl
    exact hstart.exists_ended_of_rounds hfired hrounds (Nat.le_trans (Nat.le_of_eq hwork) hlength)

/-- A queue with room for one item. The engine waits for the client in every round, and its last
item is never sent, since the client has ended before. -/
theorem link_run_full :
    let parts : Pipeline := [.operation ⟨"o", []⟩]
    let engine : Engine := .ofMessages [.log "a", .success "g", .log "b"]
    let x := replaying .once .tagged []
    let rounds := List.replicate 8 [Mover.engine, .engine, .client]
    let l := (x.link 0 "r" parts .empty () .never).run engine x.handlers x.sink rounds.flatten
    (l.agenda.left engine).length = 1 ∧
      ∃ r, l.progress = .ended r (.succeeded "g" 0) ∧ l.requests = [request parts .empty] ∧
        { x with transport := engine.submit }.execute "r" parts .empty .never () =
          ⟨.succeeded "g" 0, r, true⟩ := by
  intro parts engine x rounds l
  obtain ⟨-, -, hdirect, hturns⟩ :=
    x.link_run 0 "r" parts .empty () engine (rfl : Signal.never.fired = false) rounds.flatten
  have hrounds : ∀ round ∈ rounds, ∀ mover, mover ∈ round := by
    intro round hround mover
    rw [List.eq_of_mem_replicate hround]
    cases mover <;> simp
  obtain ⟨r, outcome, hended⟩ := hturns rounds rfl hrounds (Nat.le_refl 8)
  obtain ⟨hrequests, hreport⟩ := hdirect r outcome hended
  have houtcome : Outcome.succeeded "g" 0 = outcome := congrArg Report.outcome hreport
  subst houtcome
  exact ⟨by decide +kernel, r, hended, hrequests, hreport⟩

end Executor

end MiningPipelines
