import MiningPipelines.Proofs.Stopping
import MiningPipelines.Proofs.Trace

/-!
# Runs that are cancelled

What the caller's signal does to a run, whenever it fires : in a handler (`Standing.Fires`), while
the run waits for the stream or does not look at it (`Arrival.waits`), or in the same moment in
which the stream hands something over (`Arrival.fires`). `Standing.Interrupted` says how a run ends
in each case, without running anything : the item that is in hand when the signal fires is still
handled, and unless it ends the run, or the stream ends with it, the run is cancelled. What stands
behind plays no part.

Every sequence of arrivals is interrupted or not (`Standing.undisturbed_or_interrupted`). A run in
which the signal does not fire is the run of a signal that cannot fire (`Executor.execute_never`).
Nothing but the signal cancels a run, as long as the run does not wait for a signal that cannot
fire (`Executor.fired_of_cancelled`).
-/

namespace MiningPipelines

/-- The item that has arrived, if it is one. -/
def Arrival.item? : Arrival → Option Item
  | .item x => some x
  | _ => none

@[simp]
theorem Signal.canFire_fire (s : Signal) : s.fire.canFire = s.canFire := by
  cases s
  simp [canFire, fire]

/-- The item reaches a handler that fires the signal. -/
inductive Standing.Fires (handlers : Behaviour) (s : Standing) : Item → Prop
  | mk {result : Wire.PartResult} {i : Nat} {c : Callback} :
      Wire.Entries.Decodable result.values → s.registry.route? result.tag = some (i, c) →
      (c.handler.call (handlers.after s.calls) result.contents).cancels = true →
      Fires handlers s (.ok (.result result))

namespace Standing

/-- None of the items ends the run or makes a handler fire the signal. -/
structure Calm (handlers : Behaviour) (s : Standing) (items : List Item) : Prop where
  passes : s.Passes handlers items
  quiet : EachAfter (fun before y => ¬(s.after before).Fires handlers y) items

/-- The run ends before anything fires the signal. -/
inductive Undisturbed (handlers : Behaviour) (start : Standing) : List Arrival → Prop
  | ended {items : List Item} : start.Calm handlers items →
      Undisturbed handlers start (items.map .item)
  | stopped {before : List Item} {y : Item} {v : Except Failure String} (rest : List Arrival) :
      start.Calm handlers before → ¬(start.after before).Fires handlers y →
      (start.after before).Stops handlers before.length y v →
      Undisturbed handlers start (before.map .item ++ .item y :: rest)

/-- The signal fires before the run ends : which items the run consumes, and how it ends. -/
inductive Interrupted (handlers : Behaviour) (start : Standing) :
    List Arrival → List Item → Outcome → Prop
  /-- The stream hands nothing over before the signal is seen. -/
  | waiting {before : List Item} (n : Nat) (rest : List Arrival) : start.Calm handlers before →
      Interrupted handlers start (before.map .item ++ (List.replicate n .fires ++ .waits :: rest))
        before (.cancelled (before.filterMap Item.result?).length)
  /-- The item is handed over as the signal fires, or its handler fires the signal. -/
  | handled {before : List Item} {y : Item} (n : Nat) (rest : List Arrival) :
      start.Calm handlers before → 0 < n ∨ (start.after before).Fires handlers y →
      (∀ v, ¬(start.after before).Stops handlers before.length y v) →
      Interrupted handlers start
        (before.map .item ++ (List.replicate n .fires ++ .item y :: rest))
        (before ++ [y]) (.cancelled ((before ++ [y]).filterMap Item.result?).length)
  /-- That item ends the run itself. -/
  | stopped {before : List Item} {y : Item} {v : Except Failure String} (n : Nat)
      (rest : List Arrival) :
      start.Calm handlers before → 0 < n ∨ (start.after before).Fires handlers y →
      (start.after before).Stops handlers before.length y v →
      Interrupted handlers start
        (before.map .item ++ (List.replicate n .fires ++ .item y :: rest))
        (before ++ [y]) (.ofVerdict (before.filterMap Item.result?).length v)
  /-- The stream ends as the signal fires. -/
  | exhausted {before : List Item} (n : Nat) : start.Calm handlers before →
      Interrupted handlers start (before.map .item ++ List.replicate (n + 1) .fires) before
        (.failed (.protocol before.length .noFinalResult) (before.filterMap Item.result?).length)

variable {handlers : Behaviour} {start : Standing} {items : List Item}

theorem calm_nil : start.Calm handlers [] := ⟨eachAfter_nil, eachAfter_nil⟩

theorem calm_append_singleton {x : Item} : start.Calm handlers (items ++ [x]) ↔
    start.Calm handlers items ∧ (∀ v, ¬(start.after items).Stops handlers items.length x v) ∧
      ¬(start.after items).Fires handlers x := by
  constructor
  · rintro ⟨hpass, hquiet⟩
    obtain ⟨hpass, hx⟩ := eachAfter_append_singleton.1 hpass
    obtain ⟨hquiet, hfires⟩ := eachAfter_append_singleton.1 hquiet
    exact ⟨⟨hpass, hquiet⟩, hx, hfires⟩
  · rintro ⟨⟨hpass, hquiet⟩, hx, hfires⟩
    exact ⟨eachAfter_append_singleton.2 ⟨hpass, hx⟩, eachAfter_append_singleton.2 ⟨hquiet, hfires⟩⟩

/-- What stands behind the moments at which the signal fires. -/
theorem exists_replicate_fires : ∀ arrivals : List Arrival, ∃ n,
    arrivals = List.replicate n .fires ∨
      ∃ rest, arrivals = List.replicate n .fires ++ .waits :: rest ∨
        ∃ y, arrivals = List.replicate n .fires ++ .item y :: rest
  | [] => ⟨0, .inl rfl⟩
  | .waits :: rest => ⟨0, .inr ⟨rest, .inl rfl⟩⟩
  | .item y :: rest => ⟨0, .inr ⟨rest, .inr ⟨y, rfl⟩⟩⟩
  | .fires :: arrivals => by
    obtain ⟨n, rfl | ⟨rest, rfl | ⟨y, rfl⟩⟩⟩ := exists_replicate_fires arrivals
    · exact ⟨n + 1, .inl rfl⟩
    · exact ⟨n + 1, .inr ⟨rest, .inl rfl⟩⟩
    · exact ⟨n + 1, .inr ⟨rest, .inr ⟨y, rfl⟩⟩⟩

/-- Either the run ends before anything fires the signal, or the signal interrupts it. -/
theorem undisturbed_or_interrupted (hcalm : start.Calm handlers items) (arrivals : List Arrival) :
    Undisturbed handlers start (items.map .item ++ arrivals) ∨
      ∃ consumed o, Interrupted handlers start (items.map .item ++ arrivals) consumed o := by
  induction arrivals generalizing items with
  | nil =>
    rw [List.append_nil]
    exact .inl (.ended hcalm)
  | cons x rest ih =>
    cases x with
    | waits => exact .inr ⟨_, _, .waiting 0 rest hcalm⟩
    | fires =>
      -- Firing again makes no difference, so what counts is what comes behind all of it.
      obtain ⟨n, hn | ⟨tail, hn | ⟨y, hn⟩⟩⟩ := exists_replicate_fires (.fires :: rest)
      · cases n with
        | zero => cases hn
        | succ n =>
          rw [hn]
          exact .inr ⟨_, _, .exhausted n hcalm⟩
      · rw [hn]
        exact .inr ⟨_, _, .waiting n tail hcalm⟩
      · have hpos : 0 < n := by
          cases n with
          | zero => cases hn
          | succ n => exact Nat.succ_pos n
        rw [hn]
        by_cases hstops : ∃ v, (start.after items).Stops handlers items.length y v
        · obtain ⟨v, hv⟩ := hstops
          exact .inr ⟨_, _, .stopped n tail hcalm (.inl hpos) hv⟩
        · exact .inr ⟨_, _, .handled n tail hcalm (.inl hpos) (not_exists.1 hstops)⟩
    | item y =>
      by_cases hfires : (start.after items).Fires handlers y <;>
        by_cases hstops : ∃ v, (start.after items).Stops handlers items.length y v
      · obtain ⟨v, hv⟩ := hstops
        exact .inr ⟨_, _, .stopped 0 rest hcalm (.inr hfires) hv⟩
      · exact .inr ⟨_, _, .handled 0 rest hcalm (.inr hfires) (not_exists.1 hstops)⟩
      · obtain ⟨v, hv⟩ := hstops
        exact .inl (.stopped rest hcalm hfires hv)
      · have hnext := ih (calm_append_singleton.2 ⟨hcalm, not_exists.1 hstops, hfires⟩)
        rw [List.map_append, List.append_assoc] at hnext
        exact hnext

end Standing

namespace Run

variable {σ : Type}

/-- The run with a signal that nothing can fire. -/
def muted (r : Run σ) : Run σ := { r with signal := .never }

end Run

/-- The report of the run with a signal that nothing can fire. -/
def Report.muted {σ : Type} (report : Report σ) : Report σ :=
  { report with run := report.run.muted }

/-! ## Without the signal -/

namespace Run

variable {σ : Type} {handlers : Behaviour} {sink : Sink σ} {r : Run σ}

theorem deliver_muted (index : Nat) (result : Wire.PartResult) :
    r.muted.deliver handlers sink index result =
      ((r.deliver handlers sink index result).1.muted,
        (r.deliver handlers sink index result).2) := by
  unfold deliver
  cases decodeValues [] result.values with
  | error cause => rfl
  | ok values =>
    simp only [muted]
    cases (r.registry.dispatch (handlers.after r.calls) index result.tag values).result with
    | error cause => simp [Signal.never, Signal.fire]
    | ok route => simp [emit, Signal.never, Signal.fire]

/-- Handling an item has the same effect whatever the signal, except on the signal. -/
theorem handleItem_muted (index : Nat) (x : Item) :
    r.muted.handleItem handlers sink index x =
      ((r.handleItem handlers sink index x).1.muted,
        (r.handleItem handlers sink index x).2) := by
  cases x with
  | error cause => rfl
  | ok m =>
    by_cases h : m.fieldCount = 1
    · obtain ⟨_ | f, _ | result, _ | text⟩ := m <;> try cases h
      · rfl
      · have htake : (r.muted.take (.item (.ok (.result result)))) =
            (r.take (.item (.ok (.result result)))).muted := rfl
        change r.muted.handleItem handlers sink index (.ok (.result result)) =
          ((r.handleItem handlers sink index (.ok (.result result))).1.muted,
            (r.handleItem handlers sink index (.ok (.result result))).2)
        rw [handleItem, handleItem, handle_result, handle_result, htake, deliver_muted]
      · rfl
    · have hhandle : ∀ s : Run σ, s.handleItem handlers sink index (.ok m) =
          (s.take (.item (.ok m)), some (.error (.protocol index .notOneMessage))) := fun s =>
        handle_malformed handlers sink _ index h
      rw [hhandle, hhandle]
      rfl

/-- The signal fires in a step exactly if a handler fires it. -/
theorem Step.signal {index : Nat} {x : Item} {next : Run σ} {v : Option (Except Failure String)}
    (h : Step handlers sink r index x next v) :
    (Standing.mk r.registry r.calls).Fires handlers x ∧ next.signal = r.signal.fire ∨
      ¬(Standing.mk r.registry r.calls).Fires handlers x ∧ next.signal = r.signal := by
  have hcalled : ∀ {result : Wire.PartResult} {i : Nat} {c : Callback} (logs : List LogRecord),
      Wire.Entries.Decodable result.values → r.registry.route? result.tag = some (i, c) →
      (Standing.mk r.registry r.calls).Fires handlers (.ok (.result result)) ∧
          (r.called handlers i c result logs).signal = r.signal.fire ∨
        ¬(Standing.mk r.registry r.calls).Fires handlers (.ok (.result result)) ∧
          (r.called handlers i c result logs).signal = r.signal := by
    intro result i c logs hd hroute
    cases hcancels : (r.reply handlers c result).cancels with
    | true => exact .inl ⟨.mk hd hroute hcancels, by simp [called, hcancels]⟩
    | false =>
      refine .inr ⟨?_, by simp [called, hcancels]⟩
      rintro ⟨-, hroute', hfires⟩
      obtain ⟨rfl, rfl⟩ := Prod.mk.inj (Option.some.inj (hroute.symm.trans hroute'))
      cases hcancels.symm.trans hfires
  cases h with
  | delivered logs hd hroute hreply => exact hcalled logs hd hroute
  | handlerFailed logs hd hroute hreply => exact hcalled logs hd hroute
  | misrouted logs hd hroute =>
    refine .inr ⟨?_, rfl⟩
    rintro ⟨-, hroute', -⟩
    cases hroute.symm.trans hroute'
  | undecodable hf =>
    refine .inr ⟨?_, rfl⟩
    rintro ⟨hd, -, -⟩
    exact hf.not_decodable hd
  | malformed m hm =>
    refine .inr ⟨?_, rfl⟩
    rintro ⟨-, -, -⟩
    exact hm rfl
  | log text => exact .inr ⟨nofun, rfl⟩
  | final f => exact .inr ⟨nofun, rfl⟩
  | fault cause => exact .inr ⟨nofun, rfl⟩

theorem signal_conclude (r : Run σ) (v : Except Failure String) :
    (r.conclude sink v).1.signal = r.signal := by
  cases v <;> rfl

/-- A signal that has fired stays so. -/
theorem fired_drain (h : r.signal.fired = true) (asking : Bool) (index : Nat)
    (arrivals : List Arrival) :
    (r.drain handlers sink asking index arrivals).1.signal.fired = true := by
  induction arrivals generalizing r asking index with
  | nil =>
    rw [drain]
    split
    · exact h
    · rw [signal_conclude, h]
  | cons x rest ih =>
    have hfire : r.signal.fire.fired = true := by simp [Signal.fire, h]
    cases x with
    | waits => exact hfire
    | fires =>
      rw [drain]
      split
      · exact h
      · exact ih hfire true index
    | item x =>
      rw [drain]
      split
      · exact h
      obtain ⟨next, verdict, hhandle, hstep⟩ := r.exists_step handlers sink index x
      have hnext : next.signal.fired = true := by
        obtain ⟨-, hsignal⟩ | ⟨-, hsignal⟩ := hstep.signal
        · rw [hsignal]
          exact hfire
        · rw [hsignal]
          exact h
      rw [hhandle]
      cases verdict with
      | none => exact ih hnext false (index + 1)
      | some v => exact (next.signal_conclude v).symm ▸ hnext

theorem unfired_of_drain {asking : Bool} {index : Nat} {arrivals : List Arrival}
    (h : (r.drain handlers sink asking index arrivals).1.signal.fired = false) :
    r.signal.fired = false := by
  rw [Bool.eq_false_iff] at h ⊢
  exact fun hr => h (fired_drain hr asking index arrivals)

/-- A run in which the signal does not fire is the run of a signal that cannot fire. -/
theorem drain_muted (asking : Bool) (index : Nat) (arrivals : List Arrival)
    (h : (r.drain handlers sink asking index arrivals).1.signal.fired = false) :
    r.muted.drain handlers sink asking index arrivals =
      ((r.drain handlers sink asking index arrivals).1.muted,
        (r.drain handlers sink asking index arrivals).2) := by
  have hend : ∀ (s : Run σ) v, s.muted.conclude sink v =
      ((s.conclude sink v).1.muted, (s.conclude sink v).2) := by
    intro s v
    cases v <;> rfl
  induction arrivals generalizing r asking index with
  | nil =>
    have hr := unfired_of_drain h
    rw [drain, drain, if_neg (by simp [muted, Signal.never]), if_neg (by simp [hr])]
    exact hend r _
  | cons x rest ih =>
    have hr := unfired_of_drain h
    cases x with
    | waits => rfl
    | fires =>
      have hlook : ¬(!asking && r.signal.fired) = true := by simp [hr]
      rw [drain, if_neg hlook] at h
      rw [drain, drain, if_neg (by simp [muted, Signal.never]), if_neg hlook]
      exact ih true index h
    | item x =>
      have hlook : ¬(!asking && r.signal.fired) = true := by simp [hr]
      rw [drain, if_neg hlook] at h
      rw [drain, drain, if_neg (by simp [muted, Signal.never]), if_neg hlook, handleItem_muted]
      generalize r.handleItem handlers sink index x = p at h ⊢
      obtain ⟨next, verdict⟩ := p
      cases verdict with
      | none => exact ih false (index + 1) h
      | some v => exact hend next v

theorem conclude_ne_cancelled (r : Run σ) (v : Except Failure String) (n : Nat) :
    (r.conclude sink v).2 ≠ .cancelled n := by
  cases v <;> nofun

/-- Nothing cancels a run but its signal, unless it waits for one that cannot fire. -/
theorem fired_of_drain_cancelled {asking : Bool} {index : Nat} {arrivals : List Arrival}
    (hends : r.signal.canFire ∨ .waits ∉ arrivals) {n : Nat}
    (h : (r.drain handlers sink asking index arrivals).2 = .cancelled n) :
    (r.drain handlers sink asking index arrivals).1.signal.fired = true := by
  induction arrivals generalizing r asking index with
  | nil =>
    rw [drain] at h ⊢
    split
    · next hfired => exact (Bool.and_eq_true_iff.1 hfired).2
    · next hlook =>
      rw [if_neg hlook] at h
      exact absurd h (r.conclude_ne_cancelled _ n)
  | cons x rest ih =>
    have hrest : ∀ s : Run σ, s.signal = r.signal ∨ s.signal = r.signal.fire →
        s.signal.canFire ∨ .waits ∉ rest := by
      intro s hs
      have hcan : s.signal.canFire = r.signal.canFire := by
        obtain hs | hs := hs
        · rw [hs]
        · rw [hs, Signal.canFire_fire]
      rw [hcan]
      exact hends.imp_right (mt (List.mem_cons_of_mem x))
    cases x with
    | waits => exact hends.resolve_right (not_not_intro List.mem_cons_self)
    | fires =>
      rw [drain] at h ⊢
      split
      · next hfired => exact (Bool.and_eq_true_iff.1 hfired).2
      · next hlook =>
        rw [if_neg hlook] at h
        exact ih (hrest _ (.inr rfl)) h
    | item x =>
      rw [drain] at h ⊢
      split
      · next hfired => exact (Bool.and_eq_true_iff.1 hfired).2
      next hlook =>
      rw [if_neg hlook] at h
      obtain ⟨next, verdict, hhandle, hstep⟩ := r.exists_step handlers sink index x
      rw [hhandle] at h ⊢
      cases verdict with
      | none => exact ih (hrest next (hstep.signal.symm.imp And.right And.right)) h
      | some v => exact absurd h (next.conclude_ne_cancelled v n)

/-! ## Up to the signal -/

/-- The run has handled the items with its signal armed and quiet. -/
structure Waits (handlers : Behaviour) (start : Standing) (items : List Item) (r : Run σ) :
    Prop where
  muted : r.muted.At handlers start items
  signal : r.signal = .armed

variable {start : Standing} {items : List Item}

theorem Waits.fired (h : r.Waits handlers start items) : r.signal.fired = false := by
  rw [h.signal]
  rfl

theorem Waits.standing (h : r.Waits handlers start items) :
    Standing.mk r.registry r.calls = start.after items := by
  have hregistry : r.registry = (start.after items).registry := h.muted.registry
  have hcalls : r.calls = (start.after items).calls := h.muted.calls
  rw [hregistry, hcalls]

variable (sink) in
/-- What a run makes of the next item. -/
theorem exists_handleItem {s : Standing} (hs : Standing.mk r.registry r.calls = s) (index : Nat)
    (x : Item) : ∃ next v, r.handleItem handlers sink index x = (next, v) ∧
      Step handlers sink (r.take (.item x)) index x next v ∧
      (∀ u, s.Stops handlers index x u ↔ v = some u) ∧
      (s.Fires handlers x → next.signal = r.signal.fire) ∧
      (¬s.Fires handlers x → next.signal = r.signal) := by
  obtain ⟨next, v, hhandle, hstep⟩ := r.exists_step handlers sink index x
  subst hs
  refine ⟨next, v, hhandle, hstep, fun u => ?_, fun hfires => ?_, fun hfires => ?_⟩
  · have hstops : (Standing.mk r.registry r.calls).Stops handlers index x u ↔
        (r.handleItem handlers sink index x).2 = some u := stops_iff rfl rfl
    rw [hstops, hhandle]
  · obtain ⟨-, hsignal⟩ | ⟨hnot, -⟩ := hstep.signal
    · exact hsignal
    · exact absurd hfires hnot
  · obtain ⟨hyes, -⟩ | ⟨-, hsignal⟩ := hstep.signal
    · exact absurd hyes hfires
    · exact hsignal

variable (sink) in
/-- A run comes through items that neither end it nor fire its signal. -/
theorem exists_drain_of_calm (h : r.Waits handlers start []) (hcalm : start.Calm handlers items) :
    ∃ next : Run σ, next.Waits handlers start items ∧ ∀ rest,
      r.drain handlers sink false 0 (items.map .item ++ rest) =
        next.drain handlers sink false items.length rest := by
  induction items using List.reverseRecOn with
  | nil => exact ⟨r, h, fun rest => rfl⟩
  | append_singleton items x ih =>
    obtain ⟨hitems, hpass, hquiet⟩ := Standing.calm_append_singleton.1 hcalm
    obtain ⟨before, hbefore, hdrain⟩ := ih hitems
    obtain ⟨next, verdict, hhandle, -, hstops, -, hsignal⟩ :=
      exists_handleItem sink hbefore.standing items.length x
    obtain rfl : verdict = none := by
      rw [Option.eq_none_iff_forall_ne_some]
      exact fun v hv => hpass v ((hstops v).2 hv)
    have hmuted : before.muted.handleItem handlers sink items.length x = _ :=
      handleItem_muted items.length x
    obtain ⟨_, _, hhandle', hstep⟩ := before.muted.exists_step handlers sink items.length x
    rw [hhandle', hhandle] at hmuted
    obtain ⟨rfl, rfl⟩ := Prod.mk.inj hmuted
    refine ⟨next, ⟨hbefore.muted.step hstep, (hsignal hquiet).trans hbefore.signal⟩,
      fun rest => ?_⟩
    rw [List.map_append, List.append_assoc, hdrain, List.length_append, List.map_singleton,
      List.singleton_append, drain_of_continues sink hbefore.fired rest hhandle,
      List.length_singleton]

/-! ## From the signal on -/

/-- The run after the signal has fired `n` times while it asked for the next item. -/
def heard (n : Nat) (r : Run σ) : Run σ :=
  { r with
    signal := if n = 0 then r.signal else r.signal.fire
    taken := r.taken ++ List.replicate n .fires }

theorem heard_takeFire (n : Nat) (r : Run σ) : (r.takeFire .fires).heard n = r.heard (n + 1) := by
  have hfire : r.signal.fire.fire = r.signal.fire := by simp [Signal.fire]
  simp [heard, takeFire, take, hfire, List.replicate_succ]

/-- While it asks, a run goes on asking when the signal fires. -/
theorem drain_fires (n : Nat) {asking : Bool} (h : asking = true ∨ r.signal.fired = false)
    (index : Nat) (rest : List Arrival) :
    r.drain handlers sink asking index (List.replicate n .fires ++ rest) =
      (r.heard n).drain handlers sink (asking || decide (0 < n)) index rest := by
  induction n generalizing r asking with
  | zero => simp [heard]
  | succ n ih =>
    have hlook : ¬(!asking && r.signal.fired) = true := by
      obtain rfl | hfired := h <;> simp [*]
    rw [List.replicate_succ, List.cons_append, drain, if_neg hlook, ih (.inl rfl), heard_takeFire]
    simp

variable (handlers sink) in
/-- Behind an item a run with a fired signal is cancelled, whatever the stream holds. -/
theorem drain_of_fired (h : r.signal.fired = true) (index : Nat) (rest : List Arrival) :
    ∃ last : Run σ, r.drain handlers sink false index rest = last.cancel sink ∧
      last.delivered = r.delivered ∧ last.calls = r.calls ∧ last.signal.fired = true ∧
      last.taken.filterMap Arrival.item? = r.taken.filterMap Arrival.item? := by
  cases rest with
  | nil => exact ⟨r, by simp [drain, h], rfl, rfl, h, rfl⟩
  | cons x rest =>
    cases x with
    | waits => exact ⟨r.takeFire .waits, rfl, rfl, rfl, by simp [takeFire, Signal.fire, take, h],
        by simp [takeFire, take, Arrival.item?]⟩
    | _ => exact ⟨r, by simp [drain, h], rfl, rfl, h, rfl⟩

/-- A handler is called for a result that goes to it, and for nothing else. -/
theorem Step.calls {index : Nat} {x : Item} {next : Run σ} {v : Option (Except Failure String)}
    (h : Step handlers sink r index x next v) :
    next.calls <+: ((Standing.mk r.registry r.calls).next x).calls := by
  have hnext : ∀ x, r.calls <+: ((Standing.mk r.registry r.calls).next x).calls := by
    intro x
    unfold Standing.next
    split
    · exact List.prefix_rfl
    · split
      · exact List.prefix_rfl
      · exact List.prefix_append _ _
  cases h with
  | delivered logs hd hroute hreply =>
    simp [Standing.next, Item.result?, Wire.Message.result, hroute, confirm, called, emit]
  | handlerFailed logs hd hroute hreply =>
    simp [Standing.next, Item.result?, Wire.Message.result, hroute, called]
  | _ => exact hnext _

theorem Step.delivered_eq {index : Nat} {x : Item} {next : Run σ}
    (h : Step handlers sink r index x next none) :
    next.delivered = r.delivered + ([x].filterMap Item.result?).length := by
  cases h <;> rfl

/-- A run that ended behind the items, with a signal that has fired. -/
structure EndsAs (start : Standing) (items : List Item) (o : Outcome) (p : Run σ × Outcome) :
    Prop where
  outcome : p.2 = o
  /-- No other item was consumed. -/
  consumed : p.1.taken.filterMap Arrival.item? = items
  /-- No handler was called for anything else. -/
  calls : p.1.calls <+: (start.after items).calls
  fired : p.1.signal.fired = true

theorem Waits.delivered (h : r.Waits handlers start items) :
    r.delivered = (items.filterMap Item.result?).length :=
  h.muted.delivered

theorem Waits.calls (h : r.Waits handlers start items) : r.calls <+: (start.after items).calls := by
  have hcalls : r.calls = (start.after items).calls := h.muted.calls
  exact hcalls ▸ List.prefix_rfl

theorem Waits.consumed (h : r.Waits handlers start items) :
    r.taken.filterMap Arrival.item? = items := by
  have htaken : r.taken = items.map .item := h.muted.taken
  rw [htaken, List.filterMap_map]
  exact List.filterMap_some

theorem consumed_heard (n : Nat) (r : Run σ) :
    (r.heard n).taken.filterMap Arrival.item? = r.taken.filterMap Arrival.item? := by
  have hfires : (List.replicate n Arrival.fires).filterMap Arrival.item? = [] := by
    rw [List.filterMap_eq_nil_iff]
    intro x hx
    rw [List.eq_of_mem_replicate hx]
    rfl
  rw [heard, List.filterMap_append, hfires, List.append_nil]

variable (sink) in
theorem EndsAs.conclude (hconsumed : r.taken.filterMap Arrival.item? = items)
    (hcalls : r.calls <+: (start.after items).calls) (hfired : r.signal.fired = true)
    (v : Except Failure String) :
    EndsAs start items (.ofVerdict r.delivered v) (r.conclude sink v) := by
  have hclose := r.closes_conclude sink v
  have hsignal : (r.conclude sink v).1.signal.fired = true := by rw [signal_conclude, hfired]
  exact ⟨r.outcome_conclude sink v, hclose.taken ▸ hconsumed, hclose.calls ▸ hcalls, hsignal⟩

variable (sink) in
theorem EndsAs.cancel (hconsumed : r.taken.filterMap Arrival.item? = items)
    (hcalls : r.calls <+: (start.after items).calls) (hfired : r.signal.fired = true) :
    EndsAs start items (.cancelled r.delivered) (r.cancel sink) :=
  ⟨rfl, hconsumed, hcalls, hfired⟩

variable (sink) in
/-- The item in hand when the signal fires is handled with its signal fired in the end. -/
theorem Waits.exists_drain_item (h : r.Waits handlers start items) {n : Nat} {y : Item}
    (hfire : 0 < n ∨ (start.after items).Fires handlers y) : ∃ next v,
      Step handlers sink ((r.heard n).take (.item y)) items.length y next v ∧
      (∀ u, (start.after items).Stops handlers items.length y u ↔ v = some u) ∧
      next.signal.fired = true ∧
      ∀ rest, r.drain handlers sink false items.length
          (List.replicate n .fires ++ .item y :: rest) =
        match v with
        | none => next.drain handlers sink false (items.length + 1) rest
        | some u => next.conclude sink u := by
  have hasked : (r.heard n).signal.fire.fired = true ∧ (0 < n → (r.heard n).signal.fired = true) ∧
      ¬(!(false || decide (0 < n)) && (r.heard n).signal.fired) = true := by
    cases n <;> simp [heard, h.signal, Signal.armed, Signal.fire]
  obtain ⟨hfires, hheard, hlook⟩ := hasked
  obtain ⟨next, verdict, hhandle, hstep, hstops, hyes, hno⟩ :=
    exists_handleItem sink (r := r.heard n) h.standing items.length y
  refine ⟨next, verdict, hstep, hstops, ?_, fun rest => ?_⟩
  · by_cases hy : (start.after items).Fires handlers y
    · rw [hyes hy]
      exact hfires
    · rw [hno hy]
      exact hheard (hfire.resolve_right hy)
  · rw [drain_fires n (.inr h.fired), drain, if_neg hlook, hhandle]
    cases verdict <;> rfl

/-- What was consumed and called once the item in hand is handled. -/
theorem Waits.after_item (h : r.Waits handlers start items) {n : Nat} {y : Item} {next : Run σ}
    {v : Option (Except Failure String)}
    (hstep : Step handlers sink ((r.heard n).take (.item y)) items.length y next v) :
    next.taken.filterMap Arrival.item? = items ++ [y] ∧
      next.calls <+: (start.after (items ++ [y])).calls := by
  constructor
  · rw [hstep.taken, take, List.filterMap_append, consumed_heard, h.consumed]
    rfl
  · rw [Standing.after_append_singleton, ← h.standing]
    exact hstep.calls

/-- The item in hand when the signal fires may end the run. -/
theorem Waits.drain_stopped (h : r.Waits handlers start items) {n : Nat} {y : Item}
    (hfire : 0 < n ∨ (start.after items).Fires handlers y) {v : Except Failure String}
    (hv : (start.after items).Stops handlers items.length y v) (rest : List Arrival) :
    EndsAs start (items ++ [y]) (.ofVerdict (items.filterMap Item.result?).length v)
      (r.drain handlers sink false items.length
        (List.replicate n .fires ++ .item y :: rest)) := by
  obtain ⟨next, verdict, hstep, hstops, hfired, hdrain⟩ := h.exists_drain_item sink hfire
  obtain rfl := (hstops v).1 hv
  obtain ⟨hconsumed, hcalls⟩ := h.after_item hstep
  obtain ⟨-, hdelivered, -, -⟩ := hstep.ended
  have hcount : next.delivered = (items.filterMap Item.result?).length :=
    hdelivered.trans h.delivered
  rw [hdrain, ← hcount]
  exact .conclude sink hconsumed hcalls hfired v

/-- Else the item in hand when the signal fires is the last of the run. -/
theorem Waits.drain_handled (h : r.Waits handlers start items) {n : Nat} {y : Item}
    (hfire : 0 < n ∨ (start.after items).Fires handlers y)
    (hpass : ∀ v, ¬(start.after items).Stops handlers items.length y v) (rest : List Arrival) :
    EndsAs start (items ++ [y]) (.cancelled ((items ++ [y]).filterMap Item.result?).length)
      (r.drain handlers sink false items.length
        (List.replicate n .fires ++ .item y :: rest)) := by
  obtain ⟨next, verdict, hstep, hstops, hfired, hdrain⟩ := h.exists_drain_item sink hfire
  obtain rfl : verdict = none := by
    rw [Option.eq_none_iff_forall_ne_some]
    exact fun v hv => hpass v ((hstops v).2 hv)
  obtain ⟨hconsumed, hcalls⟩ := h.after_item hstep
  obtain ⟨last, hlast, hdelivered, hlastCalls, hlastFired, hlastConsumed⟩ :=
    drain_of_fired handlers sink hfired (items.length + 1) rest
  have hcount : last.delivered = ((items ++ [y]).filterMap Item.result?).length := by
    have hheard : ((r.heard n).take (.item y)).delivered =
        (items.filterMap Item.result?).length := h.delivered
    rw [hdelivered, hstep.delivered_eq, hheard, List.filterMap_append, List.length_append]
  rw [hdrain, ← hcount]
  simp only [hlast]
  exact .cancel sink (hlastConsumed.trans hconsumed) (hlastCalls ▸ hcalls) hlastFired

/-- How a run ends in which the signal fires. -/
theorem Waits.drain_interrupted (h : r.Waits handlers start []) {arrivals : List Arrival}
    {o : Outcome} (hi : start.Interrupted handlers arrivals items o) :
    EndsAs start items o (r.drain handlers sink false 0 arrivals) := by
  cases hi with
  | handled n rest hcalm hfire hpass =>
    obtain ⟨next, hnext, hdrain⟩ := exists_drain_of_calm sink h hcalm
    rw [hdrain]
    exact hnext.drain_handled hfire hpass rest
  | stopped n rest hcalm hfire hv =>
    obtain ⟨next, hnext, hdrain⟩ := exists_drain_of_calm sink h hcalm
    rw [hdrain]
    exact hnext.drain_stopped hfire hv rest
  | waiting n rest hcalm =>
    obtain ⟨next, hnext, hdrain⟩ := exists_drain_of_calm sink h hcalm
    have hconsumed : ((next.heard n).takeFire .waits).taken.filterMap Arrival.item? = items := by
      rw [takeFire, take, List.filterMap_append, consumed_heard, hnext.consumed]
      exact List.append_nil items
    have hfired : ((next.heard n).takeFire .waits).signal.fired = true := by
      cases n <;> simp [takeFire, take, heard, hnext.signal, Signal.armed, Signal.fire]
    have hcancel := EndsAs.cancel sink hconsumed hnext.calls hfired
    rw [hdrain, drain_fires n (.inr hnext.fired), drain, ← hnext.delivered]
    exact hcancel
  | exhausted n hcalm =>
    obtain ⟨next, hnext, hdrain⟩ := exists_drain_of_calm sink h hcalm
    have hfired : (next.heard (n + 1)).signal.fired = true := by
      simp [heard, hnext.signal, Signal.armed, Signal.fire]
    rw [hdrain, ← List.append_nil (List.replicate _ _), drain_fires (n + 1) (.inr hnext.fired)]
    have hconclude := EndsAs.conclude sink ((consumed_heard (n + 1) next).trans
      hnext.consumed) hnext.calls hfired (.error (.protocol items.length .noFinalResult))
    rw [← hnext.delivered]
    exact hconclude

/-- The signal does not fire in a run that ends before. -/
theorem Waits.drain_undisturbed (h : r.Waits handlers start []) {arrivals : List Arrival}
    (hi : start.Undisturbed handlers arrivals) :
    (r.drain handlers sink false 0 arrivals).1.signal.fired = false := by
  cases hi with
  | ended hcalm =>
    obtain ⟨next, hnext, hdrain⟩ := exists_drain_of_calm sink h hcalm
    have hend := hdrain []
    rw [List.append_nil] at hend
    rw [hend, drain, if_neg (by simp [hnext.fired])]
    exact hnext.fired
  | @stopped before y v rest hcalm hfires hv =>
    obtain ⟨next, hnext, hdrain⟩ := exists_drain_of_calm sink h hcalm
    obtain ⟨last, verdict, hhandle, -, hstops, -, hsignal⟩ :=
      exists_handleItem sink hnext.standing before.length y
    obtain rfl := (hstops v).1 hv
    have hlast : last.signal.fired = false := by rw [hsignal hfires, hnext.fired]
    rw [hdrain, drain_of_verdict sink hnext.fired rest hhandle]
    cases v <;> exact hlast

end Run

/-! ## Whole executions -/

/-- How an execution ends in which the signal fires. -/
structure Report.EndsAs {σ : Type} (report : Report σ) (runId : String) (start : Standing)
    (items : List Item) (o : Outcome) : Prop where
  run : Run.EndsAs start items o (report.run, report.outcome)
  /-- The outcome is what the last event reports. -/
  lastEvent : report.run.events.getLast? = some (o.event runId)

namespace Executor

variable {σ : Type} (x : Executor σ) (runId : String) (parts : Pipeline) (context : Context)
  (state : σ) {signal : Signal} {logs : List LogRecord}

theorem endsAs_execute {items : List Item} {o : Outcome}
    (h : Run.EndsAs (.start parts x.mode) items o
      ((x.execute runId parts context signal state).run,
        (x.execute runId parts context signal state).outcome)) :
    (x.execute runId parts context signal state).EndsAs runId (.start parts x.mode) items o := by
  obtain ⟨middle, hended, -⟩ := x.ended_execute runId parts context signal state
  have houtcome : (x.execute runId parts context signal state).outcome = o := h.outcome
  refine ⟨h, ?_⟩
  rw [hended.events, houtcome, ← List.cons_append]
  exact List.getLast?_concat

theorem waits_streaming (logs : List LogRecord) :
    (x.streaming runId parts state .armed logs).Waits x.handlers (.start parts x.mode) [] :=
  ⟨⟨rfl, rfl, rfl, rfl, rfl, .inl rfl⟩, rfl⟩

/-- A signal that has fired keeps the request from being submitted. -/
theorem execute_of_fired (hfired : signal.fired = true) :
    x.execute runId parts context signal state =
      ⟨((x.start runId parts signal state).cancel x.sink).2,
        ((x.start runId parts signal state).cancel x.sink).1, false⟩ := by
  rw [execute, if_pos hfired]

theorem execute_of_stalled (hfired : signal.fired = false)
    (hopen : x.transport (request parts context) = ⟨logs, .stalled⟩) :
    x.execute runId parts context signal state =
      let r := x.start runId parts signal state
      let d := { r with logs := r.logs ++ logs, signal := r.signal.fire }.cancel x.sink
      ⟨d.2, d.1, true⟩ := by
  rw [execute, if_neg (by simp [hfired]), hopen]

theorem execute_of_refused {cause : Failure} (hfired : signal.fired = false)
    (hopen : x.transport (request parts context) = ⟨logs, .refused cause⟩) :
    x.execute runId parts context signal state =
      let r := x.start runId parts signal state
      let d := { r with logs := r.logs ++ logs }.conclude x.sink (.error cause)
      ⟨d.2, d.1, true⟩ := by
  rw [execute, if_neg (by simp [hfired]), hopen]

/-- An execution in which the signal does not fire is the one of a signal that cannot fire. -/
theorem execute_never
    (h : (x.execute runId parts context signal state).run.signal.fired = false) :
    x.execute runId parts context .never state =
      (x.execute runId parts context signal state).muted := by
  have hfired : signal.fired = false := by
    by_contra hfired
    rw [x.execute_of_fired runId parts context state (eq_true_of_ne_false hfired)] at h
    exact hfired h
  rcases hopen : x.transport (request parts context) with ⟨logs, opening⟩
  cases opening with
  | stalled =>
    rw [x.execute_of_stalled runId parts context state hfired hopen,
      x.execute_of_stalled runId parts context state rfl hopen]
    rfl
  | refused cause =>
    rw [x.execute_of_refused runId parts context state hfired hopen,
      x.execute_of_refused runId parts context state rfl hopen]
    rfl
  | opened arrivals =>
    rw [x.execute_of_opened runId parts context state hfired hopen] at h ⊢
    rw [x.execute_of_opened runId parts context state rfl hopen]
    have hmuted : x.streaming runId parts state .never logs =
        (x.streaming runId parts state signal logs).muted := rfl
    simp only [hmuted, Run.drain_muted false 0 arrivals h]
    rfl

/-- A run that is cancelled was cancelled by its signal, unless it waited for one that cannot
fire. -/
theorem fired_of_cancelled (hends : (x.transport (request parts context)).opening.Ends signal)
    {n : Nat} (h : (x.execute runId parts context signal state).outcome = .cancelled n) :
    (x.execute runId parts context signal state).run.signal.fired = true := by
  by_cases hfired : signal.fired = true
  · rw [x.execute_of_fired runId parts context state hfired]
    exact hfired
  have hquiet : signal.fired = false := Bool.eq_false_iff.2 hfired
  rcases hopen : x.transport (request parts context) with ⟨logs, opening⟩
  rw [hopen] at hends
  cases opening with
  | stalled =>
    rw [x.execute_of_stalled runId parts context state hquiet hopen]
    exact hends
  | refused cause =>
    rw [x.execute_of_refused runId parts context state hquiet hopen] at h
    cases h
  | opened arrivals =>
    rw [x.execute_of_opened runId parts context state hquiet hopen] at h ⊢
    exact Run.fired_of_drain_cancelled hends h

/-- What the caller's signal does to an execution. Before the request it keeps the transport from
being called. While the stream is opened it cancels the run. From then on the arrivals either end
the run before the signal fires or say how the run is interrupted : the item in hand is handled, no
other item is consumed and no other handler called, and the run is cancelled with the results
delivered so far, unless the item in hand or the end of the stream ended it. An execution in which
the signal does not fire is the one of a signal that cannot fire, and so is one whose handle is
dropped before. Only its signal cancels an execution, unless it waits for one that cannot fire. -/
theorem execute_interrupted :
    let start := Standing.start parts x.mode
    let report := x.execute runId parts context .armed state
    (∀ signal : Signal, signal.fired = true → ∀ transport,
      let early := { x with transport }.execute runId parts context signal state
      early.submitted = false ∧ early = x.execute runId parts context signal state ∧
        early.EndsAs runId start [] (.cancelled 0)) ∧
    (∀ logs, x.transport (request parts context) = ⟨logs, .stalled⟩ →
      report.EndsAs runId start [] (.cancelled 0)) ∧
    (∀ logs arrivals, x.transport (request parts context) = ⟨logs, .opened arrivals⟩ →
      (start.Undisturbed x.handlers arrivals ∨
        ∃ items o, start.Interrupted x.handlers arrivals items o) ∧
      (start.Undisturbed x.handlers arrivals → report.run.signal.fired = false) ∧
      ∀ items o, start.Interrupted x.handlers arrivals items o →
        report.EndsAs runId start items o) ∧
    ∀ signal : Signal,
      ((x.execute runId parts context signal state).run.signal.fired = false →
        x.execute runId parts context .never state =
          (x.execute runId parts context signal state).muted) ∧
      (signal.fired = false → x.execute runId parts context signal.drop state =
        x.execute runId parts context .never state) ∧
      ((x.transport (request parts context)).opening.Ends signal → ∀ n,
        (x.execute runId parts context signal state).outcome = .cancelled n →
          (x.execute runId parts context signal state).run.signal.fired = true) := by
  intro start report
  refine ⟨fun signal hfired transport => ?_, fun logs hopen => ?_, fun logs arrivals hopen => ?_,
    fun signal => ⟨x.execute_never runId parts context state, fun hfired => ?_,
      fun hends _ => x.fired_of_cancelled runId parts context state hends⟩⟩
  · have hearly := execute_of_fired { x with transport } runId parts context state hfired
    refine ⟨by rw [hearly], ?_, ?_⟩
    · rw [hearly, x.execute_of_fired runId parts context state hfired]
      rfl
    · refine endsAs_execute { x with transport } runId parts context state ?_
      rw [hearly]
      exact ⟨rfl, rfl, List.prefix_rfl, hfired⟩
  · refine x.endsAs_execute runId parts context state ?_
    rw [x.execute_of_stalled runId parts context state rfl hopen]
    exact ⟨rfl, rfl, List.prefix_rfl, rfl⟩
  · have hwaits := x.waits_streaming runId parts state logs
    have hreport : x.execute runId parts context .armed state = _ :=
      x.execute_of_opened runId parts context state rfl hopen
    refine ⟨Standing.undisturbed_or_interrupted Standing.calm_nil arrivals, fun hi => ?_,
      fun items o hi => x.endsAs_execute runId parts context state ?_⟩
    · rw [show report = _ from hreport]
      exact hwaits.drain_undisturbed hi
    · rw [hreport]
      exact hwaits.drain_interrupted hi
  · obtain ⟨fired, held⟩ := signal
    obtain rfl : fired = false := hfired
    rfl

/-- A handler fires the signal, and the success behind its result is never read. -/
theorem execute_interrupted_by_handler :
    let handlers : Behaviour := ⟨fun _ _ _ => ⟨.ok (), [], true⟩⟩
    let parts : Pipeline := [.fetch "k" none (some (.named "f"))]
    let answer : Item := .ok (.result ⟨none, []⟩)
    let x := replaying handlers .positional [.ok (.log "a"), answer, .ok (.success "g")]
    (x.execute "r" parts .empty .armed ()).EndsAs "r" (.start parts .positional)
      [.ok (.log "a"), answer] (.cancelled 1) := by
  intro handlers parts answer x
  have hd : Wire.Entries.Decodable [] := List.forall_mem_nil _
  have hcalm : (Standing.start parts .positional).Calm handlers ([] ++ [.ok (.log "a")]) :=
    Standing.calm_append_singleton.2
      ⟨Standing.calm_nil, fun v => Standing.not_stops_log "a", nofun⟩
  have hfires : ((Standing.start parts .positional).after [.ok (.log "a")]).Fires handlers answer :=
    .mk (i := 0) (c := ⟨none, "Fetch(k)", .named "f"⟩) hd rfl rfl
  have hpass : ∀ v, ¬((Standing.start parts .positional).after [.ok (.log "a")]).Stops handlers 1
      answer v := fun v => Standing.not_stops_result hd rfl rfl
  exact ((execute_interrupted x "r" parts .empty ()).2.2.1 [] _ rfl).2.2 _ _
    (.handled 0 [.item (.ok (.success "g"))] hcalm (.inr hfires) hpass)

/-- A success that the stream hands over as the signal fires is not held back : the signal fires
between two items, and the run succeeds with the second. -/
theorem execute_succeeds_as_signal_fires :
    let items : List Arrival := [.item (.ok (.log "a")), .fires, .item (.ok (.success "g"))]
    let x : Executor Unit := ⟨fun _ => ⟨[], .opened items⟩, .positional, .discarding, .once⟩
    let report := x.execute "r" [] .empty .armed ()
    report.run.signal.fired = true ∧ report.run.taken.length = 3 ∧
      report.outcome = .succeeded "g" 0 ∧ report.outcome ≠ .cancelled 0 := by
  decide

end Executor

end MiningPipelines
