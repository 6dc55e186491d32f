import Mathlib.Data.List.Induction
import MiningPipelines.InPlace

/-!
# What calls in place do to a state

The functions on states return the next one or a refusal; `InPlace.settle` is what such a function
does to a state that is changed in place. A refused call has then written nothing, since its checks
come before the write (`InPlace.apply_check`).

What each call keeps, whether it succeeds or not, any number of calls keep
(`InPlace.play_induction`). Those that succeeded are among those that were made
(`InPlace.mem_of_mem_play`).
-/

namespace MiningPipelines

namespace InPlace

variable {ε σ κ : Type} {s t : σ} {e : ε}

theorem apply_get (call : σ → InPlace ε σ Unit) (s : σ) :
    apply (get >>= call) s = apply (call s) s :=
  rfl

theorem apply_throw (e : ε) (s : σ) : apply (throw e) s = (.error e, s) :=
  rfl

theorem apply_modify (f : σ → σ) (s : σ) : apply (ε := ε) (modify f) s = (.ok (), f s) :=
  rfl

/-- The answer if the next state is computed first, and the state behind it. -/
def settle (x : Except ε σ) (s : σ) : Except ε Unit × σ :=
  match x with
  | .ok next => (.ok (), next)
  | .error e => (.error e, s)

/-- A call that succeeds leaves the next state. -/
theorem settle_eq_ok_iff {x : Except ε σ} : settle x s = (.ok (), t) ↔ x = .ok t := by
  cases x <;> simp [settle]

/-- A call that is refused leaves the state as it was. -/
theorem settle_eq_error_iff {x : Except ε σ} :
    settle x s = (.error e, t) ↔ x = .error e ∧ t = s := by
  cases x <;> simp [settle, eq_comm]

/-- A check in front of a call. -/
theorem apply_check (x : Except ε Unit) {call : InPlace ε σ Unit} {y : Except ε σ}
    (h : apply call s = settle y s) :
    apply (do liftExcept x; call) s = settle (x >>= fun _ => y) s := by
  cases x with
  | error e => rfl
  | ok u => exact h

/-! ## Calls one after the other -/

/-- What holds of the calls made, the state behind them and those that succeeded. -/
theorem play_induction {perform : κ → InPlace ε σ Unit} {P : List κ → σ → List κ → Prop}
    (start : P [] s [])
    (accepted : ∀ {asked s done call next}, P asked s done →
      apply (perform call) s = (.ok (), next) → P (asked ++ [call]) next (done ++ [call]))
    (refused : ∀ {asked s done call e next}, P asked s done →
      apply (perform call) s = (.error e, next) → P (asked ++ [call]) next done)
    (calls : List κ) : P calls (play perform s calls).1 (play perform s calls).2 := by
  induction calls using List.reverseRecOn with
  | nil => exact start
  | append_singleton asked call ih =>
    rw [play, List.foldl_append, List.foldl_cons, List.foldl_nil, ← play, record]
    split
    · next next hnext => exact accepted ih hnext
    · next e next hnext => exact refused ih hnext

/-- A call that succeeded was made, and is of those that can succeed. -/
theorem mem_of_mem_play {perform : κ → InPlace ε σ Unit} {Q : κ → Prop}
    (accepted : ∀ {s call next}, apply (perform call) s = (.ok (), next) → Q call) (s : σ)
    (calls : List κ) : ∀ call ∈ (play perform s calls).2, call ∈ calls ∧ Q call := by
  refine play_induction (P := fun asked _ done => ∀ call ∈ done, call ∈ asked ∧ Q call)
    (List.forall_mem_nil _) (fun ih hnext => List.forall_mem_append.2 ⟨fun call hcall => ?_, ?_⟩)
    (fun ih _ call hcall => ⟨List.mem_append_left _ (ih call hcall).1, (ih call hcall).2⟩) calls
  · exact ⟨List.mem_append_left _ (ih call hcall).1, (ih call hcall).2⟩
  · exact List.forall_mem_singleton.2 ⟨List.mem_append_right _ List.mem_cons_self, accepted hnext⟩

end InPlace
end MiningPipelines
