/-!
# Calls that change a state in place

Callers who hold a state ask for a change by a call, and the call answers whether it has been made
(`InPlace`). `InPlace.play` makes calls one after the other and tells which of them succeeded.
-/

namespace MiningPipelines

/-- Changes of a state that may be refused. -/
abbrev InPlace (ε σ : Type) := ExceptT ε (StateM σ)

namespace InPlace

variable {ε σ κ : Type}

/-- The answer to a call, and the state behind it. -/
def apply (call : InPlace ε σ Unit) (s : σ) : Except ε Unit × σ := (call.run.run s).run

/-- One more call, on a state with the calls that succeeded so far. -/
def record (perform : κ → InPlace ε σ Unit) : σ × List κ → κ → σ × List κ
  | (s, done), call =>
    match apply (perform call) s with
    | (.ok (), next) => (next, done ++ [call])
    | (.error _, next) => (next, done)

/-- The state after all the calls, and those of them that succeeded. -/
def play (perform : κ → InPlace ε σ Unit) (s : σ) (calls : List κ) : σ × List κ :=
  calls.foldl (record perform) (s, [])

end InPlace

end MiningPipelines
