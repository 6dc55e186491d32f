/-!
# Cancellation signals

A signal starts quiet and fires at most once, for good. It fires through its handle; once
that is dropped, or if there never was one, a quiet signal stays quiet, and who waits for it
waits for ever (`Signal.canFire`).
-/

namespace MiningPipelines

/-- A cancellation signal. -/
structure Signal where
  fired : Bool
  /-- The handle is still there. -/
  held : Bool
deriving DecidableEq

namespace Signal

/-- A quiet signal with its handle. -/
def armed : Signal := ⟨false, true⟩

/-- A signal that nothing can fire. -/
def never : Signal := ⟨false, false⟩

/-- Fires the signal through its handle. -/
def fire (s : Signal) : Signal := { s with fired := s.fired || s.held }

/-- The signal has fired, or its handle can still fire it. -/
def canFire (s : Signal) : Bool := s.fired || s.held

/-- Drops the handle. -/
def drop (s : Signal) : Signal := { s with held := false }

end Signal

end MiningPipelines
