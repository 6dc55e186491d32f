import MiningPipelines.Text.Bytes

/-!
# Variable-length naturals

A natural is written seven bits to a byte, the low ones first, and every byte but the
last has its high bit set. Reading takes at most ten bytes and no number of more than 64
bits. It accepts zeros at the high end, which writing never produces.
-/

namespace MiningPipelines

namespace Varint

/-- The bytes of a natural. -/
def print (n : Nat) : Bytes :=
  if n < 128 then [.ofNat n] else .ofNat (n % 128 + 128) :: print (n / 128)
termination_by n
decreasing_by omega

/-- Reads at most `places` bytes. -/
def readPlaces : Nat → Bytes → Option (Nat × Bytes)
  | 0, _ => none
  | _ + 1, [] => none
  | places + 1, b :: rest =>
    if b.toNat < 128 then some (b.toNat, rest)
    else do
      let (high, rest) ← readPlaces places rest
      some (b.toNat - 128 + 128 * high, rest)

/-- Reads a natural of at most 64 bits from the front. -/
def read (bs : Bytes) : Option (Nat × Bytes) := do
  let (n, rest) ← readPlaces 10 bs
  if n < UInt64.size then some (n, rest) else none

/-- A read takes at least one byte. -/
theorem length_of_readPlaces {places n : Nat} {bs rest : Bytes}
    (h : readPlaces places bs = some (n, rest)) : rest.length < bs.length := by
  induction places generalizing bs n rest with
  | zero => simp [readPlaces] at h
  | succ places ih =>
    cases bs with
    | nil => simp [readPlaces] at h
    | cons b bs =>
      rw [readPlaces] at h
      split at h
      · simp only [Option.some.injEq, Prod.mk.injEq] at h
        simp [← h.2]
      · obtain ⟨⟨high, last⟩, hr, h⟩ := Option.bind_eq_some_iff.1 h
        have hlt := ih hr
        simp only [Option.some.injEq, Prod.mk.injEq] at h
        simp only [List.length_cons, ← h.2]
        omega

theorem length_of_read {n : Nat} {bs rest : Bytes} (h : read bs = some (n, rest)) :
    rest.length < bs.length := by
  unfold read at h
  obtain ⟨⟨m, last⟩, hr, h⟩ := Option.bind_eq_some_iff.1 h
  have hlt := length_of_readPlaces hr
  simp only [Option.ite_none_right_eq_some, Option.some.injEq, Prod.mk.injEq] at h
  exact h.2.2 ▸ hlt

end Varint

end MiningPipelines
