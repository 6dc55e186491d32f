import MiningPipelines.Number.Binary
import MiningPipelines.Proto.Varint

/-!
# Fields of a message

A message is written as a sequence of fields, each with a tag and a payload in one of a
few forms. `Field.parse` reads the whole sequence without knowing what the tags mean, and
the writers (`Field.printVarint` and the like) produce one field each.

A group is a sequence of fields between two keys. No message here has groups, so all that
is kept of one is how many levels of nesting a reader needs to skip it.
-/

namespace MiningPipelines

namespace Proto

/-- What a field holds. -/
inductive Payload where
  | varint (n : UInt64)
  | fixed64 (w : UInt64)
  | bytes (bs : Bytes)
  | group (levels : Nat)
  | fixed32 (w : UInt32)
deriving DecidableEq

/-- The levels of nesting that it takes to skip the payload. -/
def Payload.levels : Payload → Nat
  | .group levels => levels
  | _ => 1

/-- A payload under a tag. -/
structure Field where
  tag : Nat
  payload : Payload
deriving DecidableEq

namespace Field

/-! ## Reading -/

/-- The tag and the form of a field, from its key. Keys have 32 bits and tags are
positive. -/
def readKey (bs : Bytes) : Option (Nat × Nat × Bytes) := do
  let (key, rest) ← Varint.read bs
  if key < UInt32.size ∧ 8 ≤ key then some (key / 8, key % 8, rest) else none

/-- The first `n` bytes and the others. -/
def take (n : Nat) (bs : Bytes) : Option (Bytes × Bytes) :=
  if n ≤ bs.length then some (bs.take n, bs.drop n) else none

/-- The number with the given bytes, the low one first. -/
def littleEndian (bs : Bytes) : Nat := bs.foldr (fun b acc => b.toNat + 256 * acc) 0

mutual

/-- The payload of a field of the given form, tag and form read. Fuel counts calls. -/
def readPayload : Nat → Nat → Nat → Bytes → Option (Payload × Bytes)
  | 0, _, _, _ => none
  | fuel + 1, tag, form, bs =>
    match form with
    | 0 => (Varint.read bs).map fun (n, rest) => (.varint (.ofNat n), rest)
    | 1 => (take 8 bs).map fun (b, rest) => (.fixed64 (.ofNat (littleEndian b)), rest)
    | 2 => do
      let (n, rest) ← Varint.read bs
      let (b, rest) ← take n rest
      some (.bytes b, rest)
    | 3 => (readGroup fuel tag bs).map fun (levels, rest) => (.group levels, rest)
    | 5 => (take 4 bs).map fun (b, rest) => (.fixed32 (.ofNat (littleEndian b)), rest)
    | _ => none

/-- The fields of a group up to the key that ends it. Returns the levels that it takes to
skip the group. -/
def readGroup : Nat → Nat → Bytes → Option (Nat × Bytes)
  | 0, _, _ => none
  | fuel + 1, tag, bs => do
    let (inner, form, rest) ← readKey bs
    if form = 4 then
      if inner = tag then some (1, rest) else none
    else do
      let (p, rest) ← readPayload fuel inner form rest
      let (levels, rest) ← readGroup fuel tag rest
      some (max (p.levels + 1) levels, rest)

end

/-- A field at the front. A group takes two calls for each byte at most. -/
def read (bs : Bytes) : Option (Field × Bytes) := do
  let (tag, form, rest) ← readKey bs
  let (p, rest) ← readPayload (2 * rest.length + 2) tag form rest
  some (⟨tag, p⟩, rest)

theorem length_of_readKey {tag form : Nat} {bs rest : Bytes}
    (h : readKey bs = some (tag, form, rest)) : rest.length < bs.length := by
  unfold readKey at h
  obtain ⟨⟨key, after⟩, hr, h⟩ := Option.bind_eq_some_iff.1 h
  have hlt := Varint.length_of_read hr
  simp only [Option.ite_none_right_eq_some, Option.some.injEq, Prod.mk.injEq] at h
  exact h.2.2.2 ▸ hlt

theorem length_of_take {n : Nat} {bs b rest : Bytes} (h : take n bs = some (b, rest)) :
    rest.length ≤ bs.length := by
  unfold take at h
  split at h
  · simp only [Option.some.injEq, Prod.mk.injEq] at h
    simp [← h.2]
  · simp at h

/-- Reading never adds bytes. -/
theorem length_of_readPayload_readGroup (fuel : Nat) :
    (∀ {tag form : Nat} {bs rest : Bytes} {p : Payload},
      readPayload fuel tag form bs = some (p, rest) → rest.length ≤ bs.length) ∧
    ∀ {tag levels : Nat} {bs rest : Bytes},
      readGroup fuel tag bs = some (levels, rest) → rest.length ≤ bs.length := by
  induction fuel with
  | zero =>
    constructor
    · intro tag form bs rest p h
      simp [readPayload] at h
    · intro tag levels bs rest h
      simp [readGroup] at h
  | succ fuel ih =>
    constructor
    · intro tag form bs rest p h
      unfold readPayload at h
      split at h
      · obtain ⟨⟨n, after⟩, hq, he⟩ := Option.map_eq_some_iff.1 h
        have hlt := Varint.length_of_read hq
        simp only [Prod.mk.injEq] at he
        rw [← he.2]
        omega
      · obtain ⟨⟨b, after⟩, hq, he⟩ := Option.map_eq_some_iff.1 h
        simp only [Prod.mk.injEq] at he
        exact he.2 ▸ length_of_take hq
      · obtain ⟨⟨n, after⟩, hq, h⟩ := Option.bind_eq_some_iff.1 h
        obtain ⟨⟨b, last⟩, hr, h⟩ := Option.bind_eq_some_iff.1 h
        have hlt := Varint.length_of_read hq
        have hle := length_of_take hr
        simp only [Option.some.injEq, Prod.mk.injEq] at h hle
        rw [← h.2]
        omega
      · obtain ⟨⟨levels, after⟩, hq, he⟩ := Option.map_eq_some_iff.1 h
        simp only [Prod.mk.injEq] at he
        exact he.2 ▸ ih.2 hq
      · obtain ⟨⟨b, after⟩, hq, he⟩ := Option.map_eq_some_iff.1 h
        simp only [Prod.mk.injEq] at he
        exact he.2 ▸ length_of_take hq
      · simp at h
    · intro tag levels bs rest h
      unfold readGroup at h
      obtain ⟨⟨inner, form, after⟩, hq, h⟩ := Option.bind_eq_some_iff.1 h
      have hlt := length_of_readKey hq
      simp only at h
      split at h
      · split at h
        · simp only [Option.some.injEq, Prod.mk.injEq] at h
          rw [← h.2]
          omega
        · simp at h
      · obtain ⟨⟨p, between⟩, hr, h⟩ := Option.bind_eq_some_iff.1 h
        obtain ⟨⟨more, last⟩, hs, h⟩ := Option.bind_eq_some_iff.1 h
        have hr := ih.1 hr
        have hs := ih.2 hs
        simp only [Option.some.injEq, Prod.mk.injEq] at h hs
        rw [← h.2]
        omega

/-- A field takes at least one byte. -/
theorem length_of_read {f : Field} {bs rest : Bytes} (h : read bs = some (f, rest)) :
    rest.length < bs.length := by
  unfold read at h
  obtain ⟨⟨tag, form, after⟩, hq, h⟩ := Option.bind_eq_some_iff.1 h
  obtain ⟨⟨p, last⟩, hr, h⟩ := Option.bind_eq_some_iff.1 h
  have hlt := length_of_readKey hq
  have hle := (length_of_readPayload_readGroup _).1 hr
  simp only [Option.some.injEq, Prod.mk.injEq] at h
  rw [← h.2]
  omega

/-- The fields of a message, if the bytes are a sequence of fields. -/
def parse (bs : Bytes) : Option (List Field) :=
  match bs with
  | [] => some []
  | b :: bs =>
    match _h : read (b :: bs) with
    | none => none
    | some (f, rest) => (parse rest).map (f :: ·)
termination_by bs.length
decreasing_by exact length_of_read _h

/-! ## Writing -/

/-- The key of a field. -/
def printKey (tag form : Nat) : Bytes := Varint.print (8 * tag + form)

def printVarint (tag n : Nat) : Bytes := printKey tag 0 ++ Varint.print n

def printBytes (tag : Nat) (bs : Bytes) : Bytes :=
  printKey tag 2 ++ Varint.print bs.length ++ bs

/-- The low `count` bytes of a number, the low one first. -/
def lowBytes : Nat → Nat → Bytes
  | 0, _ => []
  | count + 1, n => .ofNat (n % 256) :: lowBytes count (n / 256)

def printFixed32 (tag : Nat) (w : UInt32) : Bytes := printKey tag 5 ++ lowBytes 4 w.toNat

end Field

end Proto

end MiningPipelines
