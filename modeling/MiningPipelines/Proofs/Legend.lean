import Mathlib.Data.List.Forall2
import Mathlib.Data.List.Induction
import Mathlib.Data.List.Nodup
import Mathlib.Data.Prod.Lex
import Mathlib.Order.Bounds.Basic
import MiningPipelines.Artifact.ColorsLog

/-!
# What a legend lists

A rectangle stands in a row, at a place in it (`ColorsLog.at?`). Positions are compared by the row
first, so `ColorsLog.placed` lists the rectangles of a log with their positions in order.

A legend is built in one walk over the rectangles. After each of them it lists the names that have
been seen, in the order of the positions where each was first seen (`ColorsLog.Lists`) : one more
rectangle keeps this (`ColorsLog.Lists.note`), so it holds at the end (`ColorsLog.lists_foldl`).
What a walk adds to names that are there already is what it would list by itself, without those
(`ColorsLog.foldl_note_eq`), so the legend of two logs one after the other comes from their own.
`ColorsLog.legend_first_seen` says both.
-/

namespace MiningPipelines

namespace ColorsLog

/-! ## Positions -/

/-- A row and a place in it. -/
abbrev Position := ℕ ×ₗ ℕ

/-- The rectangle at a position. -/
def at? (log : ColorsLog) (pos : Position) : Option Rectangle :=
  log.traces[(ofLex pos).1]?.bind fun row => row[(ofLex pos).2]?

/-- The positions at which a name is seen. -/
def positions (log : ColorsLog) (name : String) : Set Position :=
  {pos | ∃ r, log.at? pos = some r ∧ r.name = name}

/-- The rectangles with their positions, row by row. -/
def placed (log : ColorsLog) : List (Position × Rectangle) :=
  log.traces.zipIdx.flatMap fun (row, i) => row.zipIdx.map fun (r, j) => (toLex (i, j), r)

/-- What is placed stands at its position, and nothing else does. -/
theorem mem_placed {log : ColorsLog} {pos : Position} {r : Rectangle} :
    (pos, r) ∈ log.placed ↔ log.at? pos = some r := by
  simp only [placed, List.mem_flatMap, List.mem_map, Prod.exists, Prod.mk.injEq,
    List.mem_zipIdx_iff_getElem?, at?, Option.bind_eq_some_iff]
  constructor
  · rintro ⟨row, i, hrow, _, j, hr, rfl, rfl⟩
    exact ⟨row, hrow, hr⟩
  · rintro ⟨row, hrow, hr⟩
    exact ⟨row, _, hrow, r, _, hr, rfl, rfl⟩

/-- The rectangles are placed row by row, each once. -/
theorem map_snd_placed (log : ColorsLog) : log.placed.map Prod.snd = log.traces.flatten := by
  have hrow : ∀ e : List Rectangle × ℕ,
      (e.1.zipIdx.map fun x => (toLex (e.2, x.2), x.1)).map Prod.snd = e.1 := fun e => by
    rw [List.map_map]
    exact List.zipIdx_map_fst 0 e.1
  simp only [placed, List.map_flatMap, hrow]
  rw [List.flatMap_def, List.zipIdx_map_fst]

theorem exists_placed_name_iff {log : ColorsLog} {name : String} :
    (∃ x ∈ log.placed, x.2.name = name) ↔ ∃ row ∈ log.traces, ∃ r ∈ row, r.name = name := by
  have hmem : ∀ r, (∃ x ∈ log.placed, x.2 = r) ↔ ∃ row ∈ log.traces, r ∈ row := fun r => by
    rw [← List.mem_map, map_snd_placed, List.mem_flatten]
  constructor
  · rintro ⟨x, hx, hname⟩
    obtain ⟨row, hrow, hr⟩ := (hmem x.2).1 ⟨x, hx, rfl⟩
    exact ⟨row, hrow, x.2, hr, hname⟩
  · rintro ⟨row, hrow, r, hr, hname⟩
    obtain ⟨x, hx, rfl⟩ := (hmem r).2 ⟨row, hrow, hr⟩
    exact ⟨x, hx, hname⟩

theorem pairwise_zipIdx {α : Type} (xs : List α) : xs.zipIdx.Pairwise fun x y => x.2 < y.2 := by
  rw [← List.pairwise_map (R := (· < ·)), List.zipIdx_map_snd]
  exact List.pairwise_lt_range' 1

/-- Positions come in their order, so each comes once. -/
theorem pairwise_placed (log : ColorsLog) : log.placed.Pairwise fun x y => x.1 < y.1 := by
  refine List.pairwise_flatMap.2 ⟨fun e _ => List.pairwise_map.2 ?_, ?_⟩
  · refine (pairwise_zipIdx e.1).imp fun {x y} h => ?_
    exact Prod.Lex.toLex_lt_toLex.2 (.inr ⟨rfl, h⟩)
  · refine (pairwise_zipIdx log.traces).imp fun {x y} h => ?_
    simp only [List.forall_mem_map]
    exact fun _ _ _ _ => Prod.Lex.toLex_lt_toLex.2 (.inl h)

/-! ## The walk -/

/-- The names of what has been seen, in the order in which each was first seen. -/
structure Lists (seen : List (Position × Rectangle)) (names : List String) : Prop where
  nodup : names.Nodup
  mem : ∀ name, name ∈ names ↔ ∃ x ∈ seen, x.2.name = name
  /-- Each name comes from a rectangle before which no other has it. -/
  firsts : ∃ firsts : List (Position × Rectangle), firsts.Sublist seen ∧
    firsts.map (fun x => x.2.name) = names ∧
    ∀ x ∈ firsts, ∀ y ∈ seen, y.2.name = x.2.name → x.1 ≤ y.1

variable {seen : List (Position × Rectangle)} {names : List String}

/-- One more rectangle, behind all that have been seen. -/
theorem Lists.note (h : Lists seen names) {x : Position × Rectangle}
    (hbehind : ∀ y ∈ seen, y.1 < x.1) : Lists (seen ++ [x]) (note names x.2) := by
  obtain ⟨hnodup, hmem, firsts, hsublist, hnames, hfirst⟩ := h
  have hseen : ∀ name, (∃ y ∈ seen ++ [x], y.2.name = name) ↔ name ∈ names ∨ x.2.name = name := by
    simp [hmem, or_and_right, exists_or]
  -- What was first stays first, since the new rectangle comes behind it.
  have hfirst' : ∀ y ∈ firsts, ∀ z ∈ seen ++ [x], z.2.name = y.2.name → y.1 ≤ z.1 := by
    intro y hy z hz hname
    obtain hz | hz := List.mem_append.1 hz
    · exact hfirst y hy z hz hname
    · rw [List.mem_singleton.1 hz]
      exact (hbehind y (hsublist.subset hy)).le
  unfold ColorsLog.note
  by_cases hx : x.2.name ∈ names
  · rw [if_pos (List.contains_iff_mem.2 hx)]
    refine ⟨hnodup, fun name => ?_, firsts, hsublist.trans (List.sublist_append_left _ _), hnames,
      hfirst'⟩
    rw [hseen, or_iff_left_of_imp fun hname => hname ▸ hx]
  · rw [if_neg (mt List.contains_iff_mem.1 hx)]
    refine ⟨?_, fun name => ?_, firsts ++ [x], hsublist.append (.refl [x]), ?_, ?_⟩
    · rw [← List.concat_eq_append]
      exact hnodup.concat hx
    · rw [hseen, List.mem_append, List.mem_singleton, eq_comm (a := name)]
    · rw [List.map_append, hnames, List.map_singleton]
    · refine List.forall_mem_append.2 ⟨hfirst', List.forall_mem_singleton.2 fun z hz hname => ?_⟩
      obtain hz | hz := List.mem_append.1 hz
      · exact absurd ((hmem _).2 ⟨z, hz, hname⟩) hx
      · rw [List.mem_singleton.1 hz]

/-- A walk over rectangles in order. -/
theorem lists_foldl (hsorted : seen.Pairwise fun x y => x.1 < y.1) :
    Lists seen ((seen.map Prod.snd).foldl note []) := by
  induction seen using List.reverseRecOn with
  | nil => exact ⟨List.nodup_nil, by simp, [], .slnil, rfl, List.forall_mem_nil _⟩
  | append_singleton seen x ih =>
    obtain ⟨hseen, -, hbehind⟩ := List.pairwise_append.1 hsorted
    rw [List.map_append, List.foldl_append]
    exact (ih hseen).note fun y hy => hbehind y hy x (List.mem_singleton_self x)

/-- The legend lists what a walk over all rectangles has seen. -/
theorem lists_legend (log : ColorsLog) : Lists log.placed log.legend := by
  rw [legend, ← map_snd_placed]
  exact lists_foldl log.pairwise_placed

/-! ## Logs one after the other -/

/-- A name that is there before the walk is not added by it. -/
theorem note_append (names own : List String) (r : Rectangle) :
    note (names ++ own.filter fun name => name ∉ names) r =
      names ++ (note own r).filter fun name => name ∉ names := by
  by_cases hnames : r.name ∈ names <;> by_cases hown : r.name ∈ own <;>
    simp [note, hnames, hown]

/-- A walk that starts with names adds to them what it lists by itself and they do not have. -/
theorem foldl_note_eq (names : List String) (rs : List Rectangle) :
    rs.foldl note names = names ++ (rs.foldl note []).filter fun name => name ∉ names := by
  induction rs using List.reverseRecOn with
  | nil => simp
  | append_singleton rs r ih =>
    simp only [List.foldl_append, List.foldl_cons, List.foldl_nil]
    rw [ih, note_append]

/-- A legend has no name twice, and it has the names of the rectangles in all rows and no others,
in the order of the positions at which they are first seen. The legend of the rows of two logs is
that of the first, and then what the second has beyond it. -/
theorem legend_first_seen (a b : ColorsLog) :
    a.legend.Nodup ∧
    (∀ name, name ∈ a.legend ↔ ∃ row ∈ a.traces, ∃ r ∈ row, r.name = name) ∧
    (∃ firsts : List Position, firsts.Pairwise (· < ·) ∧
      List.Forall₂ (fun name pos => IsLeast (a.positions name) pos) a.legend firsts) ∧
    legend ⟨a.traces ++ b.traces⟩ =
      a.legend ++ b.legend.filter fun name => name ∉ a.legend := by
  obtain ⟨hnodup, hmem, firsts, hsublist, hnames, hfirst⟩ := a.lists_legend
  refine ⟨hnodup, fun name => (hmem name).trans exists_placed_name_iff,
    ⟨firsts.map Prod.fst, ?_, ?_⟩, ?_⟩
  · exact List.pairwise_map.2 (a.pairwise_placed.sublist hsublist)
  · rw [← hnames, List.forall₂_map_left_iff, List.forall₂_map_right_iff, List.forall₂_same]
    refine fun x hx => ⟨⟨x.2, mem_placed.1 (hsublist.subset hx), rfl⟩, ?_⟩
    rintro pos ⟨r, hr, hname⟩
    exact hfirst x hx (pos, r) (mem_placed.2 hr) hname
  · rw [legend, List.flatten_append, List.foldl_append, foldl_note_eq]
    rfl

end ColorsLog
end MiningPipelines
