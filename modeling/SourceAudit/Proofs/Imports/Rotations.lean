/-
Module: SourceAudit.Proofs.Imports.Rotations
Layer: Proofs
Purpose: Cycles are told apart by the rings they run around, and a ring has no first file. The least
  rotation of a ring is the same for two rings exactly if one is a rotation of the other, so keeping
  one cycle for each least rotation keeps one for each ring: none is reported twice, and none that is
  found from some file is lost.
Main exports: mem_cons_rotations_iff, leastRotation_isRotated, not_lt_leastRotation, leastRotation_eq_iff,
  pairwise_distinctCycles, exists_mem_cycles_of_cycleFrom?, reported_cycles_distinct
-/
import Mathlib.Data.List.Rotate
import SourceAudit.Proofs.Imports.Cycles

namespace SourceAudit

/-! ### The least rotation of a ring -/

section

variable {ring r a b : List String}

/-- A ring and the rotations that the least one is chosen from are all its rotations. The ring itself
    is listed apart because the empty ring has no first file to start from. -/
theorem mem_cons_rotations_iff : r ∈ ring :: rotations ring ↔ ring.IsRotated r := by
  constructor
  · intro chosen
    rcases List.mem_cons.1 chosen with rfl | chosen
    · exact List.IsRotated.refl r
    · obtain ⟨n, below, rfl⟩ := List.mem_map.1 chosen
      have within : n ≤ ring.length := Nat.le_of_lt (List.mem_range.1 below)
      exact ⟨n, List.rotate_eq_drop_append_take within⟩
  · rintro ⟨n, rfl⟩
    cases ring with
    | nil => simp
    | cons file files =>
      have below : n % (file :: files).length < (file :: files).length :=
        Nat.mod_lt n (Nat.zero_lt_succ files.length)
      apply List.mem_cons_of_mem
      exact List.mem_map.2 ⟨_, List.mem_range.2 below, List.rotate_eq_drop_append_take_mod.symm⟩

/-- No list comes before the one that is chosen as the least. -/
theorem not_lt_foldl_least (first : List String) (others : List (List String))
    (h : r ∈ first :: others) :
    ¬ r < others.foldl (fun least r => if r < least then r else least) first := by
  induction others generalizing first r with
  | nil =>
    obtain rfl := List.mem_singleton.1 h
    exact List.lt_irrefl r
  | cons other rest ih =>
    rw [List.foldl_cons]
    split
    · rename_i below
      rcases List.mem_cons.1 h with rfl | h
      · intro less
        exact ih other List.mem_cons_self (List.lt_trans below less)
      · exact ih other h
    · rename_i notBelow
      rcases List.mem_cons.1 h with rfl | h
      · exact ih r List.mem_cons_self
      · rcases List.mem_cons.1 h with rfl | h
        · have kept := List.not_lt.1 (ih first List.mem_cons_self)
          exact List.not_lt.2 (List.le_trans kept (List.not_lt.1 notBelow))
        · exact ih first (List.mem_cons_of_mem first h)

/-- The least rotation of a ring is one of its rotations. -/
theorem leastRotation_isRotated (ring : List String) : (leastRotation ring).IsRotated ring :=
  (mem_cons_rotations_iff.1 (foldl_least_mem ring (rotations ring))).symm

/-- No rotation of a ring comes before the least one. -/
theorem not_lt_leastRotation (turned : ring.IsRotated r) : ¬ r < leastRotation ring :=
  not_lt_foldl_least ring (rotations ring) (mem_cons_rotations_iff.2 turned)

/-- The least rotation tells exactly which rings are rotations of one another. -/
theorem leastRotation_eq_iff : leastRotation a = leastRotation b ↔ a.IsRotated b := by
  constructor
  · intro same
    have back := leastRotation_isRotated b
    rw [← same] at back
    exact (leastRotation_isRotated a).symm.trans back
  · intro turned
    -- Each of the two is a rotation of the other's ring, so neither comes before the other.
    apply List.le_antisymm
    · exact List.not_lt.1 (not_lt_leastRotation (turned.trans (leastRotation_isRotated b).symm))
    · exact List.not_lt.1 (not_lt_leastRotation (turned.symm.trans (leastRotation_isRotated a).symm))

end

/-! ### One cycle for each ring -/

section

variable {seen cycles : List (List String)} {cycle : List String}

/-- No cycle is kept whose ring was seen before. -/
theorem not_mem_seen_of_mem_distinctCycles (h : cycle ∈ distinctCycles seen cycles) :
    leastRotation cycle.dropLast ∉ seen := by
  fun_induction distinctCycles seen cycles with
  | case1 => cases h
  | case2 seen first rest key known ih => exact ih h
  | case3 seen first rest key new ih =>
    rcases List.mem_cons.1 h with rfl | h
    · exact new
    · intro before
      exact ih h (List.mem_cons_of_mem key before)

/-- No two of the cycles that are kept run around the same ring. -/
theorem pairwise_distinctCycles (seen cycles : List (List String)) :
    (distinctCycles seen cycles).Pairwise fun c d => ¬ c.dropLast.IsRotated d.dropLast := by
  fun_induction distinctCycles seen cycles with
  | case1 => exact List.Pairwise.nil
  | case2 seen first rest key known ih => exact ih
  | case3 seen first rest key new ih =>
    apply List.Pairwise.cons _ ih
    intro later kept turned
    -- The ring of the first one is seen from then on.
    apply not_mem_seen_of_mem_distinctCycles kept
    rw [← leastRotation_eq_iff.2 turned]
    exact List.mem_cons_self

end

/-! ### The cycles of a graph -/

namespace ImportGraph

variable {g : ImportGraph} {file : String} {cycle : List String}

/-- A cycle is found only from a file of the graph. -/
theorem mem_names_of_cycleFrom? (h : g.cycleFrom? file = some cycle) : file ∈ g.names := by
  cases hnode : g.find? file with
  | some node => exact mem_names_of_find? hnode
  | none =>
    rw [cycleFrom?, visit, hnode] at h
    cases h

/-- There are no more cycles than files. -/
theorem length_cycles_le (g : ImportGraph) : g.cycles.length ≤ g.entries.length := by
  calc g.cycles.length
    _ ≤ (g.names.filterMap g.cycleFrom?).length := (distinctCycles_sublist [] _).length_le
    _ ≤ g.names.length := List.length_filterMap_le g.cycleFrom? g.names
    _ = g.entries.length := List.length_map Prod.fst

/-- The ring of a cycle that is found from some file is that of one of the cycles of the graph. -/
theorem exists_mem_cycles_of_cycleFrom? (h : g.cycleFrom? file = some cycle) :
    ∃ kept ∈ g.cycles, kept.dropLast.IsRotated cycle.dropLast := by
  have found : cycle ∈ g.names.filterMap g.cycleFrom? :=
    List.mem_filterMap.2 ⟨file, mem_names_of_cycleFrom? h, h⟩
  rcases @exists_mem_distinctCycles [] _ _ found with before | ⟨kept, mem, same⟩
  · cases before
  · exact ⟨kept, mem, leastRotation_eq_iff.1 same⟩

end ImportGraph

/-- No two reported cycles run around the same ring, there are no more of them than files, and each
    cycle that is found from some file runs around the ring of a reported one. The key that rings are
    compared by is the same for two closed chains exactly if their rings are rotations of one
    another. -/
theorem reported_cycles_distinct [Engine] (files : List SourceFile) :
    let analysis := analyzeDependencies files
    (analysis.cycles.Pairwise fun c d => ¬ c.files.dropLast.IsRotated d.files.dropLast) ∧
    analysis.cycles.length ≤ analysis.graph.entries.length ∧
    (∀ file cycle, analysis.graph.cycleFrom? file = some cycle →
      ∃ c ∈ analysis.cycles, c.files.dropLast.IsRotated cycle.dropLast) ∧
    ∀ c d : List String,
      leastRotation c.dropLast = leastRotation d.dropLast ↔ c.dropLast.IsRotated d.dropLast := by
  intro analysis
  refine ⟨?_, ?_, ?_, fun c d => leastRotation_eq_iff⟩
  · exact List.pairwise_map.2 (pairwise_distinctCycles [] _)
  · have same : analysis.cycles.length = analysis.graph.cycles.length :=
      List.length_map CircularDependency.ofCycle
    rw [same]
    exact ImportGraph.length_cycles_le analysis.graph
  · intro file cycle found
    obtain ⟨kept, mem, turned⟩ := ImportGraph.exists_mem_cycles_of_cycleFrom? found
    exact ⟨.ofCycle kept, List.mem_map_of_mem mem, turned⟩

end SourceAudit
