/-
Module: SourceAudit.Proofs.Imports.Cycles
Layer: Proofs
Purpose: What the reported cycles of a project say about its import graph. Each of them is a closed
  chain of imports, and there is one whenever the graph has a cycle. Which files are told is decided
  by the first import of each file that reaches a cycle: these imports alone make a graph with at most
  one way on from each file, and the files told are those that lie on a cycle of this smaller graph.
  A file on a cycle of the whole graph can therefore go untold.
Main exports: ClosedChain, cycleFrom?_stopsAt, exists_mem_cycles_iff,
  cycles_reported_iff_and_closed, told_of_cycle_iff_leadsTo_self, mutual_import_untold
-/
import SourceAudit.Deep.Analyze
import SourceAudit.Proofs.Imports.Walk

namespace SourceAudit

open Relation

/-! ### Closed chains -/

/-- A chain of at least one step that returns to its start and meets no other file twice. -/
structure ClosedChain (R : String → String → Prop) (chain : List String) : Prop where
  long : 2 ≤ chain.length
  closed : chain.head? = chain.getLast?
  distinct : chain.dropLast.Nodup
  linked : chain.IsChain R

namespace ClosedChain

variable {R S : String → String → Prop} {chain : List String}

/-- A closed chain for a relation is one for any wider relation. -/
theorem imp (h : ClosedChain R chain) (wider : ∀ a b, R a b → S a b) : ClosedChain S chain :=
  { h with linked := h.linked.imp wider }

/-- A closed chain is its start, an inner part and its start again. -/
theorem exists_eq (h : ClosedChain R chain) :
    ∃ start inner, chain = start :: (inner ++ [start]) := by
  obtain ⟨long, closed, _, _⟩ := h
  match chain with
  | start :: x :: xs =>
    have hlast : (x :: xs).getLast? = some start := by
      rw [List.getLast?_cons_cons] at closed
      exact closed.symm
    obtain ⟨inner, hinner⟩ := List.getLast?_eq_some_iff.1 hlast
    exact ⟨start, inner, by rw [hinner]⟩

/-- A file of a closed chain is met before its end. -/
theorem mem_dropLast_iff (h : ClosedChain R chain) {file : String} :
    file ∈ chain.dropLast ↔ file ∈ chain := by
  obtain ⟨start, inner, rfl⟩ := h.exists_eq
  rw [← List.cons_append, List.dropLast_concat]
  simp only [List.mem_append, List.mem_cons, List.not_mem_nil, or_false]
  tauto

/-- A file of a closed chain is related to itself along the chain. -/
theorem transGen_self (h : ClosedChain R chain) {file : String} (hfile : file ∈ chain) :
    TransGen R file file := by
  obtain ⟨start, inner, rfl⟩ := h.exists_eq
  have whole : TransGen R start start := ImportGraph.transGen_of_isChain h.linked
  rw [← h.mem_dropLast_iff, ← List.cons_append, List.dropLast_concat] at hfile
  rcases List.mem_cons.1 hfile with rfl | hinner
  · exact whole
  -- Cut the chain at the file: its second half leads back to the start, its first half from there.
  obtain ⟨front, back, rfl⟩ := List.append_of_mem hinner
  have split := h.linked
  rw [List.append_assoc, List.cons_append, List.isChain_cons_split] at split
  exact (ImportGraph.transGen_of_isChain split.2).trans (ImportGraph.transGen_of_isChain split.1)

/-- Where there is only one way on from each file, a closed chain cannot be left. -/
theorem mem_of_rel (h : ClosedChain R chain) (unique : Relator.RightUnique R) {a b : String}
    (ha : a ∈ chain) (hab : R a b) : b ∈ chain := by
  rw [← h.mem_dropLast_iff] at ha
  obtain ⟨start, inner, rfl⟩ := h.exists_eq
  rw [← List.cons_append, List.dropLast_concat] at ha
  obtain ⟨front, back, hsplit⟩ := List.append_of_mem ha
  have linked := h.linked
  rw [← List.cons_append, hsplit, List.append_assoc, List.cons_append] at linked ⊢
  cases back with
  | nil =>
    obtain ⟨_, hstart, _⟩ := List.isChain_append_cons_cons.1 linked
    rw [unique hab hstart]
    simp
  | cons x xs =>
    obtain ⟨_, hx, _⟩ := List.isChain_append_cons_cons.1 linked
    rw [unique hab hx]
    simp

/-- Where there is only one way on from each file, whatever a file of a closed chain leads to is on
    the chain. -/
theorem mem_of_reflTransGen (h : ClosedChain R chain) (unique : Relator.RightUnique R)
    {a b : String} (ha : a ∈ chain) (hab : ReflTransGen R a b) : b ∈ chain := by
  induction hab with
  | refl => exact ha
  | tail _ step ih => exact h.mem_of_rel unique ih step

end ClosedChain

/-! ### The walk from one file -/

namespace ImportGraph

variable {g : ImportGraph}

/-- A file from which no cycle is found reaches none. -/
theorem not_reachesCycle_of_cycleFrom? {file : String} (h : g.cycleFrom? file = none) :
    ¬ g.ReachesCycle file := by
  have walk := (walk_iff_eq_visit g file _).2 rfl
  rw [cycleFrom?] at h
  cases result : g.visit (g.entries.length + 1) [] [] file with
  | error cycle =>
    rw [result] at h
    cases h
  | ok later =>
    rw [result] at walk
    exact (walk.safe (by simp)).1 file (by simp)

/-- How a cycle is found from a file. -/
theorem cycleFrom?_stopsAt {file : String} {cycle : List String} (h : g.cycleFrom? file = some cycle) :
    ∃ way last, StopsAt g [] [file] cycle way last := by
  have walk := (walk_iff_eq_visit g file _).2 rfl
  rw [cycleFrom?] at h
  cases result : g.visit (g.entries.length + 1) [] [] file with
  | error found =>
    rw [result] at h walk
    obtain rfl : found = cycle := Option.some.inj h
    exact walk.stopped List.nodup_nil (by simp) (by simp)
  | ok later =>
    rw [result] at h
    cases h

/-- The cycle of a walk from a file is closed, each file of it leading to the next. -/
theorem StopsAt.closedChain {files cycle way : List String} {last : String}
    (h : StopsAt g [] files cycle way last) : ClosedChain g.LeadsTo cycle := by
  obtain ⟨_, leads, distinct, met, cut⟩ := h
  rw [List.nil_append] at distinct met cut
  obtain ⟨front, back, rfl⟩ := List.append_of_mem met
  have hfront : ∀ x ∈ front, (x != last) = true := by
    intro x hx
    rw [bne_iff_ne]
    rintro rfl
    exact (List.nodup_append.1 distinct).2.2 x hx x List.mem_cons_self rfl
  have hcut : cycle = last :: (back ++ [last]) := by
    rw [cut, List.dropWhile_append_of_pos hfront, List.dropWhile_cons_of_neg (by simp),
      List.cons_append]
  rw [List.append_assoc, List.cons_append] at leads
  rw [hcut]
  refine ⟨by simp, ?_, ?_, (List.isChain_append.1 leads).2.1⟩
  · rw [List.head?_cons, ← List.cons_append, List.getLast?_concat]
  · rw [← List.cons_append, List.dropLast_concat]
    exact (List.nodup_append.1 distinct).2.1

/-- A file leads to the cycle that is found from it. -/
theorem StopsAt.reflTransGen_last {file : String} {cycle way : List String} {last : String}
    (h : StopsAt g [] [file] cycle way last) : ReflTransGen g.LeadsTo file last := by
  obtain ⟨before, next, after, hfiles, _, hhead⟩ := h.entered
  obtain rfl : next = file := by
    have hnext : next ∈ [file] := by rw [hfiles]; simp
    exact List.mem_singleton.1 hnext
  have leads := h.leads
  cases way with
  | nil =>
    obtain rfl : last = next := Option.some.inj hhead
    exact .refl
  | cons x xs =>
    obtain rfl : x = next := Option.some.inj hhead
    exact (transGen_of_isChain leads).to_reflTransGen

/-- The file where the walk stopped is on the cycle. -/
theorem StopsAt.last_mem {path files cycle way : List String} {last : String}
    (h : StopsAt g path files cycle way last) : last ∈ cycle := by
  rw [h.cut]
  simp

end ImportGraph

/-! ### One cycle for each rotation class -/

/-- Choosing the least of some lists gives one of them. -/
theorem foldl_least_mem (first : List String) (others : List (List String)) :
    others.foldl (fun least r => if r < least then r else least) first ∈ first :: others := by
  induction others generalizing first with
  | nil => simp
  | cons r rest ih =>
    rw [List.foldl_cons]
    split
    · exact List.mem_cons_of_mem _ (ih r)
    · rcases List.mem_cons.1 (ih first) with h | h
      · rw [h]
        exact List.mem_cons_self
      · exact List.mem_cons_of_mem _ (List.mem_cons_of_mem _ h)

/-- The least rotation has the files of the list. -/
theorem mem_leastRotation {ring : List String} {file : String} :
    file ∈ leastRotation ring ↔ file ∈ ring := by
  have chosen := foldl_least_mem ring (rotations ring)
  rw [← leastRotation] at chosen
  rcases List.mem_cons.1 chosen with h | h
  · rw [h]
  · obtain ⟨n, _, h⟩ := List.mem_map.1 h
    rw [← h, List.mem_append, or_comm, ← List.mem_append, List.take_append_drop]

/-- Only given cycles are kept, and they stay in their order. -/
theorem distinctCycles_sublist (seen cycles : List (List String)) :
    (distinctCycles seen cycles).Sublist cycles := by
  fun_induction distinctCycles seen cycles with
  | case1 => exact List.Sublist.slnil
  | case2 seen first rest key known ih => exact ih.cons first
  | case3 seen first rest key new ih => exact ih.cons_cons first

/-- For each given cycle one with the same least rotation is kept, or was seen before. -/
theorem exists_mem_distinctCycles {seen cycles : List (List String)} {cycle : List String}
    (h : cycle ∈ cycles) : leastRotation cycle.dropLast ∈ seen ∨
      ∃ kept ∈ distinctCycles seen cycles,
        leastRotation kept.dropLast = leastRotation cycle.dropLast := by
  fun_induction distinctCycles seen cycles with
  | case1 => cases h
  | case2 seen first rest key hkey ih =>
    rcases List.mem_cons.1 h with rfl | h
    · exact .inl hkey
    · exact ih h
  | case3 seen first rest key hkey ih =>
    rcases List.mem_cons.1 h with rfl | h
    · exact .inr ⟨cycle, List.mem_cons_self, rfl⟩
    · rcases ih h with hseen | ⟨kept, hkept, hsame⟩
      · rcases List.mem_cons.1 hseen with hsame | hseen
        · exact .inr ⟨first, List.mem_cons_self, hsame.symm⟩
        · exact .inl hseen
      · exact .inr ⟨kept, List.mem_cons_of_mem _ hkept, hsame⟩

namespace ImportGraph

variable {g : ImportGraph}

/-- Every reported cycle is closed, each file of it leading to the next. -/
theorem closedChain_of_mem_cycles {cycle : List String} (h : cycle ∈ g.cycles) :
    ClosedChain g.LeadsTo cycle := by
  obtain ⟨file, _, hfound⟩ := List.mem_filterMap.1 ((distinctCycles_sublist [] _).subset h)
  obtain ⟨way, last, hstop⟩ := cycleFrom?_stopsAt hfound
  exact hstop.closedChain

/-- From a file that reaches a cycle the walk stops with one, and a cycle through the same files is
    reported. -/
theorem exists_mem_cycles {file : String} (h : g.ReachesCycle file) :
    ∃ found way last, StopsAt g [] [file] found way last ∧
      ∃ kept ∈ g.cycles, ∀ f, f ∈ kept ↔ f ∈ found := by
  cases hfound : g.cycleFrom? file with
  | none => exact absurd h (not_reachesCycle_of_cycleFrom? hfound)
  | some found =>
    obtain ⟨way, last, hstop⟩ := cycleFrom?_stopsAt hfound
    refine ⟨found, way, last, hstop, ?_⟩
    obtain ⟨b, himport, _⟩ := h.exists_import
    have hmem : found ∈ g.names.filterMap g.cycleFrom? :=
      List.mem_filterMap.2 ⟨file, himport.mem_names, hfound⟩
    rcases @exists_mem_distinctCycles [] _ _ hmem with hseen | ⟨kept, hkept, hsame⟩
    · cases hseen
    refine ⟨kept, hkept, ?_⟩
    intro f
    rw [← (closedChain_of_mem_cycles hkept).mem_dropLast_iff, ← hstop.closedChain.mem_dropLast_iff,
      ← mem_leastRotation, hsame, mem_leastRotation]

/-- Where a file leads back to itself, everything it leads to leads back to it. -/
theorem reflTransGen_back {file other : String} (back : TransGen g.LeadsTo file file)
    (h : ReflTransGen g.LeadsTo file other) : ReflTransGen g.LeadsTo other file := by
  induction h with
  | refl => exact .refl
  | tail _ step ih =>
    rcases ih.cases_head with rfl | ⟨next, hnext, rest⟩
    · obtain ⟨next, hnext, rest⟩ := TransGen.head'_iff.1 back
      exact rightUnique_leadsTo g hnext step ▸ rest
    · exact rightUnique_leadsTo g hnext step ▸ rest

/-- The files on reported cycles are those that lead back to themselves. -/
theorem exists_mem_cycles_iff {file : String} :
    (∃ cycle ∈ g.cycles, file ∈ cycle) ↔ TransGen g.LeadsTo file file := by
  constructor
  · rintro ⟨cycle, hcycle, hfile⟩
    exact (closedChain_of_mem_cycles hcycle).transGen_self hfile
  · intro back
    have hreaches : g.ReachesCycle file :=
      ⟨file, .refl, TransGen.mono (fun _ _ h => LeadsTo.imports h) file file back⟩
    obtain ⟨found, way, last, hstop, kept, hkept, hsame⟩ := exists_mem_cycles hreaches
    refine ⟨kept, hkept, (hsame file).2 ?_⟩
    have hback := reflTransGen_back back hstop.reflTransGen_last
    exact hstop.closedChain.mem_of_reflTransGen (rightUnique_leadsTo g) hstop.last_mem hback

end ImportGraph

/-! ### What a project is told -/

/-- The walk from every file comes to an end. A cycle is reported exactly if the import graph has one,
    imports of a file by itself included, and every reported chain is a closed chain of imports. -/
theorem cycles_reported_iff_and_closed [Engine] (files : List SourceFile) :
    let analysis := analyzeDependencies files
    (∀ file r, ImportGraph.Walk analysis.graph [] [] [file] r ↔
      r = analysis.graph.visit (analysis.graph.entries.length + 1) [] [] file) ∧
    (analysis.cycles ≠ [] ↔ ∃ file, TransGen analysis.graph.Imports file file) ∧
    ∀ cycle ∈ analysis.cycles, ClosedChain analysis.graph.Imports cycle.files := by
  intro analysis
  have closed : ∀ cycle ∈ analysis.cycles, ClosedChain analysis.graph.Imports cycle.files := by
    intro cycle hcycle
    obtain ⟨chain, hchain, rfl⟩ := List.mem_map.1 hcycle
    exact (ImportGraph.closedChain_of_mem_cycles hchain).imp fun _ _ h => h.imports
  refine ⟨ImportGraph.walk_iff_eq_visit analysis.graph, ⟨?_, ?_⟩, closed⟩
  · intro reported
    obtain ⟨cycle, hcycle⟩ := List.exists_mem_of_ne_nil _ reported
    obtain ⟨start, inner, heq⟩ := (closed cycle hcycle).exists_eq
    exact ⟨start, (closed cycle hcycle).transGen_self (by simp [heq])⟩
  · rintro ⟨file, hcycle⟩
    obtain ⟨_, _, _, _, kept, hkept, _⟩ := ImportGraph.exists_mem_cycles ⟨file, .refl, hcycle⟩
    exact List.ne_nil_of_mem (List.mem_map_of_mem hkept)

/-- The cycles of one file's view are those of the project that pass through it. -/
theorem forFile_cycles_ne_nil {a : DependencyAnalysis} {file : String} :
    (a.forFile file).cycles ≠ [] ↔ ∃ cycle ∈ a.cycles, file ∈ cycle.files := by
  rw [DependencyAnalysis.forFile, Ne, List.filter_eq_nil_iff]
  simp

/-- A file is told of a cycle exactly if it leads back to itself: going on from it, always to the
    first import from which a cycle can be reached, returns to it. The deep analysis of the file says
    the same, provided that the project has more than one file. -/
theorem told_of_cycle_iff_leadsTo_self [Engine] (files : List SourceFile) (file content : String) :
    (((analyzeDependencies files).forFile file).cycles ≠ [] ↔
      TransGen (analyzeDependencies files).graph.LeadsTo file file) ∧
    ((∃ view, (deepAnalysis file content files).dependencies = some view ∧ view.cycles ≠ []) ↔
      1 < files.length ∧ TransGen (analyzeDependencies files).graph.LeadsTo file file) := by
  have told : ((analyzeDependencies files).forFile file).cycles ≠ [] ↔
      TransGen (analyzeDependencies files).graph.LeadsTo file file := by
    rw [forFile_cycles_ne_nil, ← ImportGraph.exists_mem_cycles_iff]
    simp [analyzeDependencies, CircularDependency.ofCycle]
  refine ⟨told, ?_⟩
  rw [← told]
  simp only [deepAnalysis, deepAnalysisWith, sharedDependencies]
  split
  · simp_all
  · simp_all

/-- Three files in a row of mutual imports, the one in the middle importing the last one first. -/
def mutualNeighbours : List SourceFile :=
  [.named "a.js" "import b from './b';", .named "b.js" "import c from './c';\nimport a from './a';",
    .named "c.js" "import b from './b';"]

attribute [local instance] Engine.standard in
/-- Of three files in a row of mutual imports the first lies on a cycle and is not told so: the walk
    from every file stops at the cycle of the other two. -/
theorem mutual_import_untold :
    TransGen (analyzeDependencies mutualNeighbours).graph.Imports "a.js" "a.js" ∧
      ((analyzeDependencies mutualNeighbours).forFile "a.js").cycles = [] := by
  have there : (analyzeDependencies mutualNeighbours).graph.Imports "a.js" "b.js" := by
    decide +kernel
  have back : (analyzeDependencies mutualNeighbours).graph.Imports "b.js" "a.js" := by
    decide +kernel
  exact ⟨.head there (.single back), by decide +kernel⟩

end SourceAudit
