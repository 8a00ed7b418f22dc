/-
Module: SourceAudit.Proofs.Imports.Walk
Layer: Proofs
Purpose: The depth-first walk over an import graph, given by rules that carry no bound on the depth.
  The walk of the program is one of these: it always comes to an end before its bound is used up
  (`walk_visit`), because a path holds no file twice. What a walk tells about the graph is then proved
  along its rules. Files that are walked to the end reach no cycle (`Walk.safe`). A walk that stops has
  followed, from each file on its way, the first import from which a cycle can be reached, until it
  met a file of its way again (`Walk.stopped`).
Main exports: ImportGraph.Imports, ImportGraph.ReachesCycle, ImportGraph.LeadsTo, ImportGraph.Walk,
  walk_visit, Walk.safe, Walk.stopped
-/
import Mathlib.Data.List.Chain
import Mathlib.Data.List.Nodup
import Mathlib.Logic.Relation
import SourceAudit.Imports.Cycle

namespace SourceAudit.ImportGraph

open Relation

variable {g : ImportGraph}

/-- One file depends on another: an edge of the graph. -/
def Imports (g : ImportGraph) (a b : String) : Prop :=
  ∃ node, g.find? a = some node ∧ b ∈ node.dependencies

/-- Whether one file depends on another can be read off the graph. -/
instance (g : ImportGraph) (a b : String) : Decidable (g.Imports a b) :=
  decidable_of_iff ((g.find? a).any fun node => node.dependencies.contains b) (by
    rw [Imports, Option.any_eq_true]
    simp)

/-- Some cycle of imports can be reached from the file. -/
def ReachesCycle (g : ImportGraph) (file : String) : Prop :=
  ∃ d, ReflTransGen g.Imports file d ∧ TransGen g.Imports d d

/-- The second file is the first import of the first one from which a cycle can be reached. -/
def LeadsTo (g : ImportGraph) (a b : String) : Prop :=
  ∃ node before after, g.find? a = some node ∧ node.dependencies = before ++ b :: after ∧
    (∀ d ∈ before, ¬ g.ReachesCycle d) ∧ g.ReachesCycle b

/-- The walk through a list of files, given the way to them and the files already walked to the end.
    It gives a cycle as an error, or the files walked to the end after it. Every case asks for less
    than it gives, so only walks that come to an end have a derivation. -/
inductive Walk (g : ImportGraph) :
    (path finished files : List String) → Except (List String) (List String) → Prop where
  | done {path finished : List String} : Walk g path finished [] (.ok finished)
  | closed {path finished rest : List String} {file : String} (onPath : file ∈ path) :
      Walk g path finished (file :: rest) (.error (path.dropWhile (· != file) ++ [file]))
  | known {path finished rest : List String} {file : String} {r : Except (List String) (List String)}
      (offPath : file ∉ path) (isFinished : file ∈ finished) (next : Walk g path finished rest r) :
      Walk g path finished (file :: rest) r
  | outside {path finished rest : List String} {file : String}
      {r : Except (List String) (List String)} (offPath : file ∉ path) (notFinished : file ∉ finished)
      (noNode : g.find? file = none) (next : Walk g path finished rest r) :
      Walk g path finished (file :: rest) r
  | stops {path finished rest cycle : List String} {file : String} {node : DependencyNode}
      (offPath : file ∉ path) (notFinished : file ∉ finished) (hasNode : g.find? file = some node)
      (inside : Walk g (path ++ [file]) finished node.dependencies (.error cycle)) :
      Walk g path finished (file :: rest) (.error cycle)
  | finishes {path finished later rest : List String} {file : String} {node : DependencyNode}
      {r : Except (List String) (List String)} (offPath : file ∉ path)
      (notFinished : file ∉ finished) (hasNode : g.find? file = some node)
      (inside : Walk g (path ++ [file]) finished node.dependencies (.ok later))
      (next : Walk g path (file :: later) rest r) :
      Walk g path finished (file :: rest) r

/-! ### Edges -/

/-- Only files of the graph have a node. -/
theorem mem_names_of_find? {file : String} {node : DependencyNode} (h : g.find? file = some node) :
    file ∈ g.names := by
  rw [ByName.find?, List.lookup_eq_some_iff] at h
  obtain ⟨before, after, entries, _⟩ := h
  rw [ByName.names, entries]
  simp

/-- Only files of the graph import anything. -/
theorem Imports.mem_names {a b : String} (h : g.Imports a b) : a ∈ g.names := by
  obtain ⟨node, hnode, _⟩ := h
  exact mem_names_of_find? hnode

/-- A file that leads to another imports it. -/
theorem LeadsTo.imports {a b : String} (h : g.LeadsTo a b) : g.Imports a b := by
  obtain ⟨node, before, after, hnode, hdeps, _, _⟩ := h
  exact ⟨node, hnode, by simp [hdeps]⟩

/-- No file leads to two files. -/
theorem rightUnique_leadsTo (g : ImportGraph) : Relator.RightUnique g.LeadsTo := by
  intro a b c hb hc
  obtain ⟨node, before, after, hnode, hdeps, hbefore, hb⟩ := hb
  obtain ⟨node', before', after', hnode', hdeps', hbefore', hc⟩ := hc
  obtain rfl : node = node' := Option.some.inj (hnode.symm.trans hnode')
  rw [hdeps] at hdeps'
  -- Whichever of the two stands first would be among the files that reach no cycle.
  rcases List.append_eq_append_iff.1 hdeps' with ⟨mid, h₁, h₂⟩ | ⟨mid, h₁, h₂⟩
  · cases mid with
    | nil => exact (List.cons.inj h₂).1
    | cons x xs =>
      obtain ⟨rfl, _⟩ := List.cons.inj h₂
      exact absurd hb (hbefore' b (by simp [h₁]))
  · cases mid with
    | nil => exact (List.cons.inj h₂).1.symm
    | cons x xs =>
      obtain ⟨rfl, _⟩ := List.cons.inj h₂
      exact absurd hc (hbefore c (by simp [h₁]))

/-- A file that reaches a cycle imports a file that does. -/
theorem ReachesCycle.exists_import {a : String} (h : g.ReachesCycle a) :
    ∃ b, g.Imports a b ∧ g.ReachesCycle b := by
  obtain ⟨d, had, hd⟩ := h
  rcases had.cases_head with rfl | ⟨b, hab, hbd⟩
  · obtain ⟨b, hab, hba⟩ := TransGen.head'_iff.1 hd
    exact ⟨b, hab, a, hba, hd⟩
  · exact ⟨b, hab, d, hbd, hd⟩

/-! ### The walk comes to an end -/

/-- A path stays without repetition when a file that is not on it comes behind. -/
theorem nodup_concat_path {path : List String} {file : String} (offPath : file ∉ path)
    (distinct : path.Nodup) : (path ++ [file]).Nodup := by
  rw [List.nodup_append_comm, List.singleton_append, List.nodup_cons]
  exact ⟨offPath, distinct⟩

/-- A path without repetition through the graph is no longer than the graph. -/
theorem length_path_le {path : List String} (distinct : path.Nodup) (inside : path ⊆ g.names) :
    path.length ≤ g.entries.length := by
  have bound := distinct.length_le_of_subset inside
  rwa [ByName.names, List.length_map] at bound

/-- The walk of the program is a walk by the rules, as long as its bound exceeds what the path leaves
    of the graph. -/
theorem walk_visit {fuel : Nat} {path : List String} (distinct : path.Nodup)
    (inside : path ⊆ g.names) (enough : g.entries.length < fuel + path.length)
    (finished files : List String) :
    Walk g path finished files (files.foldlM (g.visit fuel path) finished) := by
  induction fuel generalizing path finished files with
  | zero =>
    have bound := length_path_le distinct inside
    omega
  | succ fuel ih =>
    induction files generalizing finished with
    | nil => exact .done
    | cons file rest ihRest =>
      rw [List.foldlM_cons, visit]
      by_cases onPath : file ∈ path
      · rw [if_pos onPath]
        exact .closed onPath
      rw [if_neg onPath]
      by_cases isFinished : file ∈ finished
      · rw [if_pos isFinished]
        exact .known onPath isFinished (ihRest finished)
      rw [if_neg isFinished]
      cases hnode : g.find? file with
      | none => exact .outside onPath isFinished hnode (ihRest finished)
      | some node =>
        have inside' : path ++ [file] ⊆ g.names := by
          simpa using ⟨inside, mem_names_of_find? hnode⟩
        have enough' : g.entries.length < fuel + (path ++ [file]).length := by
          rw [List.length_append, List.length_singleton]
          omega
        have deeper := ih (nodup_concat_path onPath distinct) inside' enough' finished node.dependencies
        cases inner : node.dependencies.foldlM (g.visit fuel (path ++ [file])) finished with
        | error cycle =>
          rw [inner] at deeper
          simp only [inner]
          exact .stops onPath isFinished hnode deeper
        | ok later =>
          rw [inner] at deeper
          simp only [inner]
          exact .finishes onPath isFinished hnode deeper (ihRest (file :: later))

/-- A walk by the rules has one result. -/
theorem Walk.unique {path finished files : List String} {r r' : Except (List String) (List String)}
    (h : Walk g path finished files r) (h' : Walk g path finished files r') : r = r' := by
  induction h generalizing r' with
  | done =>
    cases h' with
    | done => rfl
  | closed onPath =>
    cases h' with
    | closed => rfl
    | known offPath | outside offPath | stops offPath | finishes offPath => exact absurd onPath offPath
  | known offPath isFinished _ ih =>
    cases h' with
    | closed onPath => exact absurd onPath offPath
    | known _ _ next => exact ih next
    | outside _ notFinished | stops _ notFinished | finishes _ notFinished =>
      exact absurd isFinished notFinished
  | outside offPath notFinished noNode _ ih =>
    cases h' with
    | closed onPath => exact absurd onPath offPath
    | known _ isFinished => exact absurd isFinished notFinished
    | outside _ _ _ next => exact ih next
    | stops _ _ hasNode | finishes _ _ hasNode => cases noNode.symm.trans hasNode
  | stops offPath notFinished hasNode _ ih =>
    cases h' with
    | closed onPath => exact absurd onPath offPath
    | known _ isFinished => exact absurd isFinished notFinished
    | outside _ _ noNode => cases noNode.symm.trans hasNode
    | stops _ _ hasNode' inside' =>
      cases hasNode.symm.trans hasNode'
      exact ih inside'
    | finishes _ _ hasNode' inside' =>
      cases hasNode.symm.trans hasNode'
      cases ih inside'
  | finishes offPath notFinished hasNode _ _ ihInside ihNext =>
    cases h' with
    | closed onPath => exact absurd onPath offPath
    | known _ isFinished => exact absurd isFinished notFinished
    | outside _ _ noNode => cases noNode.symm.trans hasNode
    | stops _ _ hasNode' inside' =>
      cases hasNode.symm.trans hasNode'
      cases ihInside inside'
    | finishes _ _ hasNode' inside' next' =>
      cases hasNode.symm.trans hasNode'
      cases ihInside inside'
      exact ihNext next'

/-- From a file alone, the walk of the program is the one walk by the rules. -/
theorem walk_iff_eq_visit (g : ImportGraph) (file : String)
    (r : Except (List String) (List String)) :
    Walk g [] [] [file] r ↔ r = g.visit (g.entries.length + 1) [] [] file := by
  have walk : Walk g [] [] [file] (g.visit (g.entries.length + 1) [] [] file) := by
    have all := @walk_visit g (g.entries.length + 1) [] List.nodup_nil (List.nil_subset _)
      (by simp) [] [file]
    simpa only [List.foldlM_cons, List.foldlM_nil, bind_pure] using all
  constructor
  · intro h
    exact h.unique walk
  · rintro rfl
    exact walk

/-! ### Files walked to the end -/

/-- A file whose imports reach no cycle reaches none itself. -/
theorem not_reachesCycle_of_node {file : String} {node : DependencyNode}
    (hnode : g.find? file = some node) (safe : ∀ d ∈ node.dependencies, ¬ g.ReachesCycle d) :
    ¬ g.ReachesCycle file := by
  intro h
  obtain ⟨b, ⟨node', hnode', hb⟩, hcycle⟩ := h.exists_import
  obtain rfl : node = node' := Option.some.inj (hnode.symm.trans hnode')
  exact safe b hb hcycle

/-- A file without a node reaches no cycle. -/
theorem not_reachesCycle_of_no_node {file : String} (noNode : g.find? file = none) :
    ¬ g.ReachesCycle file := by
  intro h
  obtain ⟨b, ⟨node, hnode, _⟩, _⟩ := h.exists_import
  rw [noNode] at hnode
  cases hnode

/-- What a walk has gone through to the end reaches no cycle. -/
theorem Walk.safe {path finished files later : List String}
    (h : Walk g path finished files (.ok later)) (safe : ∀ f ∈ finished, ¬ g.ReachesCycle f) :
    (∀ f ∈ files, ¬ g.ReachesCycle f) ∧ ∀ f ∈ later, ¬ g.ReachesCycle f := by
  generalize hr : Except.ok later = r at h
  induction h generalizing later with
  | done =>
    cases hr
    exact ⟨by simp, safe⟩
  | closed => cases hr
  | known _ isFinished _ ih =>
    obtain ⟨hrest, hlater⟩ := ih safe hr
    exact ⟨List.forall_mem_cons.2 ⟨safe _ isFinished, hrest⟩, hlater⟩
  | outside _ _ noNode _ ih =>
    obtain ⟨hrest, hlater⟩ := ih safe hr
    exact ⟨List.forall_mem_cons.2 ⟨not_reachesCycle_of_no_node noNode, hrest⟩, hlater⟩
  | stops => cases hr
  | finishes _ _ hnode _ _ ihInside ihNext =>
    obtain ⟨hdeps, hinner⟩ := ihInside safe rfl
    have hfile := not_reachesCycle_of_node hnode hdeps
    obtain ⟨hrest, hlater⟩ := ihNext (List.forall_mem_cons.2 ⟨hfile, hinner⟩) hr
    exact ⟨List.forall_mem_cons.2 ⟨hfile, hrest⟩, hlater⟩

/-! ### Walks that stop -/

/-- Along a chain with an inner part of any length, its first member is related to its last. -/
theorem transGen_of_isChain {R : String → String → Prop} {a b : String} {l : List String}
    (h : (a :: (l ++ [b])).IsChain R) : TransGen R a b := by
  induction l generalizing a with
  | nil => exact .single (List.isChain_pair.1 h)
  | cons x xs ih =>
    obtain ⟨hax, hxs⟩ := List.isChain_cons_cons.1 h
    exact .head hax (ih hxs)

/-- How a walk stops: of its files it passes over some that reach no cycle, goes on from the next one
    along `way`, always to the first import that reaches a cycle, and so comes to a file `last` that
    is on its way already. -/
structure StopsAt (g : ImportGraph) (path files cycle way : List String) (last : String) : Prop where
  entered : ∃ before file after, files = before ++ file :: after ∧
    (∀ d ∈ before, ¬ g.ReachesCycle d) ∧ (way ++ [last]).head? = some file
  leads : (way ++ [last]).IsChain g.LeadsTo
  distinct : (path ++ way).Nodup
  met : last ∈ path ++ way
  cut : cycle = (path ++ way).dropWhile (· != last) ++ [last]

namespace StopsAt

variable {path files cycle way : List String} {last : String}

/-- The same stop, with one more file in front that reaches no cycle. -/
theorem pass {file : String} (h : StopsAt g path files cycle way last)
    (safe : ¬ g.ReachesCycle file) : StopsAt g path (file :: files) cycle way last := by
  obtain ⟨before, next, after, hfiles, hbefore, hnext⟩ := h.entered
  refine { h with entered := ⟨file :: before, next, after, ?_, ?_, hnext⟩ }
  · rw [hfiles, List.cons_append]
  · exact List.forall_mem_cons.2 ⟨safe, hbefore⟩

/-- The whole way is a way of imports, if the walk was led to each of its files by an import. -/
theorem isChain_imports (h : StopsAt g path files cycle way last)
    (led : ∀ f ∈ files, (path ++ [f]).IsChain g.Imports) :
    (path ++ (way ++ [last])).IsChain g.Imports := by
  obtain ⟨before, file, after, hfiles, _, hhead⟩ := h.entered
  have hfile := led file (by simp [hfiles])
  obtain ⟨hpath, _, hlast⟩ := List.isChain_append.1 hfile
  refine List.isChain_append.2 ⟨hpath, h.leads.imp fun _ _ hab => hab.imports, ?_⟩
  intro x hx y hy
  obtain rfl : y = file := by
    rw [hhead] at hy
    exact (Option.some.inj hy).symm
  exact hlast x hx y (by simp)

/-- The file at which the walk stopped is on a cycle. -/
theorem transGen_last (h : StopsAt g path files cycle way last)
    (led : ∀ f ∈ files, (path ++ [f]).IsChain g.Imports) : TransGen g.Imports last last := by
  obtain ⟨front, back, hsplit⟩ := List.append_of_mem h.met
  have chain := h.isChain_imports led
  rw [← List.append_assoc, hsplit, List.append_assoc, List.cons_append] at chain
  exact transGen_of_isChain (List.isChain_append.1 chain).2.1

/-- The file from which the walk went on reaches a cycle. -/
theorem reachesCycle (h : StopsAt g path files cycle way last)
    (led : ∀ f ∈ files, (path ++ [f]).IsChain g.Imports) {file : String}
    (hhead : (way ++ [last]).head? = some file) : g.ReachesCycle file := by
  refine ⟨last, ?_, h.transGen_last led⟩
  have chain := h.leads.imp fun _ _ hab => hab.imports
  cases way with
  | nil =>
    obtain rfl : last = file := Option.some.inj hhead
    exact .refl
  | cons x xs =>
    obtain rfl : x = file := Option.some.inj hhead
    exact (transGen_of_isChain chain).to_reflTransGen

end StopsAt

/-- A walk that stops has gone, from each file on its way, to the first import that reaches a
    cycle. -/
theorem Walk.stopped {path finished files cycle : List String}
    (h : Walk g path finished files (.error cycle)) (distinct : path.Nodup)
    (led : ∀ f ∈ files, (path ++ [f]).IsChain g.Imports)
    (safe : ∀ f ∈ finished, ¬ g.ReachesCycle f) :
    ∃ way last, StopsAt g path files cycle way last := by
  generalize hr : Except.error cycle = r at h
  induction h generalizing cycle with
  | done => cases hr
  | @closed path finished rest file onPath =>
    cases hr
    refine ⟨[], file, ⟨[], file, rest, rfl, by simp, rfl⟩, by simp, ?_, ?_, ?_⟩
    · simpa using distinct
    · simpa using onPath
    · rw [List.append_nil]
  | known _ isFinished _ ih =>
    obtain ⟨way, last, hstop⟩ := ih distinct (fun f hf => led f (List.mem_cons_of_mem _ hf)) safe hr
    exact ⟨way, last, hstop.pass (safe _ isFinished)⟩
  | outside _ _ noNode _ ih =>
    obtain ⟨way, last, hstop⟩ := ih distinct (fun f hf => led f (List.mem_cons_of_mem _ hf)) safe hr
    exact ⟨way, last, hstop.pass (not_reachesCycle_of_no_node noNode)⟩
  | @stops path finished rest _ file node offPath _ hnode _ ih =>
    have hfile := led file List.mem_cons_self
    have led' : ∀ f ∈ node.dependencies, (path ++ [file] ++ [f]).IsChain g.Imports := by
      intro f hf
      rw [List.append_assoc, List.singleton_append]
      exact List.isChain_append_cons_cons.2 ⟨hfile, ⟨node, hnode, hf⟩, .singleton f⟩
    obtain ⟨way, last, hstop⟩ := ih (nodup_concat_path offPath distinct) led' safe hr
    obtain ⟨before, next, after, hdeps, hbefore, hnext⟩ := hstop.entered
    -- The stop inside is one for the file itself, which leads to the import it went on from.
    have hleads : g.LeadsTo file next :=
      ⟨node, before, after, hnode, hdeps, hbefore, hstop.reachesCycle led' hnext⟩
    have hpath : path ++ file :: way = path ++ [file] ++ way := by simp
    refine ⟨file :: way, last, ⟨[], file, rest, rfl, by simp, rfl⟩, ?_, ?_, ?_, ?_⟩
    · rw [List.cons_append, List.isChain_cons]
      refine ⟨?_, hstop.leads⟩
      intro y hy
      rw [hnext] at hy
      exact Option.some.inj hy ▸ hleads
    · exact hpath ▸ hstop.distinct
    · exact hpath ▸ hstop.met
    · exact hpath ▸ hstop.cut
  | finishes _ _ hnode inside _ _ ihNext =>
    obtain ⟨hdeps, hlater⟩ := inside.safe safe
    have hfile := not_reachesCycle_of_node hnode hdeps
    obtain ⟨way, last, hstop⟩ := ihNext distinct (fun f hf => led f (List.mem_cons_of_mem _ hf))
      (List.forall_mem_cons.2 ⟨hfile, hlater⟩) hr
    exact ⟨way, last, hstop.pass hfile⟩

end SourceAudit.ImportGraph
