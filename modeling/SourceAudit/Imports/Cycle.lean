/-
Module: SourceAudit.Imports.Cycle
Layer: Import graph
Purpose: Cycles in the import graph. From each file a depth-first walk follows the imports in order
  and stops at the first file that is met again on the way; of cycles that are rotations of one
  another only the first is kept.
Main exports: ImportGraph.visit, ImportGraph.cycleFrom?, leastRotation, distinctCycles,
  ImportGraph.cycles
-/
import SourceAudit.Deep.Finding

namespace SourceAudit

namespace ImportGraph

/-- Walks on from a file. `path` is the way to it and `finished` the files from which no cycle can be
    reached. The walk stops with a cycle as an error, or gives the files finished after it. A path
    never holds a file twice, so no walk is deeper than the graph has files. -/
def visit (graph : ImportGraph) :
    (fuel : Nat) → (path finished : List String) → (file : String) → Except (List String) (List String)
  | 0, _, finished, _ => .ok finished
  | fuel + 1, path, finished, file =>
    if file ∈ path then .error (path.dropWhile (· != file) ++ [file])
    else if file ∈ finished then .ok finished
    else
      match graph.find? file with
      | none => .ok finished
      | some node => do
        let finished ← node.dependencies.foldlM (visit graph fuel (path ++ [file])) finished
        return file :: finished

/-- The first cycle met on the walk from a file; its first file is repeated at the end. -/
def cycleFrom? (graph : ImportGraph) (file : String) : Option (List String) :=
  match graph.visit (graph.entries.length + 1) [] [] file with
  | .error cycle => some cycle
  | .ok _ => none

end ImportGraph

/-- The rotations of a list. -/
def rotations (ring : List String) : List (List String) :=
  (List.range ring.length).map fun n => ring.drop n ++ ring.take n

/-- The least rotation of a list in lexicographic order: the same for all rotations of it. -/
def leastRotation (ring : List String) : List String :=
  (rotations ring).foldl (fun least r => if r < least then r else least) ring

/-- The cycles of a list without those that are rotations of an earlier one. `seen` holds the least
    rotations of those kept. -/
def distinctCycles (seen : List (List String)) : List (List String) → List (List String)
  | [] => []
  | cycle :: cycles =>
    let key := leastRotation cycle.dropLast
    if key ∈ seen then distinctCycles seen cycles else cycle :: distinctCycles (key :: seen) cycles

/-- The distinct cycles found from the files of the graph in order. -/
def ImportGraph.cycles (graph : ImportGraph) : List (List String) :=
  distinctCycles [] (graph.names.filterMap graph.cycleFrom?)

end SourceAudit
