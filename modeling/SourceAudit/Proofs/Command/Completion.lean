/-
Module: SourceAudit.Proofs.Command.Completion
Layer: Proofs
Purpose: The runs of a command under every schedule. A task is started for each path as permits get
  free, the runs are collected as the tasks end, and what was collected is put in path order. No
  schedule gets stuck, and the runs can be collected in every order. So the lists that a command can
  return are all those that hold the run of each path and are in path order, and there is just one of
  them exactly if no path is given in two spellings: the sort is stable, so it leaves two spellings in
  the order in which their tasks ended.
Main exports: Batch, Batch.Step, Batch.Step.perm, Batch.exists_finished, Batch.reaches_finished_iff,
  Run.filter_inPathOrder, Returns, returns_iff, Returns.map_steps_eq, IsFixed.oneSpelling,
  OneSpelling.isFixed, report_order_fixed_iff, two_spellings_unordered
-/
import Mathlib.Logic.Relation
import SourceAudit.Command.Execute
import SourceAudit.Proofs.Files.PathOrder

namespace SourceAudit

open Relation

/-- The tasks of a command, one for each path. -/
structure Batch (α : Type) where
  /-- The paths whose tasks are still to be started, in order. -/
  waiting : List String
  /-- The paths whose tasks hold a permit. -/
  working : List String
  /-- The runs of tasks that have given their permits back. -/
  ended : List (Run α)
  /-- The runs that were collected, in this order. -/
  collected : List (Run α)

namespace Batch

/-- No task was started yet. -/
def start {α : Type} (paths : List String) : Batch α := ⟨paths, [], [], []⟩

/-- All runs were collected. -/
def finished {α : Type} (runs : List (Run α)) : Batch α := ⟨[], [], [], runs⟩

/-- What can happen next: a task is started, if a permit is free; a task that holds a permit ends, in
    any order; and when all were started, the run of one that has ended is collected. There is always
    at least one permit. -/
inductive Step {α : Type} (permits : Nat) (work : String → Run α) : Batch α → Batch α → Prop where
  | spawn {path : String} {waiting working : List String} {ended collected : List (Run α)}
      (free : working.length < max permits 1) :
      Step permits work ⟨path :: waiting, working, ended, collected⟩
        ⟨waiting, path :: working, ended, collected⟩
  | finish (before : List String) {path : String} {waiting after : List String}
      {ended collected : List (Run α)} :
      Step permits work ⟨waiting, before ++ path :: after, ended, collected⟩
        ⟨waiting, before ++ after, work path :: ended, collected⟩
  | collect (before : List (Run α)) {run : Run α} {working : List String}
      {after collected : List (Run α)} :
      Step permits work ⟨[], working, before ++ run :: after, collected⟩
        ⟨[], working, before ++ after, collected ++ [run]⟩

section

variable {α : Type} {permits : Nat} {work : String → Run α} {b b' : Batch α} {paths : List String}
  {runs ended collected : List (Run α)}

/-! ### What a schedule keeps -/

/-- The runs of all tasks, also of those that have not ended. -/
def allRuns (work : String → Run α) (b : Batch α) : List (Run α) :=
  b.waiting.map work ++ (b.working.map work ++ (b.ended ++ b.collected))

/-- A step loses no run and makes up none. -/
theorem Step.perm (step : Step permits work b b') : (b'.allRuns work).Perm (b.allRuns work) := by
  cases step with
  | spawn free => exact List.perm_middle
  | finish =>
    apply List.Perm.append_left
    simp only [List.map_append, List.map_cons, List.append_assoc, List.cons_append]
    exact List.Perm.append_left _ List.perm_middle
  | collect =>
    apply List.Perm.append_left
    apply List.Perm.append_left
    simp only [List.append_assoc, List.cons_append]
    apply List.Perm.append_left
    rw [← List.append_assoc]
    exact List.perm_append_singleton _ _

theorem perm_of_reaches (steps : ReflTransGen (Step permits work) b b') :
    (b'.allRuns work).Perm (b.allRuns work) := by
  induction steps with
  | refl => exact List.Perm.refl _
  | tail _ step ih => exact step.perm.trans ih

/-- No more tasks hold a permit than there are permits. -/
theorem length_working_le (steps : ReflTransGen (Step permits work) (start paths) b) :
    b.working.length ≤ max permits 1 := by
  induction steps with
  | refl => exact Nat.zero_le _
  | tail _ step ih =>
    cases step with
    | spawn free => exact free
    | finish =>
      simp only [List.length_append, List.length_cons] at ih ⊢
      omega
    | collect => exact ih

/-! ### No schedule gets stuck -/

/-- How many steps are left: three for a task that is still to be started, two for one that holds a
    permit, and one for one that has ended. -/
def remaining (b : Batch α) : Nat := 3 * b.waiting.length + 2 * b.working.length + b.ended.length

theorem Step.remaining_lt (step : Step permits work b b') : b'.remaining < b.remaining := by
  cases step <;> simp only [remaining, List.length_cons, List.length_append, List.length_nil] <;> omega

theorem permits_pos (permits : Nat) : 0 < max permits 1 :=
  Nat.lt_of_lt_of_le Nat.zero_lt_one (Nat.le_max_right permits 1)

/-- As long as not all runs were collected, there is a step to take. -/
theorem exists_step (permits : Nat) (work : String → Run α) (b : Batch α) :
    b = finished b.collected ∨ ∃ b', Step permits work b b' := by
  obtain ⟨waiting, working, ended, collected⟩ := b
  cases working with
  | cons path working => exact .inr ⟨_, Step.finish []⟩
  | nil =>
    cases waiting with
    | cons path waiting => exact .inr ⟨_, Step.spawn (permits_pos permits)⟩
    | nil =>
      cases ended with
      | cons run ended => exact .inr ⟨_, Step.collect []⟩
      | nil => exact .inl rfl

/-- From wherever a schedule has come to, all runs can still be collected. -/
theorem exists_finished (permits : Nat) (work : String → Run α) (b : Batch α) :
    ∃ runs, ReflTransGen (Step permits work) b (finished runs) := by
  induction left : b.remaining using Nat.strongRecOn generalizing b with
  | _ n ih =>
    rcases exists_step permits work b with all | ⟨b', step⟩
    · exact ⟨b.collected, all ▸ ReflTransGen.refl⟩
    · obtain ⟨runs, steps⟩ := ih b'.remaining (left ▸ step.remaining_lt) b' rfl
      exact ⟨runs, ReflTransGen.head step steps⟩

/-! ### The orders in which runs are collected -/

/-- Every task can end before the next one is started, so one permit is enough for all. -/
theorem reaches_all_ended (permits : Nat) (work : String → Run α) (paths : List String)
    (ended collected : List (Run α)) :
    ReflTransGen (Step permits work) ⟨paths, [], ended, collected⟩
      ⟨[], [], (paths.map work).reverse ++ ended, collected⟩ := by
  induction paths generalizing ended with
  | nil => exact ReflTransGen.refl
  | cons path paths ih =>
    have free := permits_pos permits
    have later := ih (work path :: ended)
    rw [List.map_cons, List.reverse_cons, List.append_assoc]
    exact ReflTransGen.head (Step.spawn free) (ReflTransGen.head (Step.finish []) later)

/-- Runs that have ended can be collected in every order. -/
theorem reaches_of_perm (perm : runs.Perm ended) (collected : List (Run α)) :
    ReflTransGen (Step permits work) ⟨[], [], ended, collected⟩ (finished (collected ++ runs)) := by
  induction runs generalizing ended collected with
  | nil =>
    obtain rfl := List.nil_perm.1 perm
    rw [List.append_nil]
    exact ReflTransGen.refl
  | cons run runs ih =>
    obtain ⟨before, after, rfl⟩ := List.append_of_mem (perm.subset List.mem_cons_self)
    have others := List.perm_cons run |>.1 (perm.trans List.perm_middle)
    have later := ih others (collected ++ [run])
    rw [List.append_assoc, List.singleton_append] at later
    exact ReflTransGen.head (Step.collect before) later

/-- Of the tasks that hold a permit, any one can be the next whose run is collected. -/
theorem reaches_next (before : List String) {path : String} {after : List String} :
    ReflTransGen (Step permits work) ⟨[], before ++ path :: after, [], collected⟩
      ⟨[], before ++ after, [], collected ++ [work path]⟩ :=
  .tail (.single (.finish before)) (.collect [])

/-- The runs of all paths are collected, and any order of them can come about. -/
theorem reaches_finished_iff :
    ReflTransGen (Step permits work) (start paths) (finished runs) ↔ runs.Perm (paths.map work) := by
  constructor
  · intro steps
    have kept := perm_of_reaches steps
    simpa [allRuns, start, finished] using kept
  · intro perm
    have order : runs.Perm ((paths.map work).reverse ++ []) := by
      rw [List.append_nil]
      exact perm.trans (List.reverse_perm _).symm
    exact (reaches_all_ended permits work paths [] []).trans (reaches_of_perm order [])

end

end Batch

/-! ### Runs in path order -/

namespace Run

section

variable {α : Type} {a b c : Run α} {runs runs' : List (Run α)}

/-- The steps of the path of a run. -/
def steps (r : Run α) : List PathStep := pathSteps r.path

/-- The path of the one run comes before that of the other, or is the same. -/
def isBefore (a b : Run α) : Bool := pathsInOrder a.path b.path

theorem isBefore_trans (a b c : Run α) (h : a.isBefore b = true) (h' : b.isBefore c = true) :
    a.isBefore c = true := pathsInOrder_trans h h'

theorem isBefore_total (a b : Run α) : (a.isBefore b || b.isBefore a) = true :=
  pathsInOrder_total a.path b.path

theorem isBefore_of_steps_eq (same : a.steps = b.steps) : a.isBefore b = true :=
  pathsInOrder_of_steps_eq same

theorem steps_eq_of_isBefore (h : a.isBefore b = true) (h' : b.isBefore a = true) :
    a.steps = b.steps := steps_eq_of_pathsInOrder h h'

theorem inPathOrder_eq (runs : List (Run α)) : inPathOrder runs = runs.mergeSort isBefore := rfl

theorem inPathOrder_perm (runs : List (Run α)) : (inPathOrder runs).Perm runs :=
  List.mergeSort_perm runs _

theorem pairwise_inPathOrder (runs : List (Run α)) :
    (inPathOrder runs).Pairwise fun a b => a.isBefore b = true := by
  rw [inPathOrder_eq]
  exact List.pairwise_mergeSort isBefore_trans isBefore_total runs

theorem inPathOrder_of_pairwise (sorted : runs.Pairwise fun a b => a.isBefore b = true) :
    inPathOrder runs = runs := by
  rw [inPathOrder_eq]
  exact List.mergeSort_of_pairwise sorted

/-- Sorting is stable: the runs for the spellings of one path stay in the order they were in. -/
theorem filter_inPathOrder (runs : List (Run α)) (steps : List PathStep) :
    (inPathOrder runs).filter (fun r => r.steps = steps) = runs.filter fun r => r.steps = steps := by
  have tied : (runs.filter fun r => r.steps = steps).Pairwise fun a b => a.isBefore b = true := by
    apply List.pairwise_of_forall_mem_list
    intro a mem b mem'
    have first : a.steps = steps := by simpa using (List.mem_filter.1 mem).2
    have second : b.steps = steps := by simpa using (List.mem_filter.1 mem').2
    exact isBefore_of_steps_eq (first.trans second.symm)
  have kept : (runs.filter fun r => r.steps = steps).Sublist (inPathOrder runs) := by
    rw [inPathOrder_eq]
    exact List.sublist_mergeSort isBefore_trans isBefore_total tied List.filter_sublist
  have within := kept.filter fun r => r.steps = steps
  rw [List.filter_filter] at within
  simp only [Bool.and_self] at within
  exact (within.eq_of_length ((inPathOrder_perm runs).filter _).length_eq.symm).symm

/-- Two lists of the same runs that are in path order agree up to the spelling of the paths. -/
theorem map_steps_eq_of_perm (perm : runs.Perm runs')
    (sorted : runs.Pairwise fun a b => a.isBefore b = true)
    (sorted' : runs'.Pairwise fun a b => a.isBefore b = true) : runs.map steps = runs'.map steps := by
  have ordered {l : List (Run α)} (sorted : l.Pairwise fun a b => a.isBefore b = true) :
      (l.map steps).Pairwise fun s s' =>
        keysInOrder (s.map PathStep.key) (s'.map PathStep.key) = true :=
    List.pairwise_map.2 sorted
  apply List.Perm.eq_of_pairwise _ (ordered sorted) (ordered sorted') (perm.map steps)
  intro s s' mem mem' h h'
  obtain ⟨a, -, rfl⟩ := List.mem_map.1 mem
  obtain ⟨b, -, rfl⟩ := List.mem_map.1 mem'
  exact steps_eq_of_isBefore h h'

end

end Run

/-! ### The lists that a command can return -/

/-- A command with so many permits can return this list: its runs were collected along some schedule
    and put in path order. -/
def Returns {α : Type} (permits : Nat) (work : String → Run α) (paths : List String)
    (returned : List (Run α)) : Prop :=
  ∃ runs, ReflTransGen (Batch.Step permits work) (Batch.start paths) (Batch.finished runs) ∧
    Run.inPathOrder runs = returned

/-- Whatever the schedule, a command returns the same list. -/
def IsFixed {α : Type} (permits : Nat) (work : String → Run α) (paths : List String) : Prop :=
  ∀ runs runs', Returns permits work paths runs → Returns permits work paths runs' → runs = runs'

/-- No path is given in two spellings. -/
def OneSpelling (paths : List String) : Prop :=
  ∀ a ∈ paths, ∀ b ∈ paths, pathSteps a = pathSteps b → a = b

instance (paths : List String) : Decidable (OneSpelling paths) :=
  inferInstanceAs (Decidable (∀ a ∈ paths, ∀ b ∈ paths, pathSteps a = pathSteps b → a = b))

section

variable {α : Type} {permits : Nat} {work : String → Run α} {paths : List String}
  {runs runs' : List (Run α)}

/-- A list can be returned exactly if it holds the run of each path and is in path order. -/
theorem returns_iff : Returns permits work paths runs ↔
    runs.Perm (paths.map work) ∧ runs.Pairwise fun a b => a.isBefore b = true := by
  constructor
  · rintro ⟨collected, steps, rfl⟩
    have perm := Batch.reaches_finished_iff.1 steps
    exact ⟨(Run.inPathOrder_perm collected).trans perm, Run.pairwise_inPathOrder collected⟩
  · rintro ⟨perm, sorted⟩
    exact ⟨runs, Batch.reaches_finished_iff.2 perm, Run.inPathOrder_of_pairwise sorted⟩

/-- The tasks can end in any order of the paths. -/
theorem returns_of_perm {order : List String} (perm : order.Perm paths) :
    Returns permits work paths (Run.inPathOrder (order.map work)) :=
  ⟨order.map work, Batch.reaches_finished_iff.2 (perm.map work), rfl⟩

/-- Up to the spelling of paths, the same list is returned under every schedule. -/
theorem Returns.map_steps_eq (h : Returns permits work paths runs)
    (h' : Returns permits work paths runs') : runs.map Run.steps = runs'.map Run.steps := by
  obtain ⟨perm, sorted⟩ := returns_iff.1 h
  obtain ⟨perm', sorted'⟩ := returns_iff.1 h'
  exact Run.map_steps_eq_of_perm (perm.trans perm'.symm) sorted sorted'

/-- Of two tasks, either one can end before all others, and the other one next. -/
theorem exists_perm_cons_cons {a b : String} (mem : a ∈ paths) (mem' : b ∈ paths) (apart : b ≠ a) :
    ∃ rest, (a :: b :: rest).Perm paths := by
  have among : b ∈ paths.erase a := (List.mem_erase_of_ne apart).2 mem'
  refine ⟨(paths.erase a).erase b, ?_⟩
  have first := List.perm_cons_erase mem
  exact ((List.perm_cons_erase among).cons a).symm.trans first.symm

/-- If the schedule does not show, no path is given in two spellings: the one whose task ended first
    would come first. -/
theorem IsFixed.oneSpelling (fixed : IsFixed permits work paths)
    (named : ∀ path, (work path).path = path) : OneSpelling paths := by
  intro a mem b mem' tied
  apply Decidable.byContradiction
  intro other
  obtain ⟨rest, perm⟩ := exists_perm_cons_cons mem mem' (Ne.symm other)
  have perm' : (b :: a :: rest).Perm paths := (List.Perm.swap a b rest).trans perm
  -- The tasks of the two end before all others, in the one order and in the other.
  have same := congrArg (List.filter fun r => r.steps = pathSteps a)
    (fixed _ _ (returns_of_perm perm) (returns_of_perm perm'))
  rw [Run.filter_inPathOrder, Run.filter_inPathOrder] at same
  have chosen : (work a).steps = pathSteps a := congrArg pathSteps (named a)
  have chosen' : (work b).steps = pathSteps a := (congrArg pathSteps (named b)).trans tied.symm
  simp only [List.map_cons, List.filter_cons, chosen, chosen', decide_true, if_true] at same
  have first := congrArg Run.path (List.cons.inj same).1
  rw [named, named] at first
  exact other first

/-- If no path is given in two spellings, the path order leaves no choice. -/
theorem OneSpelling.isFixed (spelling : OneSpelling paths)
    (named : ∀ path, (work path).path = path) : IsFixed permits work paths := by
  intro runs runs' h h'
  obtain ⟨perm, sorted⟩ := returns_iff.1 h
  obtain ⟨perm', sorted'⟩ := returns_iff.1 h'
  apply List.Perm.eq_of_pairwise _ sorted sorted' (perm.trans perm'.symm)
  intro r r' mem mem' before after
  obtain ⟨a, among, rfl⟩ := List.mem_map.1 (perm.subset mem)
  obtain ⟨b, among', rfl⟩ := List.mem_map.1 (perm'.subset mem')
  have tied := Run.steps_eq_of_isBefore before after
  rw [Run.steps, Run.steps, named, named] at tied
  rw [spelling a among b among' tied]

theorem isFixed_iff_oneSpelling (named : ∀ path, (work path).path = path) :
    IsFixed permits work paths ↔ OneSpelling paths := by
  constructor
  · intro fixed
    exact fixed.oneSpelling named
  · intro spelling
    exact spelling.isFixed named

end

theorem analyzeRoot_path [Engine] (disk : Disk) (limit : Nat) (root : String) :
    (analyzeRoot disk limit root).path = root := by
  rw [analyzeRoot]
  split <;> rfl

theorem checkFile_path {α : Type} (disk : Disk) (limit : Nat) (check : (content name : String) → α)
    (path : String) : (checkFile disk limit check path).path = path := rfl

/-- The runs of two projects whose paths are in order. -/
theorem pairwise_analyzeRoot [Engine] {disk : Disk} {limit : Nat} {a b : String}
    (sorted : pathsInOrder a b = true) :
    [analyzeRoot disk limit a, analyzeRoot disk limit b].Pairwise fun r r' => r.isBefore r' = true := by
  apply List.pairwise_pair.2
  rw [Run.isBefore, analyzeRoot_path, analyzeRoot_path]
  exact sorted

/-- What the commands on projects and on files return, whatever the number of permits. The runs in path
    order are among the lists that can come out, and all of those agree up to the spelling of paths. It
    is always the same list exactly if no path is given in two spellings. -/
theorem report_order_fixed_iff [Engine] {α : Type} (permits limit : Nat) (disk : Disk)
    (check : (content name : String) → α) (paths : List String) :
    (Returns permits (analyzeRoot disk limit) paths
        (Run.inPathOrder (paths.map (analyzeRoot disk limit))) ∧
      (∀ runs runs', Returns permits (analyzeRoot disk limit) paths runs →
        Returns permits (analyzeRoot disk limit) paths runs' →
        runs.map Run.steps = runs'.map Run.steps) ∧
      (IsFixed permits (analyzeRoot disk limit) paths ↔ OneSpelling paths)) ∧
    Returns permits (checkFile disk limit check) paths
        (Run.inPathOrder (paths.map (checkFile disk limit check))) ∧
      (∀ runs runs', Returns permits (checkFile disk limit check) paths runs →
        Returns permits (checkFile disk limit check) paths runs' →
        runs.map Run.steps = runs'.map Run.steps) ∧
      (IsFixed permits (checkFile disk limit check) paths ↔ OneSpelling paths) := by
  refine ⟨⟨?_, ?_, ?_⟩, ?_, ?_, ?_⟩
  · exact returns_of_perm (List.Perm.refl paths)
  · exact fun _ _ h h' => h.map_steps_eq h'
  · exact isFixed_iff_oneSpelling (analyzeRoot_path disk limit)
  · exact returns_of_perm (List.Perm.refl paths)
  · exact fun _ _ h h' => h.map_steps_eq h'
  · exact isFixed_iff_oneSpelling (checkFile_path disk limit check)

attribute [local instance] Engine.standard in
/-- Two projects of which the one given first comes last in path order. -/
theorem report_order_fixed_for_two :
    let disk : Disk := ⟨.directory [("a", .directory []), ("b", .directory [])], []⟩
    let returned := [analyzeRoot disk 1024 "a", analyzeRoot disk 1024 "b"]
    Returns 2 (analyzeRoot disk 1024) ["b", "a"] returned ∧ OneSpelling ["b", "a"] ∧
      Run.inPathOrder (["b", "a"].map (analyzeRoot disk 1024)) = returned ∧
      (Run.inPathOrder (["b", "a"].map (analyzeRoot disk 1024))).map Run.steps =
        returned.map Run.steps := by
  intro disk returned
  have sorted : pathsInOrder "a" "b" = true := by decide +kernel
  have possible : Returns 2 (analyzeRoot disk 1024) ["b", "a"] returned :=
    returns_iff.2 ⟨List.Perm.swap _ _ [], pairwise_analyzeRoot sorted⟩
  have spelling : OneSpelling ["b", "a"] := by decide +kernel
  obtain ⟨⟨there, alike, fixed⟩, -⟩ :=
    report_order_fixed_iff 2 1024 disk (fun content _ => content) ["b", "a"]
  exact ⟨possible, spelling, fixed.2 spelling _ _ there possible, alike _ _ there possible⟩

attribute [local instance] Engine.standard in
/-- A project that is given without and with a separator at the end, with a permit for each of the two
    tasks: its two runs are returned in the order in which the tasks end. -/
theorem two_spellings_unordered :
    ¬ ∀ (limit : Nat) (disk : Disk) (roots : List String) (runs runs' : List ProjectRun),
      Returns 2 (analyzeRoot disk limit) roots runs →
        Returns 2 (analyzeRoot disk limit) roots runs' → runs = runs' := by
  intro claim
  let disk : Disk := ⟨.directory [("site", .directory [])], []⟩
  have sorted : pathsInOrder "site" "site/" = true := by decide +kernel
  have sorted' : pathsInOrder "site/" "site" = true := by decide +kernel
  have bothAtWork : ReflTransGen (Batch.Step 2 (analyzeRoot disk 1024)) (.start ["site", "site/"])
      ⟨[], ["site/", "site"], [], []⟩ :=
    .tail (.single (.spawn (by decide))) (.spawn (by decide))
  have first : Returns 2 (analyzeRoot disk 1024) ["site", "site/"]
      [analyzeRoot disk 1024 "site", analyzeRoot disk 1024 "site/"] :=
    ⟨_, bothAtWork.trans ((Batch.reaches_next ["site/"]).trans (Batch.reaches_next [])),
      Run.inPathOrder_of_pairwise (pairwise_analyzeRoot sorted)⟩
  have second : Returns 2 (analyzeRoot disk 1024) ["site", "site/"]
      [analyzeRoot disk 1024 "site/", analyzeRoot disk 1024 "site"] :=
    ⟨_, bothAtWork.trans ((Batch.reaches_next []).trans (Batch.reaches_next [])),
      Run.inPathOrder_of_pairwise (pairwise_analyzeRoot sorted')⟩
  have same := congrArg Run.path (List.cons.inj (claim 1024 disk _ _ _ first second)).1
  rw [analyzeRoot_path, analyzeRoot_path] at same
  exact absurd same (by decide)

end SourceAudit
