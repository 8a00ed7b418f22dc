/-
Module: SourceAudit.Proofs.Files.Loading
Layer: Proofs
Purpose: What a loading that succeeds has done. Every listed path is accounted for once and in order,
  kept or left out for the first reason that applies to it; no two kept files have the same name and
  size; and the loading used no text of a file that it left out, and no size of one that its name rules
  out.
Main exports: IsSystemName, Admits, Loads, loadSources_eq_ok_iff, LoadAccount, loadSources_account
-/
import SourceAudit.Files.Loading
import SourceAudit.Proofs.Text.Needle
import Mathlib.Data.List.Basic

namespace SourceAudit

/-! ### Names below a root -/

theorem PathStep.name_eq_of_ofSegment? {segment : Text} {name : String}
    (step : PathStep.ofSegment? segment = some (.entry name)) : name = segment.str := by
  rw [PathStep.ofSegment?] at step
  split at step
  · cases step
  · split at step
    · cases step
    · cases step
      rfl

/-- The entries of a path are pieces of it. -/
theorem exists_piece_of_mem_pathSteps {path name : String} (mem : .entry name ∈ pathSteps path) :
    ∃ piece ∈ slashPieces path, name = piece.str := by
  rw [pathSteps] at mem
  cases pieces : slashPieces path with
  | nil =>
    rw [pieces] at mem
    cases mem
  | cons first rest =>
    simp only [pieces, List.mem_append, List.mem_filterMap] at mem
    rcases mem with front | ⟨piece, among, step⟩
    · refine ⟨first, List.mem_cons_self, PathStep.name_eq_of_ofSegment? ?_⟩
      split at front
      · split at front
        · cases front
        · cases List.mem_singleton.1 front
      · split at front
        · cases List.mem_singleton.1 front
        · exact Option.mem_toList.1 front
    · exact ⟨piece, List.mem_cons_of_mem _ among, PathStep.name_eq_of_ofSegment? step⟩

/-- The steps left after others stand behind them. -/
theorem stepsAfter?_eq_some_iff {front steps rest : List PathStep} :
    stepsAfter? front steps = some rest ↔ steps = front ++ rest := by
  induction front generalizing steps with
  | nil => simp [stepsAfter?]
  | cons a front ih =>
    cases steps with
    | nil => simp [stepsAfter?]
    | cons b steps =>
      rw [stepsAfter?]
      split
      · rename_i same
        rw [ih, same]
        simp
      · rename_i other
        simp [Ne.symm other]

/-- The steps that name a path below a root are steps of the path. -/
theorem mem_pathSteps_of_mem_stepsBelow {root path : String} {step : PathStep}
    (mem : step ∈ stepsBelow root path) : step ∈ pathSteps path := by
  rw [stepsBelow] at mem
  split at mem
  · rename_i s rest left
    rw [stepsAfter?_eq_some_iff.1 left]
    exact List.mem_append_right _ mem
  · split at mem
    · rename_i name last
      rw [List.mem_singleton.1 mem]
      exact List.mem_of_getLast? last
    · exact mem

/-- No part of a name holds a separator. -/
theorem separator_not_mem_of_mem_relativeParts {root path part : String}
    (mem : part ∈ relativeParts root path) : '/' ∉ part.toList := by
  obtain ⟨step, below, named⟩ := List.mem_filterMap.1 mem
  cases step with
  | entry name =>
    cases named
    obtain ⟨piece, among, rfl⟩ :=
      exists_piece_of_mem_pathSteps (mem_pathSteps_of_mem_stepsBelow below)
    rw [Text.str, String.toList_ofList]
    intro separator
    have kept := Text.separates_eq_false_of_mem_pieces among separator
    simp at kept
  | top => cases named
  | here => cases named
  | up => cases named

/-- A path that lies below a root is named by the entries that lead to it. -/
theorem relativeName_of_below {root path : String} {names : List String} (some : names ≠ [])
    (below : pathSteps path = pathSteps root ++ names.map .entry) :
    relativeName root path = "/".intercalate names := by
  have left : stepsAfter? (pathSteps root) (pathSteps path) = names.map PathStep.entry :=
    stepsAfter?_eq_some_iff.2 below
  have named : (names.map PathStep.entry).filterMap PathStep.name? = names := by
    simp [List.filterMap_map, Function.comp_def, PathStep.name?]
  cases names with
  | nil => exact absurd rfl some
  | cons name names =>
    simp only [relativeName, relativeParts, stepsBelow, left, List.map_cons]
    rw [← List.map_cons, named]

/-- The segments of a name are its parts; a name without parts is one empty segment. -/
theorem slashPieces_relativeName (root path : String) :
    slashPieces (relativeName root path) =
      if relativeParts root path = [] then [[]] else (relativeParts root path).map String.toList := by
  rw [slashPieces, Text.of, relativeName, String.toList_intercalate]
  split
  · rename_i none
    rw [none]
    rfl
  · rename_i some
    refine Text.pieces_intercalate rfl (by simpa using some) ?_
    intro piece mem c hc
    obtain ⟨part, among, rfl⟩ := List.mem_map.1 mem
    rw [beq_eq_false_iff_ne]
    rintro rfl
    exact separator_not_mem_of_mem_relativeParts among hc

/-- A name with a segment that is hidden or holds metadata of the operating system. -/
def IsSystemName (name : String) : Prop :=
  ∃ segment ∈ slashPieces name, segment.head? = some '.' ∨ segment = "__MACOSX".toList

theorem isSystemPart_iff {part : String} :
    isSystemPart part = true ↔ part.toList.head? = some '.' ∨ part.toList = "__MACOSX".toList := by
  have start : (Text.of part).startsWith "." = true ↔ part.toList.head? = some '.' := by
    rw [Text.startsWith, Text.of, List.isPrefixOf_iff_prefix]
    cases part.toList with
    | nil => simp
    | cons c cs => simp [List.cons_prefix_cons, eq_comm]
  rw [isSystemPart, Bool.or_eq_true, start, beq_iff_eq, String.toList_inj]

theorem any_isSystemPart_iff {root path : String} :
    (relativeParts root path).any isSystemPart = true ↔ IsSystemName (relativeName root path) := by
  rw [IsSystemName, slashPieces_relativeName, List.any_eq_true]
  split
  · rename_i none
    simp [none]
  · simp [isSystemPart_iff]

/-- A name of a file of a kind that is analysed. -/
def IsSupportedName (name : String) : Prop := (extensionOf (Text.of name)).str ∈ supportedExtensions

/-! ### One listed path -/

section

variable {store store' : FileStore} {limit : Nat} {root path : String}

/-- What becomes of a path listed under a root, when the files in `seen` are kept already. The reasons
    are tried in this order, and the size is measured and the text is read only where it is needed. -/
inductive Admits (store : FileStore) (limit : Nat) (root path : String) (seen : List (String × Nat)) :
    LoadEntry → Prop
  | system (hidden : IsSystemName (relativeName root path)) :
      Admits store limit root path seen (.skipped ⟨path, .system⟩)
  | unsupported (visible : ¬ IsSystemName (relativeName root path))
      (unknown : ¬ IsSupportedName (relativeName root path)) :
      Admits store limit root path seen (.skipped ⟨path, .unsupported⟩)
  | tooLarge {size : Nat} (visible : ¬ IsSystemName (relativeName root path))
      (known : IsSupportedName (relativeName root path)) (measured : store.size path = .ok size)
      (large : limit < size) : Admits store limit root path seen (.skipped ⟨path, .tooLarge⟩)
  | duplicate {size : Nat} (visible : ¬ IsSystemName (relativeName root path))
      (known : IsSupportedName (relativeName root path)) (measured : store.size path = .ok size)
      (small : size ≤ limit) (again : (relativeName root path, size) ∈ seen) :
      Admits store limit root path seen (.skipped ⟨path, .duplicate⟩)
  | kept {size : Nat} {content : String} (visible : ¬ IsSystemName (relativeName root path))
      (known : IsSupportedName (relativeName root path)) (measured : store.size path = .ok size)
      (small : size ≤ limit) (new : (relativeName root path, size) ∉ seen)
      (text : store.read path = .ok content) :
      Admits store limit root path seen (.kept path (.named (relativeName root path) content) size)

/-- A computation that gives a value gives one at its first step. -/
theorem bind_eq_ok_iff {α β : Type} {x : Except Fault α} {f : α → Except Fault β} {b : β} :
    x >>= f = .ok b ↔ ∃ a, x = .ok a ∧ f a = .ok b := by
  cases x with
  | error fault =>
    constructor
    · intro h
      cases h
    · rintro ⟨a, h, -⟩
      cases h
  | ok a =>
    constructor
    · exact fun h => ⟨a, rfl, h⟩
    · rintro ⟨a', same, h⟩
      cases same
      exact h

theorem nameReason?_of_isSystemName (hidden : IsSystemName (relativeName root path)) :
    nameReason? (relativeParts root path) (relativeName root path) = some .system :=
  if_pos (any_isSystemPart_iff.2 hidden)

theorem nameReason?_of_not_isSystemName (visible : ¬ IsSystemName (relativeName root path)) :
    nameReason? (relativeParts root path) (relativeName root path) =
      if !supportedExtensions.contains (extensionOf (Text.of (relativeName root path))).str
      then some .unsupported else none :=
  if_neg fun h => visible (any_isSystemPart_iff.1 h)

theorem loadEntry_eq_ok_iff {done : List LoadEntry} {e : LoadEntry} :
    loadEntry store limit root done path = .ok e ↔
      Admits store limit root path (done.filterMap LoadEntry.identity?) e := by
  rw [loadEntry]
  by_cases hidden : IsSystemName (relativeName root path)
  · rw [nameReason?_of_isSystemName hidden]
    constructor
    · intro h
      cases h
      exact .system hidden
    · intro h
      cases h <;> first | rfl | contradiction
  rw [nameReason?_of_not_isSystemName hidden]
  by_cases known : IsSupportedName (relativeName root path)
  · rw [if_neg (by simpa [IsSupportedName] using known)]
    simp only [bind_eq_ok_iff]
    constructor
    · rintro ⟨size, measured, h⟩
      split at h
      · rename_i large
        cases h
        exact .tooLarge hidden known measured large
      · rename_i small
        split at h
        · rename_i again
          cases h
          exact .duplicate hidden known measured (Nat.le_of_not_lt small) again
        · rename_i new
          obtain ⟨content, text, h⟩ := bind_eq_ok_iff.1 h
          cases h
          exact .kept hidden known measured (Nat.le_of_not_lt small) new text
    · intro h
      cases h with
      | system hidden' => exact absurd hidden' hidden
      | unsupported _ unknown => exact absurd known unknown
      | tooLarge _ _ measured large => exact ⟨_, measured, if_pos large⟩
      | duplicate _ _ measured small again =>
        refine ⟨_, measured, ?_⟩
        rw [if_neg (Nat.not_lt_of_le small), if_pos again]
        rfl
      | kept _ _ measured small new text =>
        refine ⟨_, measured, ?_⟩
        rw [if_neg (Nat.not_lt_of_le small), if_neg new]
        exact bind_eq_ok_iff.2 ⟨_, text, rfl⟩
  · rw [if_pos (by simpa [IsSupportedName] using known)]
    constructor
    · intro h
      cases h
      exact .unsupported hidden known
    · intro h
      cases h <;> first | rfl | contradiction

/-- The entry of a path is the same for another store, if that has the same size where the name is
    accepted and the same text where the file is kept. -/
theorem Admits.of_agree {seen : List (String × Nat)} {e : LoadEntry}
    (h : Admits store limit root path seen e)
    (sizes : e ≠ .skipped ⟨path, .system⟩ → e ≠ .skipped ⟨path, .unsupported⟩ →
      store'.size path = store.size path)
    (texts : e.file?.isSome → store'.read path = store.read path) :
    Admits store' limit root path seen e := by
  cases h with
  | system hidden => exact .system hidden
  | unsupported visible unknown => exact .unsupported visible unknown
  | tooLarge visible known measured large =>
    exact .tooLarge visible known ((sizes (by simp) (by simp)).trans measured) large
  | duplicate visible known measured small again =>
    exact .duplicate visible known ((sizes (by simp) (by simp)).trans measured) small again
  | kept visible known measured small new text =>
    exact .kept visible known ((sizes (by simp) (by simp)).trans measured) small new
      ((texts rfl).trans text)

theorem Admits.path_eq {seen : List (String × Nat)} {e : LoadEntry}
    (h : Admits store limit root path seen e) : e.path = path := by
  cases h <;> rfl

/-- The name and size of a kept file are new. -/
theorem Admits.not_mem_of_identity? {seen : List (String × Nat)} {e : LoadEntry}
    (h : Admits store limit root path seen e) {identity : String × Nat}
    (kept : e.identity? = some identity) : identity ∉ seen := by
  cases h with
  | kept _ _ _ _ new _ =>
    cases kept
    exact new
  | system _ => cases kept
  | unsupported _ _ => cases kept
  | tooLarge _ _ _ _ => cases kept
  | duplicate _ _ _ _ _ => cases kept

/-- A path under a root that every filter but the one for duplicates lets through. -/
structure IsAdmissible (store : FileStore) (limit : Nat) (root path : String) (size : Nat) : Prop where
  visible : ¬ IsSystemName (relativeName root path)
  known : IsSupportedName (relativeName root path)
  measured : store.size path = .ok size
  small : size ≤ limit

theorem Admits.duplicate_iff {seen : List (String × Nat)} {e : LoadEntry}
    (h : Admits store limit root path seen e) :
    e = .skipped ⟨path, .duplicate⟩ ↔
      ∃ size, IsAdmissible store limit root path size ∧ (relativeName root path, size) ∈ seen := by
  constructor
  · rintro rfl
    cases h with
    | duplicate visible known measured small again =>
      exact ⟨_, ⟨visible, known, measured, small⟩, again⟩
  · rintro ⟨size, passes, again⟩
    cases h with
    | system hidden => exact absurd hidden passes.visible
    | unsupported _ unknown => exact absurd passes.known unknown
    | tooLarge _ _ measured large =>
      cases measured.symm.trans passes.measured
      exact absurd passes.small (Nat.not_le_of_lt large)
    | duplicate _ _ _ _ _ => rfl
    | kept _ _ measured _ new _ =>
      cases measured.symm.trans passes.measured
      exact absurd again new

end

/-! ### The whole run -/

/-- The paths listed under the roots, each with its root, in order. -/
def FileStore.listing (store : FileStore) : List String → Except Fault (List (String × String))
  | [] => .ok []
  | root :: roots => do
    let paths ← store.list root
    let others ← store.listing roots
    return paths.map (root, ·) ++ others

/-- A loading of listed paths after the entries in `done`: one entry for each path, admitted with the
    files that are kept up to there. -/
inductive Loads (store : FileStore) (limit : Nat) :
    (done : List LoadEntry) → List (String × String) → List LoadEntry → Prop
  | nil {done : List LoadEntry} : Loads store limit done [] []
  | cons {done : List LoadEntry} {root path : String} {e : LoadEntry} {listing : List (String × String)}
      {entries : List LoadEntry}
      (here : Admits store limit root path (done.filterMap LoadEntry.identity?) e)
      (later : Loads store limit (done ++ [e]) listing entries) :
      Loads store limit done ((root, path) :: listing) (e :: entries)

section

variable {store store' : FileStore} {limit : Nat} {roots : List String} {done entries : List LoadEntry}
  {listing : List (String × String)}

/-- A loading of two listings is a loading of one and then of the other. -/
theorem loads_append_iff {listing' : List (String × String)} :
    Loads store limit done (listing ++ listing') entries ↔
      ∃ first second, Loads store limit done listing first ∧
        Loads store limit (done ++ first) listing' second ∧ entries = first ++ second := by
  induction listing generalizing done entries with
  | nil =>
    constructor
    · exact fun h => ⟨[], entries, .nil, by simpa using h, rfl⟩
    · rintro ⟨first, second, front, back, rfl⟩
      cases front
      simpa using back
  | cons place listing ih =>
    constructor
    · intro h
      cases h with
      | cons here later =>
        obtain ⟨first, second, front, back, rfl⟩ := ih.1 later
        exact ⟨_ :: first, second, .cons here front, by simpa using back, rfl⟩
    · rintro ⟨first, second, front, back, rfl⟩
      cases front with
      | cons here later => exact .cons here (ih.2 ⟨_, second, later, by simpa using back, rfl⟩)

theorem foldlM_addEntry_eq_ok_iff {root : String} {paths : List String} {result : List LoadEntry} :
    paths.foldlM (addEntry store limit root) done = .ok result ↔
      ∃ entries, Loads store limit done (paths.map (root, ·)) entries ∧ result = done ++ entries := by
  induction paths generalizing done with
  | nil =>
    constructor
    · intro h
      cases h
      exact ⟨[], .nil, (List.append_nil _).symm⟩
    · rintro ⟨entries, run, rfl⟩
      cases run
      rw [List.append_nil]
      rfl
  | cons path paths ih =>
    rw [List.foldlM_cons, bind_eq_ok_iff]
    constructor
    · rintro ⟨next, step, rest⟩
      obtain ⟨e, here, step⟩ := bind_eq_ok_iff.1 step
      cases step
      obtain ⟨entries, later, rfl⟩ := ih.1 rest
      exact ⟨e :: entries, .cons (loadEntry_eq_ok_iff.1 here) later, by simp⟩
    · rintro ⟨entries, run, rfl⟩
      cases run with
      | cons here later =>
        refine ⟨_, bind_eq_ok_iff.2 ⟨_, loadEntry_eq_ok_iff.2 here, rfl⟩, ih.2 ⟨_, later, ?_⟩⟩
        simp

theorem foldlM_addRoot_eq_ok_iff {result : List LoadEntry} :
    roots.foldlM (addRoot store limit) done = .ok result ↔
      ∃ listing entries, store.listing roots = .ok listing ∧ Loads store limit done listing entries ∧
        result = done ++ entries := by
  induction roots generalizing done with
  | nil =>
    constructor
    · intro h
      cases h
      exact ⟨[], [], rfl, .nil, (List.append_nil _).symm⟩
    · rintro ⟨listing, entries, listed, run, rfl⟩
      cases listed
      cases run
      rw [List.append_nil]
      rfl
  | cons root roots ih =>
    simp only [List.foldlM_cons, addRoot, FileStore.listing, bind_eq_ok_iff]
    constructor
    · rintro ⟨next, ⟨paths, listed, run⟩, rest⟩
      obtain ⟨first, front, rfl⟩ := foldlM_addEntry_eq_ok_iff.1 run
      obtain ⟨others, second, listed', back, rfl⟩ := ih.1 rest
      exact ⟨_, first ++ second, ⟨paths, listed, others, listed', rfl⟩,
        loads_append_iff.2 ⟨first, second, front, back, rfl⟩, List.append_assoc ..⟩
    · rintro ⟨listing, entries, ⟨paths, listed, others, listed', whole⟩, run, rfl⟩
      cases whole
      obtain ⟨first, second, front, back, rfl⟩ := loads_append_iff.1 run
      exact ⟨_, ⟨paths, listed, foldlM_addEntry_eq_ok_iff.2 ⟨first, front, rfl⟩⟩,
        ih.2 ⟨others, second, listed', back, (List.append_assoc ..).symm⟩⟩

/-- A loading succeeds exactly if every root is listed and every listed path is admitted in turn. -/
theorem loadSources_eq_ok_iff {loaded : LoadedSources} :
    loadSources store limit roots = .ok loaded ↔
      ∃ listing entries, store.listing roots = .ok listing ∧ Loads store limit [] listing entries ∧
        loaded = ⟨entries.filterMap LoadEntry.file?, entries.filterMap LoadEntry.skipped?⟩ := by
  rw [loadSources, bind_eq_ok_iff]
  constructor
  · rintro ⟨result, run, whole⟩
    obtain ⟨listing, entries, listed, run, rfl⟩ := foldlM_addRoot_eq_ok_iff.1 run
    cases whole
    exact ⟨listing, _, listed, run, rfl⟩
  · rintro ⟨listing, entries, listed, run, rfl⟩
    exact ⟨entries, foldlM_addRoot_eq_ok_iff.2 ⟨listing, entries, listed, run, rfl⟩, rfl⟩

namespace Loads

theorem map_path_eq (run : Loads store limit done listing entries) :
    entries.map LoadEntry.path = listing.map Prod.snd := by
  induction run with
  | nil => rfl
  | cons here _ ih => rw [List.map_cons, List.map_cons, here.path_eq, ih]

/-- Every entry is admitted with the files that are kept before it. -/
theorem admits (run : Loads store limit done listing entries) {i : Nat} {root path : String}
    {e : LoadEntry} (listed : listing[i]? = some (root, path)) (entry : entries[i]? = some e) :
    Admits store limit root path ((done ++ entries.take i).filterMap LoadEntry.identity?) e := by
  induction run generalizing i with
  | nil => cases listed
  | cons here later ih =>
    cases i with
    | zero =>
      cases listed
      cases entry
      rw [List.take_zero, List.append_nil]
      exact here
    | succ i =>
      have step := ih listed entry
      rwa [List.append_assoc, List.singleton_append, ← List.take_succ_cons] at step

/-- What is kept keeps names and sizes apart. -/
theorem nodup (run : Loads store limit done listing entries)
    (apart : (done.filterMap LoadEntry.identity?).Nodup) :
    ((done ++ entries).filterMap LoadEntry.identity?).Nodup := by
  induction run with
  | nil => rwa [List.append_nil]
  | @cons done root path e listing entries here later ih =>
    rw [List.append_cons]
    apply ih
    rw [List.filterMap_append]
    cases kept : e.identity? with
    | none => simpa [kept] using apart
    | some identity =>
      have new := here.not_mem_of_identity? kept
      rw [List.filterMap_cons_some kept, List.filterMap_nil, List.nodup_append]
      refine ⟨apart, by simp, ?_⟩
      rintro other mem _ last rfl
      exact new (List.mem_singleton.1 last ▸ mem)

/-- A loading is the same from another store that agrees on what was needed. -/
theorem of_agree (run : Loads store limit done listing entries)
    (sizes : ∀ root path e, ((root, path), e) ∈ listing.zip entries →
      e ≠ .skipped ⟨path, .system⟩ → e ≠ .skipped ⟨path, .unsupported⟩ →
      store'.size path = store.size path)
    (texts : ∀ root path e, ((root, path), e) ∈ listing.zip entries → e.file?.isSome →
      store'.read path = store.read path) :
    Loads store' limit done listing entries := by
  induction run with
  | nil => exact .nil
  | cons here later ih =>
    refine .cons (here.of_agree (sizes _ _ _ List.mem_cons_self) (texts _ _ _ List.mem_cons_self)) ?_
    exact ih (fun root path e mem => sizes root path e (List.mem_cons_of_mem _ mem))
      (fun root path e mem => texts root path e (List.mem_cons_of_mem _ mem))

end Loads

theorem listing_congr (same : ∀ root ∈ roots, store'.list root = store.list root) :
    store'.listing roots = store.listing roots := by
  induction roots with
  | nil => rfl
  | cons root roots ih =>
    obtain ⟨first, others⟩ := List.forall_mem_cons.1 same
    rw [FileStore.listing, FileStore.listing, first, ih others]

end

/-- What the entries of a loading say about the listed paths. -/
structure LoadAccount (store : FileStore) (limit : Nat) (listing : List (String × String))
    (entries : List LoadEntry) : Prop where
  /-- There is one entry for each listed path, in order. -/
  paths : entries.map LoadEntry.path = listing.map Prod.snd
  /-- A kept file is named below its root, passes every filter and holds the text of its path. -/
  kept (i : Nat) (root path : String) (file : SourceFile) (size : Nat) :
    listing[i]? = some (root, path) → entries[i]? = some (.kept path file size) →
    IsAdmissible store limit root path size ∧
      ∃ content, store.read path = .ok content ∧ file = .named (relativeName root path) content
  /-- The name of a kept file is the way to it from its root, if it lies below the root. -/
  named (i : Nat) (root path : String) (file : SourceFile) (size : Nat) (names : List String) :
    listing[i]? = some (root, path) → entries[i]? = some (.kept path file size) →
    names ≠ [] → pathSteps path = pathSteps root ++ names.map .entry →
    file.fileName = "/".intercalate names
  /-- No two kept files have the same name and size. -/
  apart : (entries.filterMap LoadEntry.identity?).Nodup
  /-- A path is left out as a duplicate exactly if it passes the other filters and a file of its name
      and size is kept before it. -/
  duplicate (i : Nat) (root path : String) : listing[i]? = some (root, path) →
    (entries[i]? = some (.skipped ⟨path, .duplicate⟩) ↔
      ∃ size, IsAdmissible store limit root path size ∧
        ∃ other file, .kept other file size ∈ entries.take i ∧ file.fileName = relativeName root path)
  /-- Every entry is kept or left out for the first reason that applies. -/
  admits (i : Nat) (root path : String) (e : LoadEntry) :
    listing[i]? = some (root, path) → entries[i]? = some e →
    Admits store limit root path ((entries.take i).filterMap LoadEntry.identity?) e

theorem mem_identities_iff {entries : List LoadEntry} {name : String} {size : Nat} :
    (name, size) ∈ entries.filterMap LoadEntry.identity? ↔
      ∃ path file, .kept path file size ∈ entries ∧ file.fileName = name := by
  rw [List.mem_filterMap]
  constructor
  · rintro ⟨e, mem, identity⟩
    cases e with
    | kept path file size' =>
      cases identity
      exact ⟨path, file, mem, rfl⟩
    | skipped source => cases identity
  · rintro ⟨path, file, mem, rfl⟩
    exact ⟨_, mem, rfl⟩

theorem Loads.account {store : FileStore} {limit : Nat} {listing : List (String × String)}
    {entries : List LoadEntry} (run : Loads store limit [] listing entries) :
    LoadAccount store limit listing entries := by
  have kept (i : Nat) (root path : String) (file : SourceFile) (size : Nat)
      (listed : listing[i]? = some (root, path)) (entry : entries[i]? = some (.kept path file size)) :
      IsAdmissible store limit root path size ∧
        ∃ content, store.read path = .ok content ∧ file = .named (relativeName root path) content := by
    cases run.admits listed entry with
    | kept visible known measured small _ text =>
      exact ⟨⟨visible, known, measured, small⟩, _, text, rfl⟩
  refine ⟨run.map_path_eq, kept, ?_, ?_, ?_, ?_⟩
  · intro i root path file size names listed entry some below
    obtain ⟨-, content, -, rfl⟩ := kept i root path file size listed entry
    exact relativeName_of_below some below
  · simpa using run.nodup (by simp)
  · intro i root path listed
    have place : i < entries.length := by
      have long := congrArg List.length run.map_path_eq
      rw [List.length_map, List.length_map] at long
      rw [long]
      exact (List.getElem?_eq_some_iff.1 listed).1
    have entry := List.getElem?_eq_getElem place
    have here := run.admits listed entry
    rw [entry, Option.some_inj, here.duplicate_iff]
    simp only [List.nil_append, mem_identities_iff]
  · intro i root path e listed entry
    exact run.admits listed entry

/-- A loading that succeeds loses no listed path and keeps no file twice. Each path goes to the files or
    to the paths left out, in order; and any store with the same listings, the same sizes of the files
    whose names are accepted and the same texts of the files that are kept is loaded the same. -/
theorem loadSources_account {store : FileStore} {limit : Nat} {roots : List String}
    {loaded : LoadedSources} (success : loadSources store limit roots = .ok loaded) :
    ∃ listing entries, store.listing roots = .ok listing ∧ LoadAccount store limit listing entries ∧
      loaded.files = entries.filterMap LoadEntry.file? ∧
      loaded.skipped = entries.filterMap LoadEntry.skipped? ∧
      ∀ store' : FileStore, (∀ root ∈ roots, store'.list root = store.list root) →
        (∀ root path e, ((root, path), e) ∈ listing.zip entries →
          e ≠ .skipped ⟨path, .system⟩ → e ≠ .skipped ⟨path, .unsupported⟩ →
          store'.size path = store.size path) →
        (∀ root path e, ((root, path), e) ∈ listing.zip entries → e.file?.isSome →
          store'.read path = store.read path) →
        loadSources store' limit roots = .ok loaded := by
  obtain ⟨listing, entries, listed, run, rfl⟩ := loadSources_eq_ok_iff.1 success
  refine ⟨listing, entries, listed, run.account, rfl, rfl, ?_⟩
  intro store' same sizes texts
  refine loadSources_eq_ok_iff.2 ⟨listing, entries, ?_, run.of_agree sizes texts, rfl⟩
  rw [listing_congr same, listed]

/-- A store with a file for each thing that can become of one. The file of an unknown kind cannot be
    measured, and the file that another root lists once more cannot be read. -/
def crowdedStore : FileStore where
  list root :=
    if root = "/a" then .ok ["/a/.git/hook.js", "/a/logo.png", "/a/big.js", "/a/src/x.js"]
    else .ok ["/b/src/x.js"]
  size path :=
    if path = "/a/logo.png" then .error (.io "gone") else .ok (if path = "/a/big.js" then 2048 else 10)
  read path := if path = "/a/src/x.js" then .ok "x()" else .error (.io "gone")

theorem loadSources_crowdedStore :
    loadSources crowdedStore 1024 ["/a", "/b"] =
      .ok ⟨[.named "src/x.js" "x()"], [⟨"/a/.git/hook.js", .system⟩, ⟨"/a/logo.png", .unsupported⟩,
        ⟨"/a/big.js", .tooLarge⟩, ⟨"/b/src/x.js", .duplicate⟩]⟩ := by
  decide

theorem loadSources_account_crowdedStore :
    ∃ listing entries, crowdedStore.listing ["/a", "/b"] = .ok listing ∧
      LoadAccount crowdedStore 1024 listing entries ∧
      entries.filterMap LoadEntry.file? = [.named "src/x.js" "x()"] := by
  obtain ⟨listing, entries, listed, account, files, -, -⟩ :=
    loadSources_account loadSources_crowdedStore
  exact ⟨listing, entries, listed, account, files.symm⟩

end SourceAudit
