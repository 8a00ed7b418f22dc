/-
Module: SourceAudit.Proofs.Imports.Relative
Layer: Proofs
Purpose: Relative imports mean the file that they walk to. A path is read segment by segment onto the
  segments above it, so reading a specifier that goes up and then down again behind the directory of
  the importer ends at the path that it was made for. Among names in normal form the search for a
  candidate is a search for the candidate itself: the first one that is listed is found, in whatever
  order the names are listed.
Main exports: IsNormal, IsSegment, enter_append, enter_relativeSpecifier, WalksTo,
  normalizePath_of_walksTo, exists_walksTo, firstListed?, resolveRelative_eq, relative_import_resolves
-/
import Mathlib.Data.List.DropRight
import SourceAudit.Proofs.Source.Names

namespace SourceAudit

/-- A path in normal form: single separators, and no dots to resolve. -/
def IsNormal (path : Text) : Prop := normalizePath path = path

instance (path : Text) : Decidable (IsNormal path) := inferInstanceAs (Decidable (_ = _))

/-- A segment that stays when a path is brought into normal form. -/
structure IsSegment (segment : Text) : Prop where
  nonempty : segment ≠ []
  notDot : segment ≠ ['.']
  notDots : segment ≠ ['.', '.']
  whole : ∀ c ∈ segment, isPathSeparator c = false

/-- One segment read onto the segments above it, of which the last one comes first. -/
def enterSegment (above : List Text) (segment : Text) : List Text :=
  if segment.isEmpty || segment = ['.'] then above
  else if segment = ['.', '.'] then above.tail
  else segment :: above

/-- A path read onto the segments above it. -/
def enter (above : List Text) (path : Text) : List Text :=
  (path.pieces isPathSeparator).foldl enterSegment above

section

variable {above segments : List Text} {segment path : Text}

/-! ### Reading a path onto the segments above it -/

theorem pathSegments_eq (path : Text) : pathSegments path = (enter [] path).reverse := rfl

theorem enterSegment_of_isSegment (h : IsSegment segment) :
    enterSegment above segment = segment :: above := by
  simp [enterSegment, h.nonempty, h.notDot, h.notDots]

theorem foldl_enterSegment (h : ∀ s ∈ segments, IsSegment s) :
    segments.foldl enterSegment above = segments.reverse ++ above := by
  induction segments generalizing above with
  | nil => rfl
  | cons s segments ih =>
    obtain ⟨first, others⟩ := List.forall_mem_cons.1 h
    rw [List.foldl_cons, enterSegment_of_isSegment first, ih others, List.reverse_cons,
      List.append_assoc, List.singleton_append]

/-- Reading a segment puts only a segment that stays in front of those above. -/
theorem isSegment_of_mem_enterSegment (standing : ∀ s ∈ above, IsSegment s)
    (whole : ∀ c ∈ segment, isPathSeparator c = false) :
    ∀ s ∈ enterSegment above segment, IsSegment s := by
  rw [enterSegment]
  split
  · exact standing
  · rename_i idle
    rw [Bool.or_eq_true, not_or, List.isEmpty_iff, decide_eq_true_eq] at idle
    split
    · intro s mem
      exact standing s (List.mem_of_mem_tail mem)
    · rename_i notDots
      exact List.forall_mem_cons.2 ⟨⟨idle.1, idle.2, notDots, whole⟩, standing⟩

theorem isSegment_of_mem_foldl (standing : ∀ s ∈ above, IsSegment s)
    (whole : ∀ s ∈ segments, ∀ c ∈ s, isPathSeparator c = false) :
    ∀ s ∈ segments.foldl enterSegment above, IsSegment s := by
  induction segments generalizing above with
  | nil => exact standing
  | cons s segments ih =>
    obtain ⟨first, others⟩ := List.forall_mem_cons.1 whole
    exact ih (isSegment_of_mem_enterSegment standing first) others

theorem isSegment_of_mem_pathSegments {s : Text} (mem : s ∈ pathSegments path) : IsSegment s := by
  rw [pathSegments_eq, List.mem_reverse] at mem
  apply isSegment_of_mem_foldl (by simp) _ s mem
  intro piece among c inside
  exact Text.separates_eq_false_of_mem_pieces among inside

/-- Behind a separator the reading goes on from the segments in front of it. -/
theorem enter_append {x : Char} (separator : isPathSeparator x = true) (above : List Text)
    (a b : Text) : enter above (a ++ x :: b) = enter (enter above a) b := by
  rw [enter, Text.pieces_append separator, List.foldl_append]
  rfl

theorem enter_intercalate (h : ∀ s ∈ segments, IsSegment s) :
    enter above (List.intercalate ['/'] segments) = segments.reverse ++ above := by
  cases segments with
  | nil => rfl
  | cons s segments =>
    rw [enter, Text.pieces_intercalate rfl (List.cons_ne_nil s segments) fun s mem => (h s mem).whole,
      foldl_enterSegment h]

/-! ### Paths in normal form -/

theorem IsNormal.intercalate (normal : IsNormal path) :
    List.intercalate ['/'] (pathSegments path) = path := normal

/-- The pieces of a path in normal form are the segments that stay. -/
theorem IsNormal.isSegment_of_mem_pieces (normal : IsNormal path) (some : path ≠ [])
    (mem : segment ∈ path.pieces isPathSeparator) : IsSegment segment := by
  have staying : ∀ s ∈ pathSegments path, IsSegment s := fun s => isSegment_of_mem_pathSegments
  have segments : pathSegments path ≠ [] := by
    intro none
    apply some
    rw [← normal.intercalate, none]
    rfl
  rw [← normal.intercalate, Text.pieces_intercalate rfl segments fun s among => (staying s among).whole]
    at mem
  exact staying segment mem

end

/-! ### Relative specifiers -/

/-- The specifier that goes up so many directories and then along the segments. -/
def relativeSpecifier (up : Nat) (segments : List Text) : Text :=
  (if up = 0 then Text.of "./" else Text.times (Text.of "../") up) ++ List.intercalate ['/'] segments

/-- The specifier walks from the directory to the path: it goes up some directories, at least to one
    that the path lies in, and from there along the rest of the path. -/
def WalksTo (directory path specifier : Text) : Prop :=
  ∃ up rest, (∀ s ∈ rest, IsSegment s) ∧
    path = List.intercalate ['/'] ((pathSegments directory).rdrop up ++ rest) ∧
    specifier = relativeSpecifier up rest

section

variable {above segments : List Text} {directory path specifier : Text}

theorem enter_times (above : List Text) (up : Nat) (path : Text) :
    enter above (Text.times (Text.of "../") up ++ path) = enter (above.drop up) path := by
  induction up generalizing above with
  | zero => rfl
  | succ up ih =>
    have first : Text.times (Text.of "../") (up + 1) ++ path =
        ['.', '.'] ++ '/' :: (Text.times (Text.of "../") up ++ path) := rfl
    have upward : enter above ['.', '.'] = above.drop 1 := List.drop_one.symm
    rw [first, enter_append rfl, upward, ih, List.drop_drop, Nat.add_comm]

/-- A specifier leaves as many of the segments above as it goes up and then adds its own. -/
theorem enter_relativeSpecifier (h : ∀ s ∈ segments, IsSegment s) (up : Nat) :
    enter above (relativeSpecifier up segments) = segments.reverse ++ above.drop up := by
  cases up with
  | zero =>
    have first : relativeSpecifier 0 segments = ['.'] ++ '/' :: List.intercalate ['/'] segments := rfl
    have same : enter above ['.'] = above := rfl
    rw [first, enter_append rfl, same, enter_intercalate h, List.drop_zero]
  | succ up =>
    rw [relativeSpecifier, if_neg (Nat.succ_ne_zero up), enter_times, enter_intercalate h]

theorem exists_relativeSpecifier_eq (up : Nat) (segments : List Text) :
    ∃ dots rest, (dots = ['.'] ∨ dots = ['.', '.']) ∧
      relativeSpecifier up segments = dots ++ '/' :: rest := by
  cases up with
  | zero => exact ⟨['.'], _, .inl rfl, rfl⟩
  | succ up => exact ⟨['.', '.'], _, .inr rfl, rfl⟩

/-- A specifier that walks somewhere starts with dots that are still to be resolved. -/
theorem WalksTo.not_isNormal (walks : WalksTo directory path specifier) : ¬ IsNormal specifier := by
  obtain ⟨up, rest, -, -, rfl⟩ := walks
  obtain ⟨dots, behind, dotted, split⟩ := exists_relativeSpecifier_eq up rest
  intro normal
  have first : dots ∈ (relativeSpecifier up rest).pieces isPathSeparator := by
    rw [split, Text.pieces_append rfl]
    rcases dotted with rfl | rfl
    · exact List.mem_append_left _ List.mem_cons_self
    · exact List.mem_append_left _ List.mem_cons_self
  have staying : IsSegment dots := by
    apply normal.isSegment_of_mem_pieces _ first
    rw [split]
    simp
  rcases dotted with rfl | rfl
  · exact staying.notDot rfl
  · exact staying.notDots rfl

theorem WalksTo.startsWith (walks : WalksTo directory path specifier) :
    specifier.startsWith "." = true := by
  obtain ⟨up, rest, -, -, rfl⟩ := walks
  cases up with
  | zero => rfl
  | succ up => rfl

/-- The directory part of a path is empty or ends in a separator. -/
theorem parentDir_cases (path : Text) : parentDir path = [] ∨
    ∃ front x, isPathSeparator x = true ∧ parentDir path = front ++ [x] := by
  obtain ⟨dir, base, rfl, isDir, single⟩ := exists_nameParts path
  rw [parentDir_append isDir single]
  rcases dir.eq_nil_or_concat with rfl | ⟨front, x, rfl⟩
  · exact .inl rfl
  · exact .inr ⟨front, x, isDir x (by simp), List.concat_eq_append⟩

/-- A path behind the directory part of another one is read onto the segments of that. -/
theorem enter_parentDir_append (importer path : Text) :
    enter [] (parentDir importer ++ path) = enter (enter [] (parentDir importer)) path := by
  rcases parentDir_cases importer with top | ⟨front, x, separator, split⟩
  · rw [top]
    rfl
  · have idle : enter (enter [] front) [] = enter [] front := rfl
    rw [split, List.append_assoc, List.singleton_append, enter_append separator, enter_append separator,
      idle]

/-- From the directory of the importer a specifier leads to the path that it walks to. -/
theorem normalizePath_of_walksTo {importer : Text}
    (walks : WalksTo (parentDir importer) path specifier) :
    normalizePath (parentDir importer ++ specifier) = path := by
  obtain ⟨up, rest, staying, rfl, rfl⟩ := walks
  have same : pathSegments (parentDir importer ++ relativeSpecifier up rest) =
      (pathSegments (parentDir importer)).rdrop up ++ rest := by
    rw [pathSegments_eq, enter_parentDir_append, enter_relativeSpecifier staying, List.reverse_append,
      List.reverse_reverse, pathSegments_eq, List.rdrop_eq_reverse_drop_reverse, List.reverse_reverse]
  rw [normalizePath, same]

/-- Every path in normal form can be walked to from every directory. -/
theorem exists_walksTo (normal : IsNormal path) (directory : Text) :
    ∃ specifier, WalksTo directory path specifier := by
  refine ⟨_, (pathSegments directory).length, pathSegments path, ?_, ?_, rfl⟩
  · intro s mem
    exact isSegment_of_mem_pathSegments mem
  · rw [List.rdrop, Nat.sub_self, List.take_zero, List.nil_append, normal.intercalate]

end

/-! ### Looking a candidate up -/

/-- The first of the paths that an import of `target` may mean that is listed. -/
def firstListed? (target : Text) (names : List String) : Option String :=
  ((candidateTargets target).map Text.str).find? fun candidate => candidate ∈ names

section

variable {names : List String} {importer target : String} {path specifier : Text}

theorem find?_normalizePath (normal : ∀ name ∈ names, IsNormal name) (candidate : Text) :
    names.find? (fun name => normalizePath (Text.of name) == candidate) =
      if candidate.str ∈ names then some candidate.str else none := by
  induction names with
  | nil => rfl
  | cons name names ih =>
    obtain ⟨here, others⟩ := List.forall_mem_cons.1 normal
    have plain : normalizePath (Text.of name) = Text.of name := here
    rw [List.find?_cons, plain, ih others]
    by_cases found : Text.of name = candidate
    · have same : candidate.str = name := by
        rw [← found]
        exact String.ofList_toList
      simp [found, same]
    · have other : candidate.str ≠ name := by
        rintro rfl
        exact found (Text.of_str candidate)
      have missed : (Text.of name == candidate) = false := beq_eq_false_iff_ne.2 found
      rw [missed]
      simp [other]

theorem findSome?_listed (candidates : List Text) :
    (candidates.findSome? fun c => if c.str ∈ names then some c.str else none) =
      (candidates.map Text.str).find? fun c => c ∈ names := by
  induction candidates with
  | nil => rfl
  | cons c candidates ih =>
    rw [List.findSome?_cons, List.map_cons, List.find?_cons, ih]
    by_cases listed : c.str ∈ names
    · simp [listed]
    · simp [listed]

/-- A relative import means the first candidate that is listed. -/
theorem resolveRelative_eq (normal : ∀ name ∈ names, IsNormal name)
    (walks : WalksTo (parentDir (Text.of importer)) path specifier) :
    resolveRelative (Text.of importer) specifier names = firstListed? path names := by
  rw [resolveRelative, if_pos walks.startsWith, normalizePath_of_walksTo walks]
  simp only [find?_normalizePath normal]
  exact findSome?_listed (candidateTargets path)

/-- No name is in the way of a relative import: none is spelled like the specifier. -/
theorem resolveImport_of_walksTo {first : String} (normal : ∀ name ∈ names, IsNormal name)
    (walks : WalksTo (parentDir (Text.of importer)) path specifier)
    (found : firstListed? path names = some first) :
    resolveImport importer specifier.str names = some first := by
  have unlisted : names.find? (· == specifier.str) = none := by
    rw [List.find?_eq_none]
    intro name mem same
    apply walks.not_isNormal
    have normal := normal name mem
    rw [eq_of_beq same] at normal
    rwa [← Text.of_str specifier]
  rw [resolveImport, unlisted, Text.of_str, resolveRelative_eq normal walks, found]

/-- With several candidates the plain extension comes before the index file, and one extension before
    the other. -/
example : resolveImport "a.js" "./b" ["b/index.js", "b.ts", "b.js"] = some "b.js" := by decide +kernel

/-- The order of the names has nothing to do with the candidate that is found first. -/
theorem firstListed?_perm {order : List String} (perm : order.Perm names) (path : Text) :
    firstListed? path order = firstListed? path names := by
  simp only [firstListed?, perm.mem_iff]

/-- Where a candidate is listed, one is found. -/
theorem exists_firstListed? (listed : target ∈ names)
    (candidate : Text.of target ∈ candidateTargets path) :
    ∃ first, firstListed? path names = some first ∧ first ∈ names ∧
      Text.of first ∈ candidateTargets path := by
  cases found : firstListed? path names with
  | none =>
    have absent := List.find?_eq_none.1 found target
      (List.mem_map.2 ⟨_, candidate, String.ofList_toList⟩)
    simp [listed] at absent
  | some first =>
    refine ⟨first, rfl, by simpa using List.find?_some found, ?_⟩
    obtain ⟨c, among, rfl⟩ := List.mem_map.1 (List.mem_of_find?_eq_some found)
    rwa [Text.of_str]

end

/-- Among files whose names are in normal form, an import that walks from the directory of the importing
    file to a path means a file as soon as one of the candidates for the path is listed: the first of
    them, in whatever order the names are listed. So it means the file that it points at where this is
    the only candidate listed. -/
theorem relative_import_resolves {names : List String} {importer target : String}
    {path specifier : Text} (normal : ∀ name ∈ names, IsNormal name)
    (walks : WalksTo (parentDir (Text.of importer)) path specifier) (listed : target ∈ names)
    (candidate : Text.of target ∈ candidateTargets path) (order : List String)
    (perm : order.Perm names) :
    (∃ first, firstListed? path names = some first ∧
      resolveImport importer specifier.str order = some first) ∧
    ((∀ name ∈ names, Text.of name ∈ candidateTargets path → name = target) →
      resolveImport importer specifier.str order = some target) := by
  obtain ⟨first, found, mem, among⟩ := exists_firstListed? listed candidate
  have resolved : resolveImport importer specifier.str order = some first := by
    apply resolveImport_of_walksTo _ walks
    · rw [firstListed?_perm perm, found]
    · intro name there
      exact normal name (perm.mem_iff.1 there)
  refine ⟨⟨first, found, resolved⟩, ?_⟩
  intro only
  rw [resolved, only first mem among]

/-- An import that goes up one directory and down into another one, with the names in two orders. -/
theorem relative_import_resolves_sideways :
    let names := ["src/App.jsx", "src/util/index.js", "src/lib/math.ts"]
    (∀ name ∈ names, IsNormal name) ∧
    WalksTo (parentDir "src/util/index.js") "src/lib/math" "../lib/math" ∧
    (∀ name ∈ names, Text.of name ∈ candidateTargets "src/lib/math" → name = "src/lib/math.ts") ∧
    resolveImport "src/util/index.js" "../lib/math" names = some "src/lib/math.ts" ∧
    resolveImport "src/util/index.js" "../lib/math" names.reverse = some "src/lib/math.ts" := by
  intro names
  have normal : ∀ name ∈ names, IsNormal name := by decide +kernel
  have segments : pathSegments "lib/math" = [Text.of "lib", Text.of "math"] := by decide +kernel
  have walks : WalksTo (parentDir "src/util/index.js") "src/lib/math" "../lib/math" := by
    refine ⟨1, pathSegments "lib/math", ?_, ?_, ?_⟩
    · intro s mem
      exact isSegment_of_mem_pathSegments mem
    · rw [segments]
      decide +kernel
    · rw [segments]
      rfl
  have only : ∀ name ∈ names, Text.of name ∈ candidateTargets "src/lib/math" →
      name = "src/lib/math.ts" := by decide +kernel
  have listed : "src/lib/math.ts" ∈ names := by decide
  have candidate : Text.of "src/lib/math.ts" ∈ candidateTargets "src/lib/math" := by decide +kernel
  have resolves := relative_import_resolves normal walks listed candidate
  refine ⟨normal, walks, only, ?_, ?_⟩
  · exact (resolves names (List.Perm.refl names)).2 only
  · exact (resolves names.reverse (List.reverse_perm names)).2 only

end SourceAudit
