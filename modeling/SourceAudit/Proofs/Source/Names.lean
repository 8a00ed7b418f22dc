/-
Module: SourceAudit.Proofs.Source.Names
Layer: Proofs
Purpose: The names of improved copies. A file name is a directory part, which is empty or ends in a
  separator, and a base name without separators. The mark of an improved copy goes into the base name:
  before its last dot, unless that is its first character or there is none, and else to its end. So the
  two ways of marking never give the same name: behind a mark at the end no dot is left, and before it
  none but a first one.
Main exports: IsDirectoryPart, exists_nameParts, baseName_append, parentDir_append, baseName_cases,
  improvedName_dotted, improvedName_undotted, injective_improvedName, extensionOf_improvedName_iff,
  improvedName_renames_safely
-/
import SourceAudit.Imports.Resolve
import SourceAudit.Proofs.Text.LastCut
import SourceAudit.Proofs.Text.Needle
import SourceAudit.Proofs.Text.Words

namespace SourceAudit

/-- Nothing, or a text that ends in a separator. -/
def IsDirectoryPart (dir : Text) : Prop := ∀ x ∈ dir.getLast?, isPathSeparator x = true

section

variable {name dir base stem ext : Text}

/-! ### Directory part and base name -/

theorem baseName_append (isDir : IsDirectoryPart dir) (single : ∀ c ∈ base, isPathSeparator c = false) :
    baseName (dir ++ base) = base := by
  rcases dir.eq_nil_or_concat with rfl | ⟨front, x, rfl⟩
  · exact Text.afterLast_eq_self single
  · rw [List.concat_eq_append, List.append_assoc]
    exact Text.afterLast_append_cons (isDir x (by simp)) single

theorem parentDir_append (isDir : IsDirectoryPart dir) (single : ∀ c ∈ base, isPathSeparator c = false) :
    parentDir (dir ++ base) = dir := by
  rw [parentDir, baseName_append isDir single, List.length_append, Nat.add_sub_cancel, List.take_left]

/-- Every file name has the two parts. -/
theorem exists_nameParts (name : Text) : ∃ dir base, name = dir ++ base ∧ IsDirectoryPart dir ∧
    ∀ c ∈ base, isPathSeparator c = false := by
  rcases Text.lastCut_cases isPathSeparator name with single | ⟨front, x, base, rfl, separator, single⟩
  · exact ⟨[], name, rfl, nofun, single⟩
  · exact ⟨front ++ [x], base, by simp, by simpa [IsDirectoryPart] using separator, single⟩

/-! ### The last dot -/

/-- A base name has a last dot behind its first character, or no dot there. -/
theorem baseName_cases (base : Text) : '.' ∉ base.tail ∨
    ∃ stem ext, base = stem ++ '.' :: ext ∧ stem ≠ [] ∧ '.' ∉ ext := by
  rcases Text.lastCut_cases (· == '.') base with absent | ⟨stem, x, ext, rfl, dot, absent⟩
  · exact .inl fun mem => by simpa using absent '.' (List.mem_of_mem_tail mem)
  · obtain rfl := beq_iff_eq.1 dot
    have absent : '.' ∉ ext := fun mem => by simpa using absent '.' mem
    cases stem with
    | nil => exact .inl absent
    | cons c stem => exact .inr ⟨c :: stem, ext, rfl, List.cons_ne_nil c stem, absent⟩

theorem cutLast?_dotted (stem : Text) (absent : '.' ∉ ext) :
    (stem ++ '.' :: ext).cutLast? (· == '.') = some (stem, ext) :=
  Text.cutLast?_append_cons rfl (Text.beq_eq_false_of_not_mem absent)

/-- Where no dot stands behind the first character, there is none or the first character is one. -/
theorem cutLast?_undotted (absent : '.' ∉ base.tail) : base.cutLast? (· == '.') = none ∨
    base.cutLast? (· == '.') = some ([], base.tail) := by
  cases base with
  | nil => exact .inl rfl
  | cons c base =>
    by_cases dot : c = '.'
    · subst dot
      exact .inr (cutLast?_dotted [] absent)
    · refine .inl (Text.cutLast?_eq_none (Text.beq_eq_false_of_not_mem ?_))
      rw [List.mem_cons, not_or]
      exact ⟨Ne.symm dot, absent⟩

/-! ### Marks -/

section

variable (single : ∀ c ∈ base, isPathSeparator c = false)
include single

theorem baseName_eq_self : baseName base = base := Text.afterLast_eq_self single

/-- A base name with a dot behind its first character is marked before its last dot. -/
theorem improvedName_dotted (parts : base = stem ++ '.' :: ext) (some : stem ≠ []) (absent : '.' ∉ ext) :
    improvedName base = stem ++ ".improved".toList ++ '.' :: ext := by
  subst parts
  have before : (stem ++ '.' :: ext).length - ext.length - 1 = stem.length := by
    rw [List.length_append, List.length_cons]
    omega
  rw [improvedName, baseName_eq_self single, cutLast?_dotted _ absent]
  simp only [List.isEmpty_iff, some, if_false, before, List.take_left]

/-- Other base names are marked at their end. -/
theorem improvedName_undotted (absent : '.' ∉ base.tail) :
    improvedName base = base ++ ".improved".toList := by
  rw [improvedName, baseName_eq_self single]
  rcases cutLast?_undotted absent with cut | cut
  · rw [cut]
  · rw [cut]
    rfl

theorem not_separator_improvedName : ∀ c ∈ improvedName base, isPathSeparator c = false := by
  have mark : ∀ c ∈ ".improved".toList, isPathSeparator c = false := by
    have all : ".improved".toList.all (fun c => !isPathSeparator c) = true := by decide
    simpa only [List.all_eq_true, Bool.not_eq_true'] using all
  rcases baseName_cases base with absent | ⟨stem, ext, parts, some, absent⟩
  · rw [improvedName_undotted single absent]
    exact List.forall_mem_append.2 ⟨single, mark⟩
  · rw [improvedName_dotted single parts some absent]
    rw [parts] at single
    obtain ⟨front, back⟩ := List.forall_mem_append.1 single
    exact List.forall_mem_append.2 ⟨List.forall_mem_append.2 ⟨front, mark⟩, back⟩

/-- The directory part takes no part in the marking. -/
theorem improvedName_append (isDir : IsDirectoryPart dir) :
    improvedName (dir ++ base) = dir ++ improvedName base := by
  rcases baseName_cases base with absent | ⟨stem, ext, parts, some, absent⟩
  · rw [improvedName_undotted single absent, improvedName, baseName_append isDir single]
    rcases cutLast?_undotted absent with cut | cut
    · rw [cut, List.append_assoc]
    · rw [cut, ← List.append_assoc]
      rfl
  · rw [improvedName_dotted single parts some absent]
    subst parts
    have before : (dir ++ (stem ++ '.' :: ext)).length - ext.length - 1 = (dir ++ stem).length := by
      simp only [List.length_append, List.length_cons]
      omega
    have cut : (dir ++ (stem ++ '.' :: ext)).take (dir ++ stem).length = dir ++ stem := by
      rw [← List.append_assoc, List.take_left]
    rw [improvedName, baseName_append isDir single, cutLast?_dotted _ absent]
    simp only [List.isEmpty_iff, some, if_false, before, cut, List.append_assoc]

end

/-- A mark at the end is never one before a last dot: it has no dot behind it, and before it none but a
    first one. -/
theorem marked_end_ne_marked_stem (undotted : '.' ∉ base.tail) (some : stem ≠ []) (absent : '.' ∉ ext) :
    base ++ ".improved".toList ≠ stem ++ ".improved".toList ++ '.' :: ext := by
  intro same
  have cut := cutLast?_dotted base (show '.' ∉ "improved".toList by decide)
  have whole : base ++ '.' :: "improved".toList = stem ++ ".improved".toList ++ '.' :: ext := same
  rw [whole, cutLast?_dotted _ absent] at cut
  obtain ⟨rfl, -⟩ := Prod.mk.inj (Option.some.inj cut)
  obtain ⟨c, stem, rfl⟩ := List.exists_cons_of_ne_nil some
  exact undotted (List.mem_append_right stem (by decide))

/-- What stands before the mark and what behind it are known from the improved name. -/
theorem eq_of_improvedName_eq {base' : Text} (single : ∀ c ∈ base, isPathSeparator c = false)
    (single' : ∀ c ∈ base', isPathSeparator c = false) (same : improvedName base = improvedName base') :
    base = base' := by
  rcases baseName_cases base with absent | ⟨stem, ext, parts, some, absent⟩ <;>
    rcases baseName_cases base' with absent' | ⟨stem', ext', parts', some', absent'⟩
  · rw [improvedName_undotted single absent, improvedName_undotted single' absent'] at same
    exact List.append_cancel_right same
  · rw [improvedName_undotted single absent, improvedName_dotted single' parts' some' absent'] at same
    exact absurd same (marked_end_ne_marked_stem absent some' absent')
  · rw [improvedName_dotted single parts some absent, improvedName_undotted single' absent'] at same
    exact absurd same.symm (marked_end_ne_marked_stem absent' some absent)
  · rw [improvedName_dotted single parts some absent,
      improvedName_dotted single' parts' some' absent'] at same
    have cut := cutLast?_dotted (stem ++ ".improved".toList) absent
    rw [same, cutLast?_dotted _ absent'] at cut
    obtain ⟨stems, rfl⟩ := Prod.mk.inj (Option.some.inj cut)
    rw [parts, parts', List.append_cancel_right stems]

/-! ### Whole names -/

theorem parentDir_improvedName (name : Text) : parentDir (improvedName name) = parentDir name := by
  obtain ⟨dir, base, rfl, isDir, single⟩ := exists_nameParts name
  rw [improvedName_append single isDir, parentDir_append isDir (not_separator_improvedName single),
    parentDir_append isDir single]

theorem baseName_improvedName (name : Text) : baseName (improvedName name) = improvedName (baseName name) := by
  obtain ⟨dir, base, rfl, isDir, single⟩ := exists_nameParts name
  rw [improvedName_append single isDir, baseName_append isDir (not_separator_improvedName single),
    baseName_append isDir single]

theorem parentDir_append_baseName (name : Text) : parentDir name ++ baseName name = name := by
  obtain ⟨dir, base, rfl, isDir, single⟩ := exists_nameParts name
  rw [parentDir_append isDir single, baseName_append isDir single]

theorem not_separator_baseName (name : Text) : ∀ c ∈ baseName name, isPathSeparator c = false := by
  obtain ⟨dir, base, rfl, isDir, single⟩ := exists_nameParts name
  rwa [baseName_append isDir single]

theorem injective_improvedName : Function.Injective improvedName := by
  intro name name' same
  have dirs := congrArg parentDir same
  have bases := congrArg baseName same
  rw [parentDir_improvedName, parentDir_improvedName] at dirs
  rw [baseName_improvedName, baseName_improvedName] at bases
  rw [← parentDir_append_baseName name, ← parentDir_append_baseName name', dirs,
    eq_of_improvedName_eq (not_separator_baseName name) (not_separator_baseName name') bases]

/-- The mark makes every name longer. -/
theorem improvedName_ne_self (name : Text) : improvedName name ≠ name := by
  obtain ⟨dir, base, rfl, isDir, single⟩ := exists_nameParts name
  have longer : base.length < (improvedName base).length := by
    have mark : 0 < ".improved".toList.length := by decide
    rcases baseName_cases base with absent | ⟨stem, ext, parts, some, absent⟩
    · rw [improvedName_undotted single absent, List.length_append]
      omega
    · rw [improvedName_dotted single parts some absent, parts]
      simp only [List.length_append]
      omega
  intro same
  rw [improvedName_append single isDir] at same
  rw [List.append_cancel_left same] at longer
  exact Nat.lt_irrefl _ longer

/-! ### Extensions -/

theorem extensionOf_dotted (parts : baseName name = stem ++ '.' :: ext) (some : stem ≠ [])
    (absent : '.' ∉ ext) : extensionOf name = ext.lower := by
  rw [extensionOf, parts, cutLast?_dotted _ absent]
  simp only [List.isEmpty_iff, some, if_false]

theorem extensionOf_undotted (absent : '.' ∉ (baseName name).tail) : extensionOf name = [] := by
  rw [extensionOf]
  rcases cutLast?_undotted absent with cut | cut
  · rw [cut]
  · rw [cut]
    rfl

/-- The improved name has the extension of the name, or where that has none, the mark for one. -/
theorem extensionOf_improvedName (name : Text) : extensionOf (improvedName name) =
    if '.' ∈ (baseName name).tail ∨ baseName name = [] then extensionOf name else "improved".toList := by
  have base := baseName_improvedName name
  have single := not_separator_baseName name
  rcases baseName_cases (baseName name) with absent | ⟨stem, ext, parts, some, absent⟩
  · rw [improvedName_undotted single absent] at base
    by_cases none : baseName name = []
    · have hidden : '.' ∉ (baseName (improvedName name)).tail := by
        rw [base, none]
        decide
      rw [if_pos (.inr none), extensionOf_undotted absent, extensionOf_undotted hidden]
    · rw [if_neg (not_or.2 ⟨absent, none⟩), extensionOf_dotted base none (by decide)]
      decide
  · have dotted : '.' ∈ (baseName name).tail := by
      obtain ⟨c, stem, rfl⟩ := List.exists_cons_of_ne_nil some
      rw [parts]
      exact List.mem_append_right stem List.mem_cons_self
    rw [improvedName_dotted single parts some absent] at base
    rw [if_pos (.inl dotted), extensionOf_dotted parts some absent,
      extensionOf_dotted base (List.append_ne_nil_of_left_ne_nil some _) absent]

theorem extensionOf_improvedName_iff (name : Text) : extensionOf (improvedName name) = extensionOf name ↔
    '.' ∈ (baseName name).tail ∨ baseName name = [] := by
  rw [extensionOf_improvedName]
  split
  · rename_i kept
    simp [kept]
  · rename_i new
    rw [extensionOf_undotted (not_or.1 new).1]
    exact iff_of_false (by decide) new

/-- The mark is the extension of no family. -/
theorem ofName_improvedName (name : Text) :
    Family.ofName (improvedName name).str = Family.ofName name.str := by
  have written (t : Text) : t.str.toList = t := Text.of_str t
  rw [Family.ofName, Family.ofName, written, written, extensionOf_improvedName]
  split
  · rfl
  · rename_i new
    rw [extensionOf_undotted (not_or.1 new).1]
    decide

/-- The improved copy of a file stands in the directory of the file, under a name that is not the one of
    the file or of any other improved copy, and belongs to the same family. It has the same extension
    exactly if the base name has a dot behind its first character, or is empty. -/
theorem improvedName_renames_safely : Function.Injective improvedName ∧ ∀ name : Text,
    parentDir (improvedName name) = parentDir name ∧ improvedName name ≠ name ∧
      Family.ofName (improvedName name).str = Family.ofName name.str ∧
      (extensionOf (improvedName name) = extensionOf name ↔
        '.' ∈ (baseName name).tail ∨ baseName name = []) :=
  ⟨injective_improvedName, fun name => ⟨parentDir_improvedName name, improvedName_ne_self name,
    ofName_improvedName name, extensionOf_improvedName_iff name⟩⟩

end

/-- A name that has been marked before keeps its old mark in front of the new one. -/
example : improvedName "src/a.improved.jsx" = "src/a.improved.improved.jsx".toList := by decide

end SourceAudit
