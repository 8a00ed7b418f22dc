/-
Module: SourceAudit.Proofs.Imports.Unused
Layer: Proofs
Purpose: Which import lines are dropped as unused. A line goes if none of the names that are read off it
  stands whole in the lines that are no imports. A name that is used there as an identifier stands whole
  if it begins and ends with a word character. Where a dollar sign begins or ends it, its use is not
  seen.
Main exports: OccursAsIdentifier, IsUsed, OccursAsIdentifier.standsWhole, IsDropped, isDropped_iff,
  DropsUnused, unusedImports_dropped, usedImport_dropped
-/
import SourceAudit.Fix.Apply
import SourceAudit.Proofs.Imports.Readers
import SourceAudit.Proofs.Text.WholeWord

namespace SourceAudit

open SourceAudit.Fix

/-! ### Identifiers and whole words -/

/-- A letter, a digit, a low line or a dollar sign. -/
def isIdentifierChar (c : Char) : Bool := isWordChar c || c == '$'

/-- The name stands in the text with no character of an identifier beside it. -/
def OccursAsIdentifier (name t : Text) : Prop :=
  ∃ u v, t = u ++ (name ++ v) ∧ (∀ c ∈ u.getLast?, isIdentifierChar c = false) ∧
    ∀ c ∈ v.head?, isIdentifierChar c = false

/-- Wherever the characters of the name stand in the text, they stand as an identifier. -/
def OccursOnlyAsIdentifier (name t : Text) : Prop :=
  ∀ u v, t = u ++ (name ++ v) → (∀ c ∈ u.getLast?, isIdentifierChar c = false) ∧
    ∀ c ∈ v.head?, isIdentifierChar c = false

/-- The name begins and ends with a word character. -/
def HasWordEnds (name : Text) : Prop :=
  ∃ x y, name.head? = some x ∧ name.getLast? = some y ∧ isWordChar x = true ∧ isWordChar y = true

/-- A dollar sign begins or ends the name. -/
def HasDollarEnd (name : Text) : Prop := name.head? = some '$' ∨ name.getLast? = some '$'

/-- The lines that are no imports, as one text. -/
def otherLines (t : Text) : Text := Text.unlines (t.lines.filter fun line => !isImportLine line)

/-- The name is used as an identifier in a line that is no import. -/
def IsUsed (name t : Text) : Prop :=
  ∃ line ∈ t.lines, isImportLine line = false ∧ OccursAsIdentifier name line

theorem isWordChar_of_not_identifier {c : Char} (h : isIdentifierChar c = false) :
    isWordChar c = false := (Bool.or_eq_false_iff.1 h).1

/-- An identifier with word characters at its ends stands whole. -/
theorem OccursAsIdentifier.standsWhole {name t : Text} (occurs : OccursAsIdentifier name t)
    (ends : HasWordEnds name) : StandsWhole name t := by
  obtain ⟨u, v, split, before, behind⟩ := occurs
  obtain ⟨x, y, first, last, letter, letter'⟩ := ends
  exact (standsWhole_iff first last letter letter').2 ⟨u, v, split,
    fun c mem => isWordChar_of_not_identifier (before c mem),
    fun c mem => isWordChar_of_not_identifier (behind c mem)⟩

/-- A dollar sign beside no character of an identifier is no edge of a word. -/
theorem OccursOnlyAsIdentifier.not_standsWhole {name t : Text} (occurs : OccursOnlyAsIdentifier name t)
    (dollar : HasDollarEnd name) : ¬ StandsWhole name t := by
  rintro ⟨some, u, v, split, front, back⟩
  obtain ⟨before, behind⟩ := occurs u v split
  rcases dollar with first | last
  · have edge : isWordEdge u.getLast? (name ++ v) = false := by
      have none : u.getLast?.any isWordChar = false := by
        cases h : u.getLast? with
        | none => rfl
        | some c => exact isWordChar_of_not_identifier (before c h)
      rw [isWordEdge, none, List.head?_append, first]
      rfl
    rw [edge] at front
    cases front
  · have edge : isWordEdge name.getLast? v = false := by
      have none : v.head?.any isWordChar = false := by
        cases h : v.head? with
        | none => rfl
        | some c => exact isWordChar_of_not_identifier (behind c h)
      rw [isWordEdge, none, last]
      rfl
    rw [edge] at back
    cases back

/-- A line of joined lines stands between line breaks. -/
theorem exists_unlines_eq {line : Text} {ls : List Text} (mem : line ∈ ls) : ∃ a b,
    Text.unlines ls = a ++ (line ++ b) ∧ (∀ c ∈ a.getLast?, c = '\n') ∧ ∀ c ∈ b.head?, c = '\n' := by
  obtain ⟨before, behind, rfl⟩ := List.append_of_mem mem
  refine ⟨before.flatMap (· ++ ['\n']), behind.flatMap ('\n' :: ·), ?_, ?_, ?_⟩
  · rw [Text.unlines_append_cons, List.append_assoc]
  · intro c last
    rcases List.eq_nil_or_concat before with rfl | ⟨others, l, rfl⟩
    · cases last
    · simpa [← List.append_assoc, eq_comm] using last
  · intro c head
    cases behind with
    | nil => cases head
    | cons l ls => simpa [eq_comm] using head

/-- What is used in a line is used in the lines together. -/
theorem IsUsed.occurs {name t : Text} (used : IsUsed name t) : OccursAsIdentifier name (otherLines t) := by
  obtain ⟨line, mem, other, u, v, rfl, before, behind⟩ := used
  obtain ⟨a, b, joined, before', behind'⟩ := exists_unlines_eq
    (List.mem_filter (p := fun line => !isImportLine line).2 ⟨mem, by rw [other]; rfl⟩)
  refine ⟨a ++ u, v ++ b, by rw [otherLines, joined]; simp, ?_, ?_⟩
  · intro c last
    rw [List.getLast?_append, Option.mem_def, Option.or_eq_some_iff] at last
    rcases last with last | ⟨-, last⟩
    · exact before c last
    · rw [before' c last]
      decide
  · intro c first
    rw [List.head?_append, Option.mem_def, Option.or_eq_some_iff] at first
    rcases first with first | ⟨-, first⟩
    · exact behind c first
    · rw [behind' c first]
      decide

/-! ### The lines that are kept -/

theorem mentionsAny_eq_ok [Engine] {t : Text} {names : List Text} {found : Bool}
    (done : mentionsAny t.wordIndex names = .ok found) :
    found = true ↔ ∃ name ∈ names, StandsWhole name t := by
  induction names with
  | nil =>
    obtain rfl := Except.ok.inj done
    simp
  | cons name names ih =>
    rw [mentionsAny] at done
    cases counted : t.wordIndex.countWord name with
    | error fault =>
      rw [counted] at done
      cases done
    | ok n =>
      rw [counted] at done
      change (if 0 < n then _ else _) = _ at done
      have whole := Text.countWord_pos_iff counted
      split at done
      · rename_i positive
        obtain rfl := Except.ok.inj done
        simp [whole.1 positive]
      · rename_i absent
        rw [ih done]
        simp [whole.not.1 absent]

/-- A line is to be dropped if it is an import that binds something, and none of the names that are read
    off it stands whole in the other lines. -/
def IsDropped (t line : Text) : Prop :=
  ∃ names, importBindings? line = some names ∧ names ≠ [] ∧
    ∀ name ∈ names, ¬ StandsWhole name (otherLines t)

theorem keepsImport_eq_ok [Engine] {t line : Text} {keep : Bool}
    (done : keepsImport (otherLines t).wordIndex line = .ok keep) : keep = false ↔ IsDropped t line := by
  rw [keepsImport] at done
  rw [IsDropped]
  split at done
  · rename_i none
    obtain rfl := Except.ok.inj done
    simp [none]
  · rename_i empty
    obtain rfl := Except.ok.inj done
    simp [empty]
  · rename_i names some bindings
    have found := mentionsAny_eq_ok done
    rw [← Bool.not_eq_true, found]
    constructor
    · intro absent
      exact ⟨names, bindings, some, fun name mem whole => absent ⟨name, mem, whole⟩⟩
    · rintro ⟨names', bindings', -, absent⟩ ⟨name, mem, whole⟩
      obtain rfl := Option.some.inj (bindings.symm.trans bindings')
      exact absent name mem whole

/-- The lines that are kept, if this can be told of all, are those that are not to be dropped. -/
theorem keptLines_eq_ok [Engine] {t : Text} {lines kept : List Text}
    (done : keptLines (otherLines t).wordIndex lines = .ok kept) :
    ∃ keep : Text → Bool, kept = lines.filter keep ∧ ∀ line ∈ lines, keep line = false ↔ IsDropped t line := by
  refine ⟨fun line => (keepsImport (otherLines t).wordIndex line).toOption.getD true, ?_⟩
  induction lines generalizing kept with
  | nil =>
    obtain rfl := Except.ok.inj done
    exact ⟨rfl, nofun⟩
  | cons line lines ih =>
    rw [keptLines] at done
    cases here : keepsImport (otherLines t).wordIndex line with
    | error fault =>
      rw [here] at done
      cases done
    | ok keep =>
      cases later : keptLines (otherLines t).wordIndex lines with
      | error fault =>
        rw [here, later] at done
        cases done
      | ok rest =>
        rw [here, later] at done
        obtain rfl : (if keep then line :: rest else rest) = kept := Except.ok.inj done
        obtain ⟨rfl, told⟩ := ih later
        refine ⟨?_, List.forall_mem_cons.2 ⟨?_, told⟩⟩
        · rw [List.filter_cons, here]
          rfl
        · simp only [here]
          exact keepsImport_eq_ok here

/-! ### Written import lines -/

theorem letters_of_mem_bound {clause : ImportClause} {name : Text} (mem : name ∈ clause.bound) :
    name ≠ [] ∧ ∀ c ∈ name, isWordChar c = true ∨ c = '$' := by
  have entry (e : ImportEntry) : e.bound ≠ [] ∧ ∀ c ∈ e.bound, isWordChar c = true ∨ c = '$' := by
    cases e with
    | plain name => exact ⟨name.some, name.letters⟩
    | renamed _ _ _ newName => exact ⟨newName.some, newName.letters⟩
    | typed _ name => exact ⟨name.some, name.letters⟩
  cases clause with
  | default name =>
    obtain rfl := List.mem_singleton.1 mem
    exact ⟨name.some, name.letters⟩
  | named slots =>
    obtain ⟨e, -, rfl⟩ := List.mem_map.1 mem
    exact entry e
  | both name _ _ slots =>
    rcases List.mem_append.1 mem with mem | mem
    · obtain ⟨e, -, rfl⟩ := List.mem_map.1 mem
      exact entry e
    · obtain rfl := List.mem_singleton.1 mem
      exact ⟨name.some, name.letters⟩

/-- A written import line is dropped exactly if its words are set apart, it binds something, and none of
    its names stands whole in the other lines. -/
theorem isDropped_iff {t : Text} (line : ImportLine) : IsDropped t line.text ↔
    line.IsSpaced ∧ line.clause.bound ≠ [] ∧ ∀ name ∈ line.clause.bound, ¬ StandsWhole name (otherLines t) := by
  have read (name : Text) := mem_importBindings_iff line name
  rw [IsDropped]
  constructor
  · rintro ⟨names, bindings, some, absent⟩
    simp only [bindings, Option.getD_some] at read
    obtain ⟨name, mem⟩ := List.exists_mem_of_ne_nil _ some
    have spaced := ((read name).1 mem).1
    exact ⟨spaced, List.ne_nil_of_mem ((read name).1 mem).2, fun n mem => absent n ((read n).2 ⟨spaced, mem⟩)⟩
  · rintro ⟨spaced, some, absent⟩
    obtain ⟨name, mem⟩ := List.exists_mem_of_ne_nil _ some
    have bound := (read name).2 ⟨spaced, mem⟩
    cases bindings : importBindings? line.text with
    | none =>
      rw [bindings] at bound
      cases bound
    | some names =>
      simp only [bindings, Option.getD_some] at read bound
      exact ⟨names, rfl, List.ne_nil_of_mem bound, fun n mem => absent n ((read n).1 mem).2⟩

/-- A name of a written import begins and ends with a word character, or with a dollar sign. -/
theorem hasWordEnds_or_hasDollarEnd {clause : ImportClause} {name : Text} (mem : name ∈ clause.bound) :
    HasWordEnds name ∨ HasDollarEnd name := by
  obtain ⟨some, letters⟩ := letters_of_mem_bound mem
  have first := List.head?_eq_some_head some
  have last := List.getLast?_eq_some_getLast some
  rcases letters _ (List.head_mem some) with letter | dollar
  · rcases letters _ (List.getLast_mem some) with letter' | dollar
    · exact .inl ⟨_, _, first, last, letter, letter'⟩
    · exact .inr (.inr (dollar ▸ last))
  · exact .inr (.inl (dollar ▸ first))

/-! ### What the removal does -/

/-- How the removal of unused imports turns a text into another one, when it keeps these lines. -/
structure DropsUnused (t fixed : Text) (keep : Text → Bool) : Prop where
  /-- The other lines stay as they are and in their order. -/
  kept : fixed = Text.unlines (t.lines.filter keep)
  dropped : ∀ line ∈ t.lines, keep line = false ↔ IsDropped t line
  /-- Of the names that are read off a dropped line, none with word characters at its ends is used. -/
  unused : ∀ line ∈ t.lines, keep line = false → ∀ names, importBindings? line = some names →
    ∀ name ∈ names, HasWordEnds name → ¬ IsUsed name t
  /-- A written import that is dropped binds something, and no name that is used but for those that a
      dollar sign begins or ends. -/
  written : ∀ line : ImportLine, line.text ∈ t.lines → keep line.text = false →
    line.IsSpaced ∧ line.clause.bound ≠ [] ∧ ∀ name ∈ line.clause.bound, IsUsed name t → HasDollarEnd name
  /-- If all its names are such, then it is dropped wherever they are used as identifiers. -/
  unseen : ∀ line : ImportLine, line.text ∈ t.lines → line.IsSpaced → line.clause.bound ≠ [] →
    (∀ name ∈ line.clause.bound, HasDollarEnd name ∧ OccursOnlyAsIdentifier name (otherLines t)) →
    keep line.text = false

theorem dropsUnused {t : Text} {keep : Text → Bool}
    (told : ∀ line ∈ t.lines, keep line = false ↔ IsDropped t line) :
    DropsUnused t (Text.unlines (t.lines.filter keep)) keep where
  kept := rfl
  dropped := told
  unused line mem dropped names bindings name inside ends used := by
    obtain ⟨names', bindings', -, absent⟩ := (told line mem).1 dropped
    obtain rfl := Option.some.inj (bindings.symm.trans bindings')
    exact absent name inside (used.occurs.standsWhole ends)
  written line mem dropped := by
    obtain ⟨spaced, some, absent⟩ := (isDropped_iff line).1 ((told _ mem).1 dropped)
    refine ⟨spaced, some, fun name bound used => ?_⟩
    exact (hasWordEnds_or_hasDollarEnd bound).resolve_left
      fun ends => absent name bound (used.occurs.standsWhole ends)
  unseen line mem spaced some dollar :=
    (told _ mem).2 ((isDropped_iff line).2 ⟨spaced, some, fun name bound =>
      (dollar name bound).2.not_standsWhole (dollar name bound).1⟩)

/-- Removing the unused imports of a file drops the lines that are read to bind only names that do not
    stand whole in the other lines. So no import is dropped while one of its names is used, unless a
    dollar sign begins or ends the name; and the use of such a name never keeps its import. -/
theorem unusedImports_dropped [Engine] (fileName code fixed : String)
    (done : applyFix .removeUnusedImports fileName code = .ok fixed) :
    ∃ keep, DropsUnused (Text.of code) (Text.of fixed) keep := by
  cases kept : keptLines (otherLines (Text.of code)).wordIndex (Text.of code).lines with
  | error fault =>
    rw [applyFix, FixKind.edit, removeUnusedImports, ← otherLines, kept] at done
    cases done
  | ok lines =>
    rw [applyFix, FixKind.edit, removeUnusedImports, ← otherLines, kept] at done
    obtain rfl := Except.ok.inj done
    obtain ⟨keep, rfl, told⟩ := keptLines_eq_ok kept
    refine ⟨keep, ?_⟩
    rw [Text.of_str]
    exact dropsUnused told

attribute [local instance] Engine.standard in
/-- Two names with a dollar sign: the import of the one that is used is dropped, and that of the other one
    is kept, which stands whole behind a letter. -/
theorem unusedImports_dropped_dollars :
    applyFix .removeUnusedImports "a.js"
        "import $a from './a';\nimport $b from './b';\n$a();\nc$b();\n" =
      .ok "import $b from './b';\n$a();\nc$b();\n" ∧
    ∃ keep, DropsUnused (Text.of "import $a from './a';\nimport $b from './b';\n$a();\nc$b();\n")
      (Text.of "import $b from './b';\n$a();\nc$b();\n") keep :=
  ⟨by decide +kernel, unusedImports_dropped "a.js" _ _ (by decide +kernel)⟩

attribute [local instance] Engine.standard in
/-- An import that is used in the next line and dropped. -/
theorem usedImport_dropped :
    applyFix .removeUnusedImports "a.js" "import $ from 'jquery';\n$('p').hide();\n" =
        .ok "$('p').hide();\n" ∧
      importBindings? "import $ from 'jquery';" = some ["$".toList] ∧
      IsUsed "$" (Text.of "import $ from 'jquery';\n$('p').hide();\n") := by
  refine ⟨by decide +kernel, by decide +kernel, Text.of "$('p').hide();", by decide, by decide, ?_⟩
  exact ⟨[], Text.of "('p').hide();", rfl, nofun, by rintro _ ⟨⟩; decide⟩

end SourceAudit
