/-
Module: SourceAudit.Proofs.Markup.Sought
Layer: Proofs
Purpose: How deprecated tags are looked for, told by the text alone: opening tags as the fix takes them,
  which is not the same for all kinds, closing tags, and the openings that the validation reports.
Main exports: DeprecatedTag.isPaired, DeprecatedTag.opening, DeprecatedTag.Reads, spells_closeTag,
  Pattern.Spells.opening_parts, exists_spells_opening, ReportsTag, reportsTag_iff
-/
import SourceAudit.Proofs.Markup.Deprecated
import SourceAudit.Proofs.Pattern.Spelling

namespace SourceAudit

open Pattern Markup SourceAudit.Fix

/-! ### Tags as they are looked for -/

namespace DeprecatedTag

/-- Whether the fix looks for the opening tag together with a closing one. -/
def isPaired : DeprecatedTag → Bool
  | center | font | marquee | blink => true
  | big | strike | tt => false

/-- Whether the fix only asks for an edge of the word behind the name. -/
def isLoose : DeprecatedTag → Bool
  | font | marquee | blink => true
  | center | big | strike | tt => false

/-- An opening tag as the fix looks for it. -/
def opening (tag : DeprecatedTag) : Pattern :=
  if tag.isLoose then looseTag tag.name else openTag tag.name

/-- Whether the fix takes an opening tag with this behind the name. -/
def Reads (tag : DeprecatedTag) (attrs : Text) : Prop :=
  tag.isLoose = true ∨ ∀ y ∈ attrs.head?, isBlank y = true

end DeprecatedTag

section

open DeprecatedTag

variable {tag : DeprecatedTag} {before cs after : Text} {kept : List (Nat × Text)}

/-- A name behind signs that have no case. -/
theorem spells_signs {signs : String} (among : ∀ x ∈ signs.toList, x ∈ ['<', '/']) :
    (anyCase (signs ++ tag.name)).Spells before cs after kept ↔
      ∃ n, cs = signs.toList ++ n ∧ SpelledAs tag n ∧ kept = [] := by
  have split : ∀ cs, List.Forall₂ (fun x y => sameFold x y = true) (signs.toList ++ tag.name.toList) cs ↔
      ∃ n, cs = signs.toList ++ n ∧ SpelledAs tag n := by
    generalize signs.toList = xs at among ⊢
    induction xs with
    | nil => simp [SpelledAs]
    | cons x xs ih =>
      obtain ⟨here, others⟩ := List.forall_mem_cons.1 among
      intro cs
      rw [List.cons_append, List.forall₂_cons_left_iff]
      constructor
      · rintro ⟨y, ys, first, later, rfl⟩
        obtain rfl := eq_of_sameFold_sign here first
        obtain ⟨n, rfl, spelled⟩ := (ih others ys).1 later
        exact ⟨n, rfl, spelled⟩
      · rintro ⟨n, rfl, spelled⟩
        exact ⟨x, xs ++ n, sameFold_self x, (ih others _).2 ⟨n, rfl, spelled⟩, rfl⟩
  rw [anyCase, Spells, String.toList_append, split]
  constructor
  · rintro ⟨⟨n, rfl, spelled⟩, rfl⟩
    exact ⟨n, rfl, spelled, rfl⟩
  · rintro ⟨n, rfl, spelled, rfl⟩
    exact ⟨⟨n, rfl, spelled⟩, rfl⟩

theorem spells_bracket : (anyCase ("<" ++ tag.name)).Spells before cs after kept ↔
    ∃ n, cs = '<' :: n ∧ SpelledAs tag n ∧ kept = [] :=
  spells_signs (by simp)

theorem spells_bracketSlash : (anyCase ("</" ++ tag.name)).Spells before cs after kept ↔
    ∃ n, cs = '<' :: '/' :: n ∧ SpelledAs tag n ∧ kept = [] :=
  spells_signs (by simp)

/-- Behind a name, a word ends where no word character follows. -/
theorem spells_nameEdge {n : Text} (spelled : SpelledAs tag n) :
    wordEdge.Spells (before ++ '<' :: n) cs after kept ↔
      ((∀ y ∈ after.head?, isWordChar y = false) ∧ cs = []) ∧ kept = [] := by
  have holds := @wordEnd_holds_iff (before ++ ['<']) after n spelled.ne_nil spelled.letters
  rw [List.append_assoc, List.singleton_append] at holds
  rw [wordEdge, Spells, holds]

theorem spells_closeTag : (closeTag tag.name).Spells before cs after kept ↔
    ∃ n gap, cs = '<' :: '/' :: (n ++ (gap ++ ['>'])) ∧ SpelledAs tag n ∧
      (∀ y ∈ gap, isBlank y = true) ∧ kept = [] := by
  constructor
  · rintro ⟨_, _, _, _, rfl, rfl, ⟨_, gap, _, _, rfl, rfl, name, blanks⟩, bracket⟩
    obtain ⟨n, rfl, spelled, rfl⟩ := spells_bracketSlash.1 name
    obtain ⟨blank, rfl⟩ := spells_blanks.1 blanks
    obtain ⟨rfl, rfl⟩ := spells_text.1 bracket
    exact ⟨n, gap, by simp, spelled, blank, rfl⟩
  · rintro ⟨n, gap, rfl, spelled, blank, rfl⟩
    refine ⟨'<' :: '/' :: (n ++ gap), ['>'], [], [], by simp, rfl, ?_, spells_text.2 ⟨rfl, rfl⟩⟩
    exact ⟨'<' :: '/' :: n, gap, [], [], by simp, rfl, spells_bracketSlash.2 ⟨n, rfl, spelled, rfl⟩,
      spells_blanks.2 ⟨blank, rfl⟩⟩

theorem spells_looseTag : (looseTag tag.name).Spells before cs after kept ↔
    ∃ n attrs, cs = '<' :: (n ++ (attrs ++ ['>'])) ∧ SpelledAs tag n ∧ '>' ∉ attrs ∧
      (∀ y ∈ attrs.head?, isWordChar y = false) ∧ kept = [(1, attrs)] := by
  constructor
  · rintro ⟨_, _, _, _, rfl, rfl, ⟨_, attrs, _, _, rfl, rfl, ⟨_, _, _, _, rfl, rfl, name, edge⟩, inner⟩,
      bracket⟩
    obtain ⟨n, rfl, spelled, rfl⟩ := spells_bracket.1 name
    obtain ⟨⟨apart, rfl⟩, rfl⟩ := (spells_nameEdge spelled).1 edge
    obtain ⟨_, attrs', rfl⟩ := spells_group.1 inner
    obtain ⟨others, rfl⟩ := spells_many.1 attrs'
    obtain ⟨rfl, rfl⟩ := spells_text.1 bracket
    refine ⟨n, attrs, by simp, spelled, forall_noneOf_bracket.1 others, ?_, by simp⟩
    cases attrs with
    | nil => simp
    | cons x attrs => simpa using apart
  · rintro ⟨n, attrs, rfl, spelled, closed, apart, rfl⟩
    refine ⟨'<' :: (n ++ attrs), ['>'], _, [], by simp, (List.append_nil _).symm, ?_,
      spells_text.2 ⟨rfl, rfl⟩⟩
    refine ⟨'<' :: n, attrs, [], _, by simp, rfl, ?_,
      spells_group.2 ⟨[], spells_many.2 ⟨forall_noneOf_bracket.2 closed, rfl⟩, rfl⟩⟩
    refine ⟨'<' :: n, [], [], [], by simp, rfl, spells_bracket.2 ⟨n, rfl, spelled, rfl⟩,
      (spells_nameEdge spelled).2 ⟨⟨?_, rfl⟩, rfl⟩⟩
    cases attrs with
    | nil => simp; decide
    | cons x attrs => simpa using apart

theorem spells_attributes : attributes.Spells before cs after kept ↔
    cs = [] ∧ kept = [] ∨ (∃ x attrs, cs = x :: attrs ∧ isBlank x = true ∧ '>' ∉ attrs) ∧ kept = [(1, cs)] := by
  rw [attributes, spells_perhaps, or_comm]
  refine or_congr Iff.rfl ?_
  constructor
  · rintro ⟨_, ⟨_, attrs, _, _, rfl, rfl, first, inner⟩, rfl⟩
    obtain ⟨⟨x, blank, rfl⟩, rfl⟩ := spells_one.1 first
    obtain ⟨others, rfl⟩ := spells_many.1 inner
    exact ⟨⟨x, attrs, rfl, blank, forall_noneOf_bracket.1 others⟩, rfl⟩
  · rintro ⟨⟨x, attrs, rfl, blank, closed⟩, rfl⟩
    exact ⟨[], ⟨[x], attrs, [], [], rfl, rfl, spells_one.2 ⟨⟨x, blank, rfl⟩, rfl⟩,
      spells_many.2 ⟨forall_noneOf_bracket.2 closed, rfl⟩⟩, rfl⟩

theorem spells_openTag : (openTag tag.name).Spells before cs after kept ↔
    ∃ n attrs, cs = '<' :: (n ++ (attrs ++ ['>'])) ∧ SpelledAs tag n ∧ attributes.Spells
      (before ++ '<' :: n) attrs ('>' :: after) kept := by
  constructor
  · rintro ⟨_, _, _, _, rfl, rfl, ⟨_, attrs, _, _, rfl, rfl, name, inner⟩, bracket⟩
    obtain ⟨n, rfl, spelled, rfl⟩ := spells_bracket.1 name
    obtain ⟨rfl, rfl⟩ := spells_text.1 bracket
    exact ⟨n, attrs, by simp, spelled, by simpa using inner⟩
  · rintro ⟨n, attrs, rfl, spelled, inner⟩
    refine ⟨'<' :: (n ++ attrs), ['>'], kept, [], by simp, by simp, ?_, spells_text.2 ⟨rfl, rfl⟩⟩
    exact ⟨'<' :: n, attrs, [], kept, by simp, rfl, spells_bracket.2 ⟨n, rfl, spelled, rfl⟩, inner⟩

/-- The parts of an opening tag that the fix takes. -/
theorem Pattern.Spells.opening_parts (spelled : tag.opening.Spells before cs after kept) :
    ∃ n attrs, cs = '<' :: (n ++ (attrs ++ ['>'])) ∧ SpelledAs tag n ∧ '>' ∉ attrs ∧
      (∀ y ∈ attrs.head?, isWordChar y = false) ∧ tag.Reads attrs ∧
      (kept = [(1, attrs)] ∨ kept = [] ∧ attrs = []) := by
  rw [opening] at spelled
  split at spelled
  · rename_i loose
    obtain ⟨n, attrs, rfl, spelled', closed, apart, rfl⟩ := spells_looseTag.1 spelled
    exact ⟨n, attrs, rfl, spelled', closed, apart, .inl loose, .inl rfl⟩
  · obtain ⟨n, attrs, rfl, spelled', inner⟩ := spells_openTag.1 spelled
    refine ⟨n, attrs, rfl, spelled', ?_⟩
    obtain ⟨rfl, rfl⟩ | ⟨⟨x, attrs, rfl, blank, closed⟩, rfl⟩ := spells_attributes.1 inner
    · exact ⟨by simp, by simp, .inr (by simp), .inr ⟨rfl, rfl⟩⟩
    · refine ⟨?_, by simpa using isWordChar_of_isBlank blank, .inr (by simpa using blank), .inl rfl⟩
      rw [List.mem_cons, not_or]
      refine ⟨?_, closed⟩
      rintro rfl
      cases blank

theorem exists_spells_opening {n attrs : Text} (spelled : SpelledAs tag n) (closed : '>' ∉ attrs)
    (apart : ∀ y ∈ attrs.head?, isWordChar y = false) (reads : tag.Reads attrs) :
    ∃ kept, tag.opening.Spells before ('<' :: (n ++ (attrs ++ ['>']))) after kept := by
  rw [opening]
  split
  · exact ⟨_, spells_looseTag.2 ⟨n, attrs, rfl, spelled, closed, apart, rfl⟩⟩
  · rename_i strict
    have blank := reads.resolve_left strict
    cases attrs with
    | nil => exact ⟨_, spells_openTag.2 ⟨n, [], rfl, spelled, spells_attributes.2 (.inl ⟨rfl, rfl⟩)⟩⟩
    | cons x attrs =>
      rw [List.mem_cons, not_or] at closed
      exact ⟨_, spells_openTag.2 ⟨n, x :: attrs, rfl, spelled,
        spells_attributes.2 (.inr ⟨⟨x, attrs, rfl, blank x rfl, closed.2⟩, rfl⟩)⟩⟩

/-! ### What the validation reports -/

/-- The validation reports the tag. -/
def ReportsTag (tag : DeprecatedTag) (t : Text) : Prop :=
  ∃ check ∈ checkDeprecated t, check.finding.message = s!"Deprecated tag {tag.name} found"

/-- A tag is reported exactly where one of its opening tags starts. -/
theorem reportsTag_iff {t : Text} :
    ReportsTag tag t ↔ ∃ before rest, t = before ++ rest ∧ OpensTag tag rest := by
  have listed : tag.name ∈ deprecatedTags := by cases tag <;> decide
  have same {name : String} (message : s!"Deprecated tag {name} found" =
      s!"Deprecated tag {tag.name} found") : name = tag.name := by
    have letters := congrArg String.toList message
    exact String.toList_inj.1 (by simpa [String.toList_append, toString] using letters)
  have found : ReportsTag tag t ↔ (anyCase ("<" ++ tag.name) ++ wordEdge).occurs t = true := by
    rw [occurs, Option.isSome_iff_exists]
    constructor
    · rintro ⟨check, mem, message⟩
      obtain ⟨name, -, mem⟩ := List.mem_flatMap.1 mem
      split at mem
      · rename_i hit found
        obtain rfl := List.mem_singleton.1 mem
        rw [← same message]
        exact ⟨hit, found⟩
      · cases mem
    · rintro ⟨hit, found⟩
      refine ⟨.fixable .error (t.lineAt hit.offset) "Deprecated" s!"Deprecated tag {tag.name} found"
        "Replace with modern HTML5 and CSS" "Use CSS for styling instead" .replaceDeprecatedTags 8,
        List.mem_flatMap.2 ⟨tag.name, listed, ?_⟩, rfl⟩
      rw [found]
      exact List.mem_singleton_self _
  rw [found, occurs_iff_spells (by cases tag <;> rfl)]
  constructor
  · rintro ⟨before, _, after, _, rfl, ⟨_, _, _, _, rfl, rfl, name, edge⟩⟩
    obtain ⟨n, rfl, spelled, rfl⟩ := spells_bracket.1 name
    obtain ⟨⟨apart, rfl⟩, rfl⟩ := (spells_nameEdge spelled).1 edge
    exact ⟨before, _, rfl, n, after, by simp, spelled, apart⟩
  · rintro ⟨before, _, rfl, n, rest, rfl, spelled, apart⟩
    exact ⟨before, '<' :: n, rest, [], by simp, '<' :: n, [], [], [], by simp, rfl,
      spells_bracket.2 ⟨n, rfl, spelled, rfl⟩, (spells_nameEdge spelled).2 ⟨⟨apart, rfl⟩, rfl⟩⟩

end

end SourceAudit
