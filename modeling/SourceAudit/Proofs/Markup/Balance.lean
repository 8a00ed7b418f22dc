/-
Module: SourceAudit.Proofs.Markup.Balance
Layer: Proofs
Purpose: The balance of tags. A document of properly nested elements is reported only for names with a
  hyphen: such an opening tag is counted for what stands before the hyphen, and the tag that closes it
  for no name at all.
Main exports: Document.starts, Document.elements, Document.unclosed, countP_opensAs,
  isUnbalanced_eq_false_iff, forall_closableTags_iff, isolate_checkBalance_eq_nil_iff,
  nested_elements_unreported_iff, customElement, customElement_reported
-/
import SourceAudit.Proofs.Markup.Nesting

namespace SourceAudit.Markup

namespace Document

/-- The opening tags of a document. -/
def starts : Document → List StartTag
  | done => []
  | words _ _ rest => rest.starts
  | void o _ rest => o :: rest.starts
  | element o content rest => o :: (content.starts ++ rest.starts)

/-- The opening tags of its elements. -/
def elements : Document → List StartTag
  | done => []
  | words _ _ rest => rest.elements
  | void _ _ rest => rest.elements
  | element o content rest => o :: (content.elements ++ rest.elements)

/-- The opening tags to which no closing tag is counted: those of void elements and those with a hyphen
    in their names. -/
def unclosed : Document → List StartTag
  | done => []
  | words _ _ rest => rest.unclosed
  | void o _ rest => o :: rest.unclosed
  | element o content rest =>
    if '-' ∈ o.name then o :: (content.unclosed ++ rest.unclosed)
    else content.unclosed ++ rest.unclosed

theorem mem_unclosed {o : StartTag} (doc : Document) (mem : o ∈ doc.unclosed) :
    NameLike voidTags o.name ∨ o ∈ doc.elements ∧ '-' ∈ o.name := by
  induction doc with
  | done => exact absurd mem List.not_mem_nil
  | words u plain rest ih => exact ih mem
  | void o' isVoid rest ih =>
    rcases List.mem_cons.1 mem with rfl | mem
    · exact .inl isVoid
    · exact ih mem
  | element o' content rest ih ih' =>
    have inner (mem : o ∈ content.unclosed ++ rest.unclosed) :
        NameLike voidTags o.name ∨ o ∈ (element o' content rest).elements ∧ '-' ∈ o.name := by
      rw [elements, List.mem_cons, List.mem_append]
      rcases List.mem_append.1 mem with mem | mem
      · exact (ih mem).imp_right (And.imp_left fun among => .inr (.inl among))
      · exact (ih' mem).imp_right (And.imp_left fun among => .inr (.inr among))
    rw [unclosed] at mem
    split at mem
    · rename_i hyphen
      rcases List.mem_cons.1 mem with rfl | mem
      · exact .inr ⟨List.mem_cons_self, hyphen⟩
      · exact inner mem
    · exact inner mem

theorem mem_unclosed_of_hyphen {o : StartTag} (doc : Document) (among : o ∈ doc.elements)
    (hyphen : '-' ∈ o.name) : o ∈ doc.unclosed := by
  induction doc with
  | done => exact absurd among List.not_mem_nil
  | words u plain rest ih => exact ih among
  | void o' isVoid rest ih => exact List.mem_cons_of_mem o' (ih among)
  | element o' content rest ih ih' =>
    have inner : o ∈ content.elements ++ rest.elements → o ∈ content.unclosed ++ rest.unclosed := by
      rw [List.mem_append, List.mem_append]
      exact Or.imp ih ih'
    rw [unclosed]
    rcases List.mem_cons.1 among with rfl | among
    · rw [if_pos hyphen]
      exact List.mem_cons_self
    · split
      · exact List.mem_cons_of_mem o' (inner among)
      · exact inner among

theorem mem_starts_iff {o : StartTag} (doc : Document) : o ∈ doc.starts ↔ .start o ∈ doc.parts := by
  induction doc with
  | done => simp [starts, parts]
  | words u plain rest ih => simp [starts, parts, ih]
  | void o' isVoid rest ih => simp [starts, parts, ih]
  | element o' content rest ih ih' => simp [starts, parts, ih, ih']

end Document

section

variable {tag : Text} (isName : IsTagName tag)
include isName

/-- An element is counted as often opened as closed, unless its name has a hyphen. -/
theorem countP_opensAs (doc : Document) : doc.parts.countP (Part.opensAs tag) =
    doc.parts.countP (Part.closesAs tag) + doc.unclosed.countP fun o => SameName tag o.stem := by
  induction doc with
  | done => rfl
  | words u plain rest ih =>
    simpa [Document.parts, Document.unclosed, Part.opensAs, Part.closesAs] using ih
  | void o isVoid rest ih =>
    simp only [Document.parts, Document.unclosed, List.countP_cons, Part.opensAs, Part.closesAs, ih]
    simp
    omega
  | element o content rest ih ih' =>
    by_cases hyphen : '-' ∈ o.name
    · have other : ¬ SameName tag o.name := fun same => same.whole isName '-' hyphen (by decide)
      simp only [Document.parts, Document.unclosed, List.countP_cons, List.countP_append, Part.opensAs,
        Part.closesAs, ih, ih', if_pos hyphen, other]
      simp
      omega
    · have whole := o.stem_eq_name hyphen
      simp only [Document.parts, Document.unclosed, List.countP_cons, List.countP_append, Part.opensAs,
        Part.closesAs, ih, ih', if_neg hyphen, whole]
      simp
      omega

theorem isUnbalanced_eq_false_iff (doc : Document) :
    isUnbalanced doc.text tag = false ↔ ∀ o ∈ doc.unclosed, ¬ SameName tag o.stem := by
  have counts : isUnbalanced doc.text tag =
      ((openingOf tag).count doc.text != (closingOf tag).count doc.text) := rfl
  rw [counts, count_openingOf isName, count_closingOf isName, countP_opensAs isName, bne_eq_false_iff_eq,
    Nat.add_eq_left, List.countP_eq_zero]
  simp only [decide_eq_true_eq]

end

/-! ### Void elements -/

theorem voidTags_letters : ∀ name ∈ voidTags, ∀ x ∈ name.toList,
    foldCase x = x ∧ 97 ≤ x.toNat ∧ x.toNat < 128 ∧ x ≠ 's' := by
  have all : (voidTags.flatMap String.toList).all (fun x =>
      foldCase x = x ∧ 97 ≤ x.toNat ∧ x.toNat < 128 ∧ x ≠ 's') = true := by decide
  exact fun name among x mem =>
    of_decide_eq_true (List.all_eq_true.1 all x (List.mem_flatMap.2 ⟨name, among, mem⟩))

/-- A name in lower case that is that of a void element up to case is that name. -/
theorem mem_voidTags_of_sameName {tag n : Text} (lowered : ∀ y ∈ tag, IsLowered y)
    (same : SameName tag n) (isVoid : NameLike voidTags n) : tag ∈ voidTags.map Text.of := by
  obtain ⟨name, among, like⟩ := isVoid
  have letters := voidTags_letters name among
  suffices tag = name.toList from List.mem_map.2 ⟨name, among, this.symm⟩
  clear among
  unfold SameName at same
  generalize name.toList = xs at like letters
  induction like generalizing tag with
  | nil => exact List.forall₂_nil_right_iff.1 same
  | cons first _ ih =>
    obtain ⟨t, tag, alike, others, rfl⟩ := List.forall₂_cons_right_iff.1 same
    obtain ⟨⟨folded, letter, ascii, other⟩, letters⟩ := List.forall_mem_cons.1 letters
    obtain ⟨here, lowered⟩ := List.forall_mem_cons.1 lowered
    have fold := (foldCase_eq_of_sameFold alike).trans (foldCase_eq_of_sameFold first).symm
    rw [here.eq_of_foldCase letter ascii other (fold.trans folded), ih lowered others letters]

/-! ### The names that are looked at -/

/-- What holds of the names that have to be closed: it holds of every name but those of void elements
    and those seen before. -/
theorem forall_closableTags_iff {P : Text → Prop} (seen : List Text) (hits : List Hit) :
    (∀ entry ∈ closableTags seen hits, P entry.1) ↔
      ∀ hit ∈ hits, (hit.groupChars 1).lower ∈ voidTags.map Text.of ∨ (hit.groupChars 1).lower ∈ seen ∨
        P (hit.groupChars 1).lower := by
  induction hits generalizing seen with
  | nil => simp [closableTags]
  | cons hit hits ih =>
    rw [closableTags, List.forall_mem_cons]
    generalize (hit.groupChars 1).lower = tag
    by_cases known : ((voidTags.map Text.of).contains tag || seen.contains tag) = true
    · rw [if_pos known, ih seen]
      rw [Bool.or_eq_true, List.contains_iff_mem, List.contains_iff_mem] at known
      exact (and_iff_right (known.imp_right .inl)).symm
    · rw [if_neg known, List.forall_mem_cons, ih (tag :: seen)]
      rw [Bool.or_eq_true, List.contains_iff_mem, List.contains_iff_mem, not_or] at known
      rw [or_iff_right known.1, or_iff_right known.2]
      refine and_congr_right fun here => forall₂_congr fun other _ => or_congr_right ?_
      -- a name seen here has the property already
      rw [List.mem_cons, or_assoc, or_iff_right_of_imp]
      intro same
      exact .inr (same ▸ here)

/-- What holds of every name that is looked at. -/
theorem forall_closableTags_findAll_iff {P : Text → Prop} (html : Text) :
    (∀ entry ∈ closableTags [] (anyOpenTag.findAll html), P entry.1) ↔
      ∀ hit ∈ anyOpenTag.findAll html, (hit.groupChars 1).lower ∈ voidTags.map Text.of ∨
        P (hit.groupChars 1).lower := by
  rw [forall_closableTags_iff]
  simp only [List.not_mem_nil, false_or]

/-- Nothing is found where all tags are balanced, or where the engine does not look for all of them. -/
theorem isolate_checkBalance_eq_nil_iff [Engine] (html : Text) : isolate (checkBalance html) = [] ↔
    (∀ hit ∈ anyOpenTag.findAll html, (hit.groupChars 1).lower ∈ voidTags.map Text.of ∨
      isUnbalanced html (hit.groupChars 1).lower = false) ∨
    ¬ ∀ hit ∈ anyOpenTag.findAll html, (hit.groupChars 1).lower ∈ voidTags.map Text.of ∨
      seeksTags (hit.groupChars 1).lower = true := by
  rw [← forall_closableTags_findAll_iff (P := fun tag => isUnbalanced html tag = false),
    ← forall_closableTags_findAll_iff (P := fun tag => seeksTags tag = true), checkBalance, isolate_ite,
    ← List.all_eq_true]
  split
  · rename_i seeks
    rw [or_iff_left (not_not_intro seeks), unbalanced, List.map_eq_nil_iff, List.filter_eq_nil_iff]
    exact forall₂_congr fun entry _ => by rw [Bool.not_eq_true]
  · rename_i refused
    exact iff_of_true rfl (.inr refused)

/-- The names that are looked at are the stems of the opening tags. -/
theorem forall_anyOpenTag_iff {P : Text → Prop} (doc : Document) :
    (∀ hit ∈ anyOpenTag.findAll doc.text, P (hit.groupChars 1)) ↔ ∀ o ∈ doc.starts, P o.stem := by
  have hits := forall₂_anyOpenTag doc
  constructor
  · intro every o mem
    have among : .start o ∈ doc.parts.filter Part.isStart :=
      List.mem_filter.2 ⟨doc.mem_starts_iff.1 mem, rfl⟩
    obtain ⟨hit, found, _, ⟨⟩, stem⟩ := exists_partner_of_mem hits.flip among
    exact stem ▸ every hit found
  · intro every hit found
    obtain ⟨part, among, o, rfl, stem⟩ := exists_partner_of_mem hits found
    rw [stem]
    exact every o (doc.mem_starts_iff.2 (List.mem_filter.1 among).1)

/-! ### Which documents are reported -/

/-- A document is reported exactly if the engine looks for all its tags and the name of an opening tag, as
    far as its stem goes, is not that of a void element and starts the name of an element with a hyphen. -/
theorem nested_elements_unreported_iff [Engine] (doc : Document) : isolate (checkBalance doc.text) = [] ↔
    (∀ o ∈ doc.starts, ∀ m ∈ doc.elements, '-' ∈ m.name → SameName o.stem.lower m.stem →
      o.stem.lower ∈ voidTags.map Text.of) ∨
    ¬ ∀ o ∈ doc.starts, o.stem.lower ∈ voidTags.map Text.of ∨ seeksTags o.stem.lower = true := by
  rw [isolate_checkBalance_eq_nil_iff, forall_anyOpenTag_iff (P := fun stem =>
    stem.lower ∈ voidTags.map Text.of ∨ isUnbalanced doc.text stem.lower = false),
    forall_anyOpenTag_iff (P := fun stem =>
      stem.lower ∈ voidTags.map Text.of ∨ seeksTags stem.lower = true)]
  refine or_congr_left (forall₂_congr fun o _ => ?_)
  rw [isUnbalanced_eq_false_iff (isTagName_lower o.stem_ne_nil o.letters_stem), or_iff_not_imp_right]
  constructor
  · intro safe m among hyphen same
    exact safe fun every => every m (doc.mem_unclosed_of_hyphen among hyphen) same
  · intro safe some
    obtain ⟨m, mem, same⟩ : ∃ m ∈ doc.unclosed, SameName o.stem.lower m.stem := by simpa using some
    obtain isVoid | ⟨among, hyphen⟩ := doc.mem_unclosed mem
    · have whole := m.stem_eq_name
        (not_mem_of_isWordChar (isVoid.letters (by decide)).2 (by decide))
      exact mem_voidTags_of_sameName isLowered_of_mem_lower (whole ▸ same) isVoid
    · exact safe m among hyphen same

/-- One element with a hyphen in its name, closed. -/
def customElement : Document :=
  .element ⟨"my-el".toList, [], ⟨'m', "y-el".toList, rfl, by decide⟩,
      by simpa using (by decide : "my-el".toList.all fun y => isWordChar y || y == '-'), by decide, by simp⟩
    (.words "x".toList (by decide) .done) .done

attribute [local instance] Engine.standard in
/-- The element is reported, and with a name that no tag has. -/
theorem customElement_reported :
    customElement.text = "<my-el>x</my-el>".toList ∧
      checkBalance customElement.text = .ok [.manual .error 1 "Structure" "Unclosed or mismatched <my> tag"
        "Ensure all <my> tags are properly closed" "</my>" 8] := by
  constructor
  · rfl
  · decide +kernel

end SourceAudit.Markup
