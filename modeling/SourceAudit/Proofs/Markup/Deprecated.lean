/-
Module: SourceAudit.Proofs.Markup.Deprecated
Layer: Proofs
Purpose: Deprecated tags in a text. An opening tag starts with the name in any case and an edge of the
  word behind it; a closing tag is the name between a slash and blanks up to a bracket. A stretch is
  inert if no such tag starts in it, whatever follows.
Main exports: DeprecatedTag, SpelledAs, modernNames, OpensTag, ClosesTag, opensTag_iff, closesTag_iff,
  Inert, Inert.append, Inert.opening, Inert.closing, Inert.cut
-/
import SourceAudit.Proofs.Markup.Tags

namespace SourceAudit

/-! ### Names -/

/-- The deprecated tags that a fix rewrites. -/
inductive DeprecatedTag where
  | center | font | marquee | blink | big | strike | tt
deriving DecidableEq, Repr

namespace DeprecatedTag

/-- The name of the tag. -/
def name : DeprecatedTag → String
  | center => "center"
  | font => "font"
  | marquee => "marquee"
  | blink => "blink"
  | big => "big"
  | strike => "strike"
  | tt => "tt"

/-- All of them, in the order in which they are reported. -/
def all : List DeprecatedTag := [center, font, marquee, blink, big, strike, tt]

theorem mem_all (tag : DeprecatedTag) : tag ∈ all := by cases tag <;> decide

instance {p : DeprecatedTag → Prop} [DecidablePred p] : Decidable (∀ tag, p tag) :=
  decidable_of_iff (∀ tag ∈ all, p tag) ⟨fun each tag => each tag tag.mem_all, fun each tag _ => each tag⟩

end DeprecatedTag

/-- The text is the name of the tag, in any case. -/
def SpelledAs (tag : DeprecatedTag) (n : Text) : Prop :=
  List.Forall₂ (fun x y => sameFold x y = true) tag.name.toList n

instance (tag : DeprecatedTag) (n : Text) : Decidable (SpelledAs tag n) :=
  inferInstanceAs (Decidable (List.Forall₂ _ _ _))

/-- The letters of the names. -/
def tagLetters : List Char := DeprecatedTag.all.flatMap fun tag => tag.name.toList

theorem mem_tagLetters {tag : DeprecatedTag} {x : Char} (mem : x ∈ tag.name.toList) : x ∈ tagLetters :=
  List.mem_flatMap.2 ⟨tag, tag.mem_all, mem⟩

/-- Up to case, a letter of a name is like word characters only, and like no two of them. -/
theorem sameFold_tagLetter {x y : Char} (letter : x ∈ tagLetters) (like : sameFold x y = true) :
    isWordChar y = true ∧ ∀ z ∈ tagLetters, sameFold z y = true → z = x := by
  have all : tagLetters.all (fun x => x.toNat < 128 && asciiLikes.all fun y => !sameFold x y ||
      isWordChar y && tagLetters.all fun z => !sameFold z y || z == x) = true := by decide +kernel
  have here := List.all_eq_true.1 all x letter
  rw [Bool.and_eq_true, decide_eq_true_eq] at here
  have there := List.all_eq_true.1 here.2 y (mem_asciiLikes here.1 like)
  rw [like, Bool.not_true, Bool.false_or, Bool.and_eq_true, List.all_eq_true] at there
  obtain ⟨word, others⟩ := there
  refine ⟨word, fun z mem like' => ?_⟩
  have same := others z mem
  rwa [like', Bool.not_true, Bool.false_or, beq_iff_eq] at same

namespace SpelledAs

variable {tag tag' : DeprecatedTag} {n : Text}

theorem ne_nil (spelled : SpelledAs tag n) : n ≠ [] := by
  rintro rfl
  have none := List.forall₂_nil_right_iff.1 spelled
  cases tag <;> cases none

theorem letters (spelled : SpelledAs tag n) : ∀ y ∈ n, isWordChar y = true := by
  intro y mem
  obtain ⟨x, letter, like⟩ := exists_partner_of_mem spelled mem
  exact (sameFold_tagLetter (mem_tagLetters letter) like).1

/-- No text is the name of two tags. -/
theorem unique (spelled : SpelledAs tag n) (spelled' : SpelledAs tag' n) : tag = tag' := by
  have same : tag.name.toList = tag'.name.toList := by
    have letters : ∀ x ∈ tag.name.toList, x ∈ tagLetters := fun x mem => mem_tagLetters mem
    have letters' : ∀ x ∈ tag'.name.toList, x ∈ tagLetters := fun x mem => mem_tagLetters mem
    rw [SpelledAs] at spelled spelled'
    generalize tag.name.toList = cs at spelled letters
    generalize tag'.name.toList = cs' at spelled' letters'
    induction spelled generalizing cs' with
    | nil => exact (List.forall₂_nil_right_iff.1 spelled').symm
    | cons first _ ih =>
      obtain ⟨x, xs, first', others', rfl⟩ := List.forall₂_cons_right_iff.1 spelled'
      obtain ⟨here, others⟩ := List.forall_mem_cons.1 letters
      obtain ⟨here', others''⟩ := List.forall_mem_cons.1 letters'
      rw [(sameFold_tagLetter here first).2 x here' first', ih others xs others' others'']
  revert same
  cases tag <;> cases tag' <;> decide

end SpelledAs

/-- The names of the elements that take the place of deprecated ones. -/
def modernNames : List Text := ["div".toList, "span".toList, "s".toList, "code".toList]

theorem of_mem_modernNames {m : Text} (modern : m ∈ modernNames) :
    m ≠ [] ∧ (∀ y ∈ m, isWordChar y = true) ∧ ∀ tag, ¬ SpelledAs tag m := by
  have words : modernNames.all (fun m => m.all isWordChar) = true := by decide +kernel
  have others : ∀ m ∈ modernNames, m ≠ [] ∧ ∀ tag, ¬ SpelledAs tag m := by decide
  obtain ⟨some, other⟩ := others m modern
  exact ⟨some, List.all_eq_true.1 (List.all_eq_true.1 words m modern), other⟩

/-! ### Tags at the start of a text -/

/-- The text starts with an opening tag of this kind, whether it is closed by a bracket or not. -/
def OpensTag (tag : DeprecatedTag) (a : Text) : Prop :=
  ∃ n rest, a = '<' :: (n ++ rest) ∧ SpelledAs tag n ∧ ∀ y ∈ rest.head?, isWordChar y = false

/-- The text starts with a closing tag of this kind. -/
def ClosesTag (tag : DeprecatedTag) (a : Text) : Prop :=
  ∃ n gap rest, a = '<' :: '/' :: (n ++ (gap ++ '>' :: rest)) ∧ SpelledAs tag n ∧
    ∀ y ∈ gap, isBlank y = true

/-- No tag starts in the text, whatever follows it. -/
def Inert (u : Text) : Prop :=
  ∀ a b w tag, u = a ++ b → b ≠ [] → ¬ OpensTag tag (b ++ w) ∧ ¬ ClosesTag tag (b ++ w)

section

variable {tag tag' : DeprecatedTag} {n n' rest rest' gap gap' : Text}

theorem opensTag_iff (spelled : SpelledAs tag n) (apart : ∀ y ∈ rest.head?, isWordChar y = false) :
    OpensTag tag' ('<' :: (n ++ rest)) ↔ tag' = tag := by
  constructor
  · rintro ⟨n', rest', same, spelled', apart'⟩
    obtain ⟨rfl, -⟩ := letters_unique (List.cons.inj same).2 spelled.letters spelled'.letters apart apart'
    exact spelled'.unique spelled
  · rintro rfl
    exact ⟨n, rest, rfl, spelled, apart⟩

theorem not_opensTag_slash (a : Text) : ¬ OpensTag tag ('<' :: '/' :: a) := by
  rintro ⟨n, rest, same, spelled, -⟩
  obtain ⟨x, n, rfl⟩ := List.exists_cons_of_ne_nil spelled.ne_nil
  obtain ⟨rfl, -⟩ := List.cons.inj (List.cons.inj same).2
  cases spelled.letters '/' List.mem_cons_self

theorem not_closesTag (some : n ≠ []) (letters : ∀ y ∈ n, isWordChar y = true) (a : Text) :
    ¬ ClosesTag tag ('<' :: (n ++ a)) := by
  rintro ⟨n', gap, rest, same, -⟩
  obtain ⟨x, n, rfl⟩ := List.exists_cons_of_ne_nil some
  obtain ⟨rfl, -⟩ := List.cons.inj (List.cons.inj same).2
  cases letters '/' List.mem_cons_self

theorem edge_before_bracket {attrs : Text} (apart : ∀ y ∈ attrs.head?, isWordChar y = false) :
    ∀ y ∈ (attrs ++ '>' :: rest).head?, isWordChar y = false := by
  cases attrs with
  | nil => simp; decide
  | cons x attrs => simpa using apart

theorem edge_of_blanks (blank : ∀ y ∈ gap, isBlank y = true) : ∀ y ∈ gap.head?, isWordChar y = false :=
  fun y first => isWordChar_of_isBlank (blank y (List.mem_of_mem_head? first))

/-- A closing tag is known from the text that it starts. -/
theorem closing_parts (same : n ++ (gap ++ '>' :: rest) = n' ++ (gap' ++ '>' :: rest'))
    (letters : ∀ y ∈ n, isWordChar y = true) (letters' : ∀ y ∈ n', isWordChar y = true)
    (blank : ∀ y ∈ gap, isBlank y = true) (blank' : ∀ y ∈ gap', isBlank y = true) :
    n = n' ∧ gap = gap' ∧ rest = rest' := by
  obtain ⟨rfl, behind⟩ := letters_unique same letters letters'
    (edge_before_bracket (edge_of_blanks blank)) (edge_before_bracket (edge_of_blanks blank'))
  obtain ⟨rfl, rfl⟩ := closing_unique behind (not_mem_blanks blank) (not_mem_blanks blank')
  exact ⟨rfl, rfl, rfl⟩

theorem closesTag_iff (spelled : SpelledAs tag n) (blank : ∀ y ∈ gap, isBlank y = true) :
    ClosesTag tag' ('<' :: '/' :: (n ++ (gap ++ '>' :: rest))) ↔ tag' = tag := by
  constructor
  · rintro ⟨n', gap', rest', same, spelled', blank'⟩
    obtain ⟨rfl, -, -⟩ := closing_parts (List.cons.inj (List.cons.inj same).2).2 spelled.letters
      spelled'.letters blank blank'
    exact spelled'.unique spelled
  · rintro rfl
    exact ⟨n, gap, rest, rfl, spelled, blank⟩

end

/-- An opening tag stays one if the character that ends its name is another one. -/
theorem OpensTag.replace {tag : DeprecatedTag} {v w back : Text} {x y : Char}
    (opens : OpensTag tag (v ++ y :: w)) (bracket : y ≠ '<') (edge : isWordChar y = false)
    (edge' : isWordChar x = false) : OpensTag tag (v ++ x :: back) := by
  obtain ⟨n, rest, same, spelled, apart⟩ := opens
  rw [← List.cons_append] at same
  obtain ⟨as, opening, behind⟩ | ⟨bs, rfl, rfl⟩ := List.append_eq_append_iff.1 same
  · have mem : y ∈ as → y ∈ '<' :: n := fun inside => opening ▸ List.mem_append_right v inside
    cases as with
    | nil =>
      rw [List.append_nil] at opening
      exact ⟨n, x :: back, by rw [← opening, List.cons_append], spelled, by simpa using edge'⟩
    | cons z as =>
      obtain rfl := (List.cons.inj behind).1
      rcases List.mem_cons.1 (mem List.mem_cons_self) with here | inside
      · exact absurd here bracket
      · rw [spelled.letters y inside] at edge
        cases edge
  · refine ⟨n, bs ++ x :: back, by simp, spelled, ?_⟩
    cases bs with
    | nil => simpa using edge'
    | cons z bs => simpa using apart

/-- A closing tag does not reach to a character that stands in none. -/
theorem ClosesTag.replace {tag : DeprecatedTag} {v w back : Text} {y : Char}
    (closes : ClosesTag tag (v ++ y :: w)) (outside : y ∉ ['<', '/', '>']) (solid : isBlank y = false)
    (edge : isWordChar y = false) : ClosesTag tag (v ++ back) := by
  obtain ⟨n, gap, rest, same, spelled, blank⟩ := closes
  have parts : v ++ y :: w = ('<' :: '/' :: (n ++ (gap ++ ['>']))) ++ rest := by rw [same]; simp
  obtain ⟨as, closing, behind⟩ | ⟨bs, rfl, -⟩ := List.append_eq_append_iff.1 parts
  · cases as with
    | nil =>
      rw [List.append_nil] at closing
      exact ⟨n, gap, back, by simp [← closing], spelled, blank⟩
    | cons z as =>
      obtain rfl := (List.cons.inj behind).1
      have mem : y ∈ '<' :: '/' :: (n ++ (gap ++ ['>'])) :=
        closing ▸ List.mem_append_right v List.mem_cons_self
      simp only [List.mem_cons, List.mem_append, List.not_mem_nil, or_false, not_or] at mem outside
      rcases mem with here | here | inside | inside | here
      · exact absurd here outside.1
      · exact absurd here outside.2.1
      · rw [spelled.letters y inside] at edge
        cases edge
      · rw [blank y inside] at solid
        cases solid
      · exact absurd here outside.2.2
  · exact ⟨n, gap, bs ++ back, by simp, spelled, blank⟩

/-! ### Stretches without tags -/

namespace Inert

variable {u v : Text}

theorem nil : Inert [] := by
  intro a b w tag split some
  exact absurd (List.append_eq_nil_iff.1 split.symm).2 some

theorem append (hu : Inert u) (hv : Inert v) : Inert (u ++ v) := by
  intro a b w tag split some
  obtain ⟨as, rfl, rfl⟩ | ⟨bs, rfl, rfl⟩ := List.append_eq_append_iff.1 split
  · exact hv as b w tag rfl some
  · rcases eq_or_ne bs [] with rfl | some'
    · exact hv [] v w tag rfl some
    · simpa using hu a bs (v ++ w) tag rfl some'

theorem suffix (hu : Inert (v ++ u)) : Inert u := by
  intro a b w tag split some
  exact hu (v ++ a) b w tag (by simp [split]) some

theorem cons {x : Char} (hu : Inert u)
    (here : ∀ w tag, ¬ OpensTag tag (x :: (u ++ w)) ∧ ¬ ClosesTag tag (x :: (u ++ w))) :
    Inert (x :: u) := by
  intro a b w tag split some
  cases a with
  | nil =>
    obtain rfl : x :: u = b := split
    exact here w tag
  | cons y a => exact hu a b w tag (List.cons.inj split).2 some

theorem cons_of_ne {x : Char} (hu : Inert u) (other : x ≠ '<') : Inert (x :: u) := by
  refine hu.cons fun w tag => ⟨?_, ?_⟩
  · rintro ⟨n, rest, same, -⟩
    exact other (List.cons.inj same).1
  · rintro ⟨n, gap, rest, same, -⟩
    exact other (List.cons.inj same).1

theorem of_not_mem (absent : '<' ∉ u) : Inert u := by
  induction u with
  | nil => exact nil
  | cons x u ih =>
    rw [List.mem_cons, not_or] at absent
    exact (ih absent.2).cons_of_ne (Ne.symm absent.1)

variable {m r : Text}

/-- An opening tag of another name is none of these tags. -/
theorem opening (inert : Inert (r ++ ['>'])) (modern : m ∈ modernNames)
    (apart : ∀ y ∈ r.head?, isWordChar y = false) : Inert ('<' :: (m ++ (r ++ ['>']))) := by
  obtain ⟨some, letters, other⟩ := of_mem_modernNames modern
  have plain : '<' ∉ m := not_mem_of_isWordChar letters (by decide)
  refine ((of_not_mem plain).append inert).cons fun w tag => ⟨?_, ?_⟩
  · rintro ⟨n, rest, same, spelled, edge⟩
    have same : m ++ (r ++ '>' :: w) = n ++ rest := by simpa using same
    obtain ⟨rfl, -⟩ := letters_unique same letters spelled.letters (edge_before_bracket apart) edge
    exact other tag spelled
  · simpa using not_closesTag some letters (r ++ '>' :: w)

/-- A closing tag of another name is none of these tags. -/
theorem closing (modern : m ∈ modernNames) : Inert ('<' :: '/' :: (m ++ ['>'])) := by
  obtain ⟨-, letters, other⟩ := of_mem_modernNames modern
  have plain : '<' ∉ m := not_mem_of_isWordChar letters (by decide)
  refine ((of_not_mem (by simp [plain])).cons_of_ne (by decide)).cons fun w tag => ⟨?_, ?_⟩
  · exact not_opensTag_slash _
  · rintro ⟨n, gap, rest, same, spelled, blank⟩
    have same : m ++ ([] ++ '>' :: w) = n ++ (gap ++ '>' :: rest) := by simpa using same
    obtain ⟨rfl, -, -⟩ := closing_parts same letters spelled.letters (by simp) blank
    exact other tag spelled

/-- A stretch of an inert text is inert with another character behind it, if this one stands in no tag. -/
theorem cut {front back : Text} {x y : Char} (inert : Inert (front ++ (v ++ x :: back)))
    (edge : isWordChar x = false) (outside : y ∉ ['<', '/', '>']) (solid : isBlank y = false)
    (edge' : isWordChar y = false) : Inert (v ++ [y]) := by
  intro a b w tag split some
  obtain ⟨v', rfl, rfl⟩ : ∃ v', v = a ++ v' ∧ b = v' ++ [y] := by
    obtain ⟨as, rfl, single⟩ | ⟨bs, rfl, rfl⟩ := List.append_eq_append_iff.1 split
    · obtain ⟨rfl, rfl⟩ | ⟨rfl, rfl⟩ := List.append_eq_singleton_iff.1 single.symm
      · exact ⟨[], by simp, rfl⟩
      · exact absurd rfl some
    · exact ⟨bs, rfl, rfl⟩
  have silent := inert (front ++ a) (v' ++ x :: back) [] tag (by simp) (by simp)
  rw [List.append_nil] at silent
  rw [List.append_assoc, List.singleton_append]
  have bracket : y ≠ '<' := fun same => outside (by simp [same])
  exact ⟨fun opens => silent.1 (opens.replace bracket edge' edge),
    fun closes => silent.2 (closes.replace outside solid edge')⟩

end Inert

end SourceAudit
