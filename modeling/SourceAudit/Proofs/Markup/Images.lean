/-
Module: SourceAudit.Proofs.Markup.Images
Layer: Proofs
Purpose: The images of a text. The fix and the validation find them by patterns of their own, but at the
  same places; so where images are put for images, each of the two patterns reads the new ones, and the
  text between them as before.
Main exports: IsTag, IsTag.unique, TagAhead.before_bracket, FindsImages, FindsImages.rereads,
  isTag_imageWithAlt, map_chars_findAll_addAltAttributes, occurs_altAttribute_imageWithAlt
-/
import SourceAudit.Proofs.Markup.Tags
import SourceAudit.Proofs.Pattern.Gaps
import SourceAudit.Proofs.Text.LastCut

namespace SourceAudit

open Pattern Markup Cursor

/-! ### Tags -/

/-- The text is a tag with one of the names. -/
def IsTag (names : List String) (w : Text) : Prop :=
  ∃ n body, w = '<' :: (n ++ body) ++ ['>'] ∧ NameLike names n ∧ '>' ∉ body ∧
    ∀ y ∈ (body ++ ['>']).head?, isWordChar y = false

theorem IsTag.tagAhead {names : List String} {w : Text} (h : IsTag names w) (r : Text) :
    TagAhead names ['>'] (w ++ r) := by
  obtain ⟨n, body, rfl, like, absent, apart⟩ := h
  refine ⟨n, body ++ '>' :: r, by simp, like, ?_, body, r, rfl, absent⟩
  have whole : body ++ '>' :: r = (body ++ ['>']) ++ r := by simp
  rwa [whole, List.head?_append_of_ne_nil _ (by simp)]

/-- A tag is the text up to its closing bracket. -/
theorem IsTag.unique {names : List String} (among : names ⊆ voidNames) {w w' r r' : Text}
    (h : IsTag names w) (h' : IsTag names w') (same : w ++ r = w' ++ r') : w = w' ∧ r = r' := by
  have unclosed : ∀ {n body : Text}, NameLike names n → '>' ∉ body → '>' ∉ '<' :: (n ++ body) := by
    intro n body like absent
    simp [absent, not_mem_of_isWordChar (like.letters among).2 (show isWordChar '>' = false by decide)]
  obtain ⟨n, body, rfl, like, absent, -⟩ := h
  obtain ⟨n', body', rfl, like', absent', -⟩ := h'
  rw [List.append_assoc, List.append_assoc] at same
  obtain ⟨front, rest⟩ := closing_unique same (unclosed like absent) (unclosed like' absent')
  exact ⟨by rw [front], rest⟩

/-- What a text starts with up to a bracket and what closes it behind does not depend on what else
    stands behind the bracket. -/
theorem exists_rest_of_bracket {n rest b r r' : Text} {P : Char → Prop} (some : b ≠ [])
    (plain : '<' ∉ n) (same : b ++ '<' :: r = '<' :: (n ++ rest)) (behind : ∀ y ∈ rest.head?, P y)
    (closed : ClosedBy ['>'] rest) (closed' : '>' ∈ r') :
    ∃ rest', b ++ '<' :: r' = '<' :: (n ++ rest') ∧ (∀ y ∈ rest'.head?, P y) ∧
      ClosedBy ['>'] rest' := by
  obtain ⟨x, b, rfl⟩ := List.exists_cons_of_ne_nil some
  obtain ⟨rfl, whole⟩ := List.cons.inj same
  -- the name ends before the bracket
  obtain ⟨w, rfl, rfl⟩ : ∃ w, b = n ++ w ∧ rest = w ++ '<' :: r := by
    rcases List.append_eq_append_iff.1 whole with ⟨w, rfl, split⟩ | ⟨w, split, rest⟩
    · cases w with
      | nil => exact ⟨[], by simp, by simpa using split.symm⟩
      | cons y w =>
        obtain ⟨rfl, -⟩ := List.cons.inj split
        simp at plain
    · exact ⟨w, split, rest⟩
  refine ⟨w ++ '<' :: r', by simp, ?_, ?_⟩
  · cases w with
    | nil => exact behind
    | cons y w => exact behind
  · by_cases early : '>' ∈ w
    · obtain ⟨body, v, rfl, absent⟩ := List.eq_append_cons_of_mem early
      exact ⟨body, v ++ '<' :: r', by simp, absent⟩
    · obtain ⟨body, v, rfl, absent⟩ := List.eq_append_cons_of_mem closed'
      exact ⟨w ++ '<' :: body, v, by simp, by simp [early, absent]⟩

theorem TagAhead.before_bracket {names : List String} (among : names ⊆ voidNames) {b r r' : Text}
    (some : b ≠ []) (closed : '>' ∈ r') (tag : TagAhead names ['>'] (b ++ '<' :: r)) :
    TagAhead names ['>'] (b ++ '<' :: r') := by
  obtain ⟨n, rest, same, like, apart, closing⟩ := tag
  have plain := not_mem_of_isWordChar (like.letters among).2 (show isWordChar '<' = false by decide)
  obtain ⟨rest', same', apart', closing'⟩ :=
    exists_rest_of_bracket some plain same apart closing closed
  exact ⟨n, rest', same', like, apart', closing'⟩

/-! ### Finding images -/

/-- The pattern finds the images. -/
structure FindsImages (p : Pattern) : Prop where
  moves : p.isSkippable = false
  passes_iff : ∀ c, (∃ d, p.Passes c d) ↔ TagAhead ["img"] ['>'] c.ahead
  isTag : ∀ {c hit}, p.matchAt c = some hit → IsTag ["img"] hit.chars

theorem FindsImages.matchAt_eq_none_iff {p : Pattern} (finds : FindsImages p) (before v : Text) :
    p.matchAt (between before v) = none ↔ ¬ TagAhead ["img"] ['>'] v := by
  rw [Pattern.matchAt_eq_none_iff, ← not_exists, finds.passes_iff]
  rfl

/-- The parts of an image that the fix finds, and how it is written. -/
theorem exists_image_parts {image : Hit}
    (way : Fix.imageTag.Keeps image.whole.start image.whole.stop image.groups) :
    ∃ n bs slash, NameLike ["img"] n ∧ '>' ∉ image.groupChars 1 ∧ (∀ y ∈ bs, isBlank y = true) ∧
      (slash = [] ∨ slash = ['/']) ∧
      (∀ y ∈ (image.groupChars 1 ++ (bs ++ (slash ++ ['>']))).head?, isWordChar y = false) ∧
      image.chars = '<' :: (n ++ (image.groupChars 1 ++ (bs ++ (slash ++ ['>'])))) := by
  obtain ⟨n, attributes, bs, slash, like, absent, blank, either, apart, moves, first, -⟩ :=
    keeps_imageTag way
  obtain rfl : image.groupChars 1 = attributes := first
  exact ⟨n, bs, slash, like, absent, blank, either, apart, moves.chars⟩

theorem keeps_of_matchAt_whole {p : Pattern} {c : Cursor} {hit : Hit} (found : p.matchAt c = some hit) :
    p.Keeps hit.whole.start hit.whole.stop hit.groups := by
  obtain ⟨start, way⟩ := keeps_of_matchAt found
  rwa [start]

theorem findsImages_imageTag : FindsImages Fix.imageTag where
  moves := rfl
  passes_iff := exists_passes_imageTag
  isTag {c image} found := by
    obtain ⟨n, bs, slash, like, absent, blank, either, apart, chars⟩ :=
      exists_image_parts (keeps_of_matchAt_whole found)
    refine ⟨n, image.groupChars 1 ++ (bs ++ slash), by rw [chars]; simp, like, ?_, by simpa using apart⟩
    rcases either with rfl | rfl <;> simp [absent, not_mem_blanks blank]

/-- Which part of a tag a pattern keeps does not matter for where it finds the images. -/
theorem FindsImages.of_tagNamed {p : Pattern} (moves : p.isSkippable = false)
    (same : ∀ c d, p.Passes c d ↔ (tagNamed "img").Passes c d) : FindsImages p where
  moves := moves
  passes_iff c := by
    simp only [same]
    exact exists_passes_tagNamed_img c
  isTag found := by
    have way := (same _ _).1 (keeps_of_matchAt_whole found).passes
    obtain ⟨n, body, like, absent, apart, moves⟩ :=
      (passes_closedTag (by decide) (opens_anyCase "img")).1 way
    rw [Hit.chars, moves.chars]
    refine ⟨n, body, by simp, like, absent, ?_⟩
    have whole (after : Text) : body ++ (['>'] ++ after) = (body ++ ['>']) ++ after := by simp
    rwa [show ">".toList = ['>'] from rfl, whole, List.head?_append_of_ne_nil _ (by simp)] at apart

theorem findsImages_tagNamed : FindsImages (tagNamed "img") := .of_tagNamed rfl fun _ _ => Iff.rfl

theorem findsImages_looseTag : FindsImages (Fix.looseTag "img") := .of_tagNamed rfl fun _ _ => Iff.rfl

/-- A pattern that finds the images reads a text in which they are replaced by other images. -/
theorem FindsImages.rereads {p q : Pattern} {new : Hit → Text} (finds : FindsImages p)
    (finds' : FindsImages q) (images : ∀ {c hit}, p.matchAt c = some hit → IsTag ["img"] (new hit)) :
    Rereads p new q where
  found here before rest := by
    have image := images here
    cases there : q.matchAt (between before (new _ ++ rest)) with
    | none => exact absurd (image.tagAhead rest) ((finds'.matchAt_eq_none_iff _ _).1 there)
    | some hit' =>
      obtain ⟨after, split, -⟩ := exists_chars_of_matchAt there
      exact ⟨hit', rfl, ((finds'.isTag there).unique (by decide) image split.symm).1⟩
  silent here silent before' rest' := by
    rw [silentIn_iff finds.matchAt_eq_none_iff] at silent
    rw [silentIn_iff finds'.matchAt_eq_none_iff]
    intro a b split some tag
    obtain ⟨n, body, new', -⟩ := images here
    obtain ⟨n', body', old, -⟩ := finds.isTag here
    rw [new', List.cons_append, List.cons_append] at tag
    refine silent a b split some ?_
    rw [old, List.cons_append, List.cons_append]
    exact tag.before_bracket (by decide) some (by simp)
  ending silent before' := by
    rw [silentIn_iff finds.matchAt_eq_none_iff] at silent
    rwa [silentIn_iff finds'.matchAt_eq_none_iff]

/-! ### Mended images -/

/-- The text alternative made from attributes without a bracket has none. -/
theorem not_mem_altText {attributes : Text} (absent : '>' ∉ attributes) :
    '>' ∉ Fix.altText attributes := by
  have stem : '>' ∉ Fix.sourceStem attributes := by
    rw [Fix.sourceStem]
    cases found : (Fix.quotedAttribute "src").find attributes with
    | none => exact List.not_mem_nil
    | some src =>
      intro mem
      have inside := (List.takeWhile_sublist _).subset mem
      exact absent (groupChars_subset found 1 (Text.afterLast_subset _ _ inside))
  intro mem
  rw [Fix.altText] at mem
  obtain ⟨x, among, written⟩ := List.mem_map.1 mem
  have plain : x = '>' := by
    split at written
    · cases written
    · exact written
  subst plain
  split at among
  · exact absurd among (by decide)
  · exact stem among

theorem nameLike_img : NameLike ["img"] "img".toList :=
  ⟨"img", List.mem_singleton_self _, List.forall₂_same.2 fun x _ => sameFold_self x⟩

/-- An image is mended to an image. -/
theorem isTag_imageWithAlt {c : Cursor} {image : Hit} (found : Fix.imageTag.matchAt c = some image) :
    IsTag ["img"] (Fix.imageWithAlt image) := by
  obtain ⟨n, bs, slash, -, absent, -, -, apart, -⟩ := exists_image_parts (keeps_of_matchAt_whole found)
  rw [Fix.imageWithAlt]
  split
  · exact findsImages_imageTag.isTag found
  · have alternative := not_mem_altText absent
    have mended (slash : Text) (unclosed : '>' ∉ slash) : IsTag ["img"] ("<img" ++ image.groupChars 1 ++
        " alt=\"" ++ Fix.altText (image.groupChars 1) ++ '"' :: (slash ++ ['>'])) := by
      refine ⟨"img".toList, image.groupChars 1 ++ (" alt=\"".toList ++ Fix.altText (image.groupChars 1) ++
        '"' :: slash), by simp, nameLike_img, by simp [absent, alternative, unclosed], ?_⟩
      intro y first
      cases attributes : image.groupChars 1 with
      | nil =>
        rw [attributes] at first
        obtain rfl : ' ' = y := Option.some.inj first
        decide
      | cons z rest =>
        rw [attributes] at first apart
        exact apart y first
    cases (image.groupChars 2).isEmpty with
    | true => exact mended [] (by decide)
    | false => exact mended [' ', '/'] (by decide)

/-- The images that the validation finds in mended text are the mended images. -/
theorem map_chars_findAll_addAltAttributes (t : Text) :
    ((tagNamed "img").findAll (Fix.addAltAttributes t)).map Hit.chars =
      (Fix.imageTag.findAll t).map Fix.imageWithAlt :=
  ((findsImages_imageTag.rereads findsImages_tagNamed isTag_imageWithAlt).replaceAll rfl rfl t).2

/-- A text alternative that is put in is one for the validation. -/
theorem occurs_altAttribute_append (u v : Text) :
    altAttribute.occurs (u ++ " alt=".toList ++ v) = true := by
  rw [occurs_iff rfl]
  have split : u ++ " alt=".toList ++ v = (u ++ [' ']) ++ ("alt=".toList ++ v) := by simp
  rw [split]
  obtain ⟨d, moves, -⟩ := Cursor.exists_moves (c := .between (u ++ [' ']) ("alt=".toList ++ v)) rfl
  refine ⟨_, d, Cursor.isIn_between _ _, _, ⟨?_, rfl⟩, passes_anyCase.2 ⟨_, ?_, moves⟩⟩
  · have left : (Cursor.between (u ++ [' ']) ("alt=".toList ++ v)).behind.head? = some ' ' := by
      simp [Cursor.between]
    rw [wordEdge_holds_iff (x := 'a') rfl (by decide), left]
    decide
  · exact List.forall₂_same.2 fun x _ => sameFold_self x

/-- A mended image lacks a text alternative exactly if it was left as it is: its attributes have one
    with blanks before the equals sign, and it has none without. -/
theorem occurs_altAttribute_imageWithAlt (image : Hit) :
    altAttribute.occurs (Fix.imageWithAlt image) = false ↔
      Fix.spacedAltAttribute.occurs (image.groupChars 1) = true ∧
        altAttribute.occurs image.chars = false := by
  rw [Fix.imageWithAlt]
  by_cases kept : Fix.spacedAltAttribute.occurs (image.groupChars 1) = true
  · rw [if_pos kept, and_iff_right kept]
  · rw [if_neg kept]
    constructor
    · intro missing
      have there := occurs_altAttribute_append ("<img".toList ++ image.groupChars 1)
        ('"' :: (Fix.altText (image.groupChars 1) ++
          '"' :: if (image.groupChars 2).isEmpty then ">".toList else " />".toList))
      refine absurd (missing.symm.trans ?_) Bool.false_ne_true
      simpa using there
    · exact fun left => absurd left.1 kept

end SourceAudit
