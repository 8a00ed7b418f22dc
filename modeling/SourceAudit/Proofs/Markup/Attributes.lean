/-
Module: SourceAudit.Proofs.Markup.Attributes
Layer: Proofs
Purpose: Attributes that the fixes put into tags. Every image gets a text alternative and the document
  its language; what is put in has no closing bracket, so the new tags stand where the old ones stood,
  and the text between them stays. A tag that has the attribute stays as well, so one pass is enough.
Main exports: occurs_attribute_append, imageAttributes, forall_describes_addAltAttributes,
  language_addHtmlLang, alternatives_and_language_settle
-/
import SourceAudit.Proofs.Improve.Settled
import SourceAudit.Proofs.Markup.Images
import SourceAudit.Proofs.Markup.Sought

namespace SourceAudit

open Pattern Markup Cursor

/-! ### Attributes -/

section

variable {name : String} {before cs after u v : Text} {kept : List (Nat × Text)}

/-- An attribute as the fixes look for it. -/
theorem spells_attribute (some : name.toList ≠ []) :
    (wordEdge ++ anyCase name ++ blanks ++ text "=").Spells before cs after kept ↔
      ∃ n gap, cs = n ++ (gap ++ ['=']) ∧
        List.Forall₂ (fun x y => sameFold x y = true) name.toList n ∧
        (∀ y ∈ gap, isBlank y = true) ∧ Edge.word.holds (between before n) = true ∧ kept = [] := by
  have edge {n rest : Text} (like : List.Forall₂ (fun x y => sameFold x y = true) name.toList n) :
      Edge.word.holds (between before (n ++ rest)) = Edge.word.holds (between before n) := by
    have written : n ≠ [] := by
      rintro rfl
      exact some (List.forall₂_nil_right_iff.1 like)
    rw [Edge.holds, Edge.holds, between, between, List.head?_append_of_ne_nil _ written]
  constructor
  · rintro ⟨_, _, _, _, rfl, rfl, ⟨_, gap, _, _, rfl, rfl,
      ⟨_, n, _, _, rfl, rfl, ⟨⟨holds, rfl⟩, rfl⟩, like, rfl⟩, inner⟩, sign⟩
    obtain ⟨blank, rfl⟩ := spells_blanks.1 inner
    obtain ⟨rfl, rfl⟩ := spells_text.1 sign
    rw [edge like] at holds
    exact ⟨n, gap, by simp, like, blank, holds, rfl⟩
  · rintro ⟨n, gap, rfl, like, blank, holds, rfl⟩
    refine ⟨n ++ gap, ['='], [], [], by simp, rfl, ?_, spells_text.2 ⟨rfl, rfl⟩⟩
    refine ⟨n, gap, [], [], rfl, rfl, ?_, spells_blanks.2 ⟨blank, rfl⟩⟩
    refine ⟨[], n, [], [], rfl, rfl, ⟨⟨?_, rfl⟩, rfl⟩, like, rfl⟩
    rwa [edge like]

/-- Behind the last equals sign of a text no attribute ends. -/
theorem occurs_attribute_append (some : name.toList ≠ []) (plain : '=' ∉ v) :
    (wordEdge ++ anyCase name ++ blanks ++ text "=").occurs (u ++ v) = true ↔
      (wordEdge ++ anyCase name ++ blanks ++ text "=").occurs u = true := by
  have moves : (wordEdge ++ anyCase name ++ blanks ++ text "=").isSkippable = false := by
    simp [HAppend.hAppend, Append.append, isSkippable, text]
  rw [occurs_iff_spells moves, occurs_iff_spells moves]
  constructor
  · rintro ⟨before, cs, after, kept, split, spelled⟩
    obtain ⟨n, gap, rfl, rest⟩ := (spells_attribute some).1 spelled
    have whole : u ++ v = (before ++ n ++ gap) ++ '=' :: after := by
      rw [split]
      simp
    rcases List.append_eq_append_iff.1 whole with ⟨w, -, rfl⟩ | ⟨w, rfl, behind⟩
    · simp at plain
    · cases w with
      | nil =>
        obtain rfl : '=' :: after = v := behind
        simp at plain
      | cons x w =>
        obtain ⟨rfl, -⟩ := List.cons.inj behind
        exact ⟨before, _, w, kept, by simp, (spells_attribute some).2 ⟨n, gap, rfl, rest⟩⟩
  · rintro ⟨before, cs, after, kept, rfl, spelled⟩
    refine ⟨before, cs, after ++ v, kept, by simp, ?_⟩
    exact (spells_attribute some).2 ((spells_attribute some).1 spelled)

/-- An attribute behind a blank is found. -/
theorem occurs_attribute (some : name.toList ≠ [])
    (edge : Edge.word.holds (between [' '] name.toList) = true) :
    (wordEdge ++ anyCase name ++ blanks ++ text "=").occurs (u ++ ' ' :: (name.toList ++ '=' :: v)) =
      true := by
  have moves : (wordEdge ++ anyCase name ++ blanks ++ text "=").isSkippable = false := by
    simp [HAppend.hAppend, Append.append, isSkippable, text]
  rw [occurs_iff_spells moves]
  refine ⟨u ++ [' '], name.toList ++ ([] ++ ['=']), v, [], by simp, (spells_attribute some).2
    ⟨name.toList, [], rfl, List.forall₂_same.2 fun x _ => sameFold_self x, by simp, ?_, rfl⟩⟩
  simpa [Edge.holds, between] using edge

end

/-! ### Images -/

/-- What stands in an image between its name and its bracket. -/
def imageAttributes (image : Text) : Text := (image.drop "<img".length).dropLast

theorem imageAttributes_eq {n body : Text} (like : NameLike ["img"] n) :
    imageAttributes ('<' :: (n ++ (body ++ ['>']))) = body := by
  obtain ⟨name, mem, like⟩ := like
  obtain rfl := List.mem_singleton.1 mem
  have count : n.length = 3 := like.length_eq.symm
  have shown : ('<' :: (n ++ (body ++ ['>']))).drop 4 = body ++ ['>'] := by
    rw [List.drop_succ_cons, ← count, List.drop_left]
  rw [imageAttributes, show "<img".length = 4 from rfl, shown, List.dropLast_concat]

theorem groupChars_looseTag {image : Hit}
    (way : (Fix.looseTag "img").Keeps image.whole.start image.whole.stop image.groups) :
    image.groupChars 1 = imageAttributes image.chars := by
  obtain ⟨k, _, _, ⟨m, _, _, opening, ⟨_, inner, rfl⟩, rfl⟩, closing, groups⟩ := way
  obtain rfl := opening.eq_nil rfl
  obtain ⟨n, like, front, -⟩ := (passes_opening (by decide) (opens_anyCase "img")).1 opening.passes
  obtain ⟨body, absent, body'⟩ := passes_many_bracket.1 inner.1
  have bracket := passes_text.1 closing.1
  have first : image.groupChars 1 = body := by
    rw [Hit.groupChars, Hit.group?, groups]
    exact body'.chars
  have written : image.chars = '<' :: n ++ body ++ ['>'] := ((front.trans body').trans bracket).chars
  have attributes : imageAttributes ('<' :: (n ++ (body ++ ['>']))) = body := imageAttributes_eq like
  rw [first, written]
  simpa using attributes.symm

/-- Whether the tag of an image gives a text alternative. -/
def describes (image : Text) : Bool := Fix.spacedAltAttribute.occurs (imageAttributes image)

/-- Neither the blanks nor the slash at the end of an image matter for its text alternative. -/
theorem occurs_groupChars_imageTag {image : Hit}
    (way : Fix.imageTag.Keeps image.whole.start image.whole.stop image.groups) :
    Fix.spacedAltAttribute.occurs (image.groupChars 1) = describes image.chars := by
  obtain ⟨n, bs, slash, like, -, blank, either, -, chars⟩ := exists_image_parts way
  have plain : '=' ∉ bs ++ slash := by
    have solid : '=' ∉ bs := fun inside => by cases blank '=' inside
    rcases either with rfl | rfl <;> simp [solid]
  have inner : imageAttributes image.chars = image.groupChars 1 ++ (bs ++ slash) := by
    have whole : imageAttributes ('<' :: (n ++ (image.groupChars 1 ++ (bs ++ slash) ++ ['>']))) =
        image.groupChars 1 ++ (bs ++ slash) := imageAttributes_eq like
    rw [chars, ← whole]
    simp
  rw [describes, inner, Bool.eq_iff_iff]
  exact (@occurs_attribute_append "alt" _ _ (by decide) plain).symm

theorem imageWithAlt_of_describes {image : Hit}
    (way : Fix.imageTag.Keeps image.whole.start image.whole.stop image.groups)
    (described : describes image.chars = true) : Fix.imageWithAlt image = image.chars := by
  rw [Fix.imageWithAlt, if_pos (by rwa [occurs_groupChars_imageTag way])]

theorem describes_append (attributes value slash : Text) :
    describes ("<img" ++ attributes ++ " alt=\"" ++ value ++ '"' :: (slash ++ ['>'])) = true := by
  have written : "<img" ++ attributes ++ " alt=\"" ++ value ++ '"' :: (slash ++ ['>']) =
      '<' :: ("img".toList ++ ((attributes ++ ' ' :: ("alt".toList ++ '=' ::
        ('"' :: (value ++ '"' :: slash)))) ++ ['>'])) := by simp
  rw [describes, written, imageAttributes_eq nameLike_img]
  exact occurs_attribute (by decide) (by decide)

theorem describes_imageWithAlt {image : Hit}
    (way : Fix.imageTag.Keeps image.whole.start image.whole.stop image.groups) :
    describes (Fix.imageWithAlt image) = true := by
  rw [Fix.imageWithAlt]
  split
  · rwa [← occurs_groupChars_imageTag way]
  · cases (image.groupChars 2).isEmpty with
    | true => exact describes_append _ _ []
    | false => exact describes_append _ _ [' ', '/']

theorem describes_of_mem {t : Text} {hits : List Hit} {tag : Hit}
    (images : hits.map Hit.chars = (Fix.imageTag.findAll t).map Fix.imageWithAlt) (mem : tag ∈ hits) :
    describes tag.chars = true := by
  have among : tag.chars ∈ hits.map Hit.chars := List.mem_map_of_mem mem
  rw [images] at among
  obtain ⟨image, mem', same⟩ := List.mem_map.1 among
  rw [← same]
  exact describes_imageWithAlt (Fix.imageTag.keeps_of_mem_findAll mem').1

/-- The images of a text and those of the mended text, as the validation reads them. -/
theorem forall_describes_addAltAttributes (t : Text) :
    (Fix.looseTag "img").gaps (Fix.addAltAttributes t) = (Fix.looseTag "img").gaps t ∧
      List.Forall₂ (fun tag tag' : Hit => describes tag.chars = true → tag'.chars = tag.chars)
        ((Fix.looseTag "img").findAll t) ((Fix.looseTag "img").findAll (Fix.addAltAttributes t)) ∧
      ∀ tag ∈ (Fix.looseTag "img").findAll (Fix.addAltAttributes t), describes tag.chars = true := by
  have kept := findsImages_imageTag.rereads findsImages_looseTag findsImages_imageTag.isTag
  have mended := findsImages_imageTag.rereads findsImages_looseTag isTag_imageWithAlt
  obtain ⟨gaps, tags⟩ := kept.replaceAll rfl rfl t
  obtain ⟨gaps', tags'⟩ := mended.replaceAll rfl rfl t
  rw [replaceAll_eq_self rfl fun _ _ => rfl] at gaps tags
  rw [← Fix.addAltAttributes] at gaps' tags'
  refine ⟨gaps'.trans gaps.symm, ?_, fun tag => describes_of_mem tags'⟩
  · have pairs : List.Forall₂ (fun w w' => describes w = true → w' = w)
        (((Fix.looseTag "img").findAll t).map Hit.chars)
        (((Fix.looseTag "img").findAll (Fix.addAltAttributes t)).map Hit.chars) := by
      rw [tags, tags', List.forall₂_map_left_iff, List.forall₂_map_right_iff, List.forall₂_same]
      exact fun image mem => imageWithAlt_of_describes (Fix.imageTag.keeps_of_mem_findAll mem).1
    rwa [List.forall₂_map_left_iff, List.forall₂_map_right_iff] at pairs

theorem addAltAttributes_idem (t : Text) :
    Fix.addAltAttributes (Fix.addAltAttributes t) = Fix.addAltAttributes t := by
  have mended := findsImages_imageTag.rereads findsImages_imageTag isTag_imageWithAlt
  obtain ⟨-, images⟩ := mended.replaceAll rfl rfl t
  rw [← Fix.addAltAttributes] at images
  refine replaceAll_eq_self rfl fun image mem => ?_
  exact imageWithAlt_of_describes (Fix.imageTag.keeps_of_mem_findAll mem).1 (describes_of_mem images mem)

/-! ### The language of the document -/

/-- The text starts with the opening html tag. -/
def HtmlAhead (a : Text) : Prop :=
  ∃ n rest, a = '<' :: (n ++ rest) ∧
    List.Forall₂ (fun x y => sameFold x y = true) "html".toList n ∧
    (∀ y ∈ rest.head?, isBlank y = true ∨ y = '>') ∧ ClosedBy ['>'] rest

section

variable {before cs after n : Text} {kept : List (Nat × Text)}

theorem spells_opening {name : String} : (anyCase ("<" ++ name)).Spells before cs after kept ↔
    ∃ n, cs = '<' :: n ∧ List.Forall₂ (fun x y => sameFold x y = true) name.toList n ∧ kept = [] := by
  have split : ("<" ++ name).toList = '<' :: name.toList := by
    rw [String.toList_append]
    rfl
  rw [anyCase, Spells, split]
  constructor
  · rintro ⟨like, rfl⟩
    obtain ⟨y, n, first, others, rfl⟩ := List.forall₂_cons_left_iff.1 like
    obtain rfl := eq_of_sameFold_sign (by decide) first
    exact ⟨n, rfl, others, rfl⟩
  · rintro ⟨n, rfl, others, rfl⟩
    exact ⟨.cons (sameFold_self '<') others, rfl⟩

/-- The html tag as the fix takes it. -/
theorem spells_htmlTag : (openTag "html").Spells before cs after kept ↔
    ∃ n attrs, cs = '<' :: (n ++ (attrs ++ ['>'])) ∧
      List.Forall₂ (fun x y => sameFold x y = true) "html".toList n ∧ '>' ∉ attrs ∧
      (∀ y ∈ attrs.head?, isBlank y = true) ∧
      (attrs = [] ∧ kept = [] ∨ attrs ≠ [] ∧ kept = [(1, attrs)]) := by
  constructor
  · rintro ⟨_, _, _, _, rfl, rfl, ⟨_, attrs, _, _, rfl, rfl, opening, inner⟩, bracket⟩
    obtain ⟨rfl, rfl⟩ := spells_text.1 bracket
    obtain ⟨n, rfl, like, rfl⟩ := spells_opening.1 opening
    refine ⟨n, attrs, by simp, like, ?_⟩
    obtain ⟨rfl, rfl⟩ | ⟨⟨x, attrs, rfl, blank, closed⟩, rfl⟩ := spells_attributes.1 inner
    · exact ⟨by simp, by simp, .inl ⟨rfl, rfl⟩⟩
    · refine ⟨?_, by simpa using blank, .inr ⟨by simp, rfl⟩⟩
      rw [List.mem_cons, not_or]
      refine ⟨?_, closed⟩
      rintro rfl
      cases blank
  · rintro ⟨n, attrs, rfl, like, closed, blank, kept⟩
    refine ⟨'<' :: (n ++ attrs), ['>'], _, [], by simp, (List.append_nil _).symm, ?_,
      spells_text.2 ⟨rfl, rfl⟩⟩
    refine ⟨'<' :: n, attrs, [], _, by simp, rfl, spells_opening.2 ⟨n, rfl, like, rfl⟩, ?_⟩
    rw [spells_attributes]
    refine kept.imp_right fun ⟨written, kept⟩ => ?_
    obtain ⟨x, attrs, rfl⟩ := List.exists_cons_of_ne_nil written
    exact ⟨⟨x, attrs, rfl, blank x rfl, fun mem => closed (List.mem_cons_of_mem _ mem)⟩, kept⟩

/-- The attributes are what the fix keeps of the tag, also if there are none. -/
theorem groupChars_htmlTag {tag : Hit} {attrs : Text}
    (kept : attrs = [] ∧ keptTexts tag.groups = [] ∨ attrs ≠ [] ∧ keptTexts tag.groups = [(1, attrs)]) :
    tag.groupChars 1 = attrs := by
  rw [Hit.groupChars_eq]
  rcases kept with ⟨rfl, kept⟩ | ⟨-, kept⟩ <;> rw [kept] <;> rfl

theorem matchAt_htmlTag_eq_none_iff (before v : Text) :
    (openTag "html").matchAt (between before v) = none ↔ ¬ HtmlAhead v := by
  rw [matchAt_between_eq_none_iff]
  constructor
  · rintro silent ⟨n, rest, rfl, like, apart, body, r, rfl, absent⟩
    refine silent ('<' :: (n ++ (body ++ ['>']))) r (if body = [] then [] else [(1, body)]) (by simp) ?_
    refine spells_htmlTag.2 ⟨n, body, rfl, like, absent, ?_, ?_⟩
    · intro y first
      have head := apart y (by rw [List.head?_append, first]; rfl)
      refine head.resolve_right ?_
      rintro rfl
      exact absent (List.mem_of_mem_head? first)
    · by_cases none : body = [] <;> simp [none]
  · rintro none cs after kept rfl spelled
    obtain ⟨n, attrs, rfl, like, closed, blank, -⟩ := spells_htmlTag.1 spelled
    refine none ⟨n, attrs ++ (['>'] ++ after), by simp, like, ?_, attrs, after, rfl, closed⟩
    cases attrs with
    | nil => simp
    | cons x attrs => exact fun y first => .inl (blank y first)

theorem letters_html (like : List.Forall₂ (fun x y => sameFold x y = true) "html".toList n) :
    ∀ y ∈ n, isWordChar y = true := by
  intro y mem
  obtain ⟨x, among, same⟩ := exists_partner_of_mem like mem
  have letters : "html".toList ⊆ voidNames.flatMap String.toList := by decide
  exact isWordChar_of_sameFold (letters among) same

/-- At a tag, the fix takes just this tag. -/
theorem exists_matchAt_htmlTag {attrs : Text} (before rest : Text)
    (like : List.Forall₂ (fun x y => sameFold x y = true) "html".toList n) (closed : '>' ∉ attrs)
    (blank : ∀ y ∈ attrs.head?, isBlank y = true) :
    ∃ tag, (openTag "html").matchAt (between before ('<' :: (n ++ (attrs ++ ['>'])) ++ rest)) = some tag ∧
      tag.chars = '<' :: (n ++ (attrs ++ ['>'])) ∧ tag.groupChars 1 = attrs := by
  cases found : (openTag "html").matchAt (between before ('<' :: (n ++ (attrs ++ ['>'])) ++ rest)) with
  | none =>
    rw [matchAt_between_eq_none_iff] at found
    refine absurd (spells_htmlTag.2 ⟨n, attrs, rfl, like, closed, blank, ?_⟩)
      (found _ rest (if attrs = [] then [] else [(1, attrs)]) rfl)
    by_cases none : attrs = [] <;> simp [none]
  | some tag =>
    obtain ⟨after, split, -, spelled⟩ := exists_chars_of_matchAt found
    obtain ⟨n', attrs', chars, like', closed', -, kept⟩ := spells_htmlTag.1 spelled
    have unclosed {n attrs : Text} (like : List.Forall₂ (fun x y => sameFold x y = true) "html".toList n)
        (closed : '>' ∉ attrs) : '>' ∉ n ++ attrs := by
      have plain := not_mem_of_isWordChar (letters_html like) (show isWordChar '>' = false by decide)
      simp [plain, closed]
    have same : (n ++ attrs) ++ '>' :: rest = (n' ++ attrs') ++ '>' :: after := by
      rw [chars] at split
      simpa using split
    obtain ⟨parts, -⟩ := closing_unique same (unclosed like closed) (unclosed like' closed')
    obtain ⟨rfl, rfl⟩ := List.append_inj parts (like.length_eq.symm.trans like'.length_eq)
    exact ⟨tag, rfl, chars, groupChars_htmlTag kept⟩

end

/-- What the fix does to a text whose html tag has no language. -/
theorem find_addHtmlLang {t : Text} {tag : Hit} (found : (openTag "html").find t = some tag)
    (missing : Fix.langAttribute.occurs (tag.groupChars 1) = false) :
    ∃ tag', (openTag "html").find (Fix.addHtmlLang t) = some tag' ∧
      tag'.groupChars 1 = " lang=\"en\"" ++ tag.groupChars 1 := by
  have moves : (openTag "html").isSkippable = false := rfl
  obtain ⟨u, rest, split, silent, here⟩ := (find_eq_some_iff moves).1 found
  have whole := stop_of_matchAt here
  obtain ⟨_, -, -, spelled⟩ := exists_chars_of_matchAt here
  obtain ⟨n, attrs, chars, like, closed, blank, kept⟩ := spells_htmlTag.1 spelled
  have first := groupChars_htmlTag kept
  have plain : '>' ∉ " lang=\"en\"" ++ attrs := by simp [closed]
  have same : List.Forall₂ (fun x y => sameFold x y = true) "html".toList "html".toList :=
    List.forall₂_same.2 fun x _ => sameFold_self x
  obtain ⟨tag', found', chars', first'⟩ := exists_matchAt_htmlTag u rest same plain (by simp; decide)
  refine ⟨tag', (find_eq_some_iff moves).2 ⟨u, rest, ?_, ?_, by rwa [chars']⟩, by rw [first', first]⟩
  · have written : Fix.addHtmlLang t = t.take (tag.offset - 0) ++
        ("<html lang=\"en\"" ++ tag.groupChars 1 ++ ">" ++ tag.whole.stop.ahead) := by
      rw [Fix.addHtmlLang, found]
      simp only [missing]
      rfl
    have start : tag.offset - 0 = u.length := by
      rw [Hit.offset, whole]
      rfl
    rw [written, start, split, List.take_left, chars', first, whole]
    simp [between]
  · rw [silentIn_iff matchAt_htmlTag_eq_none_iff] at silent ⊢
    rintro a b rfl some ⟨n', rest', begun, like', apart, closing⟩
    rw [chars', List.cons_append] at begun
    have unsigned := not_mem_of_isWordChar (letters_html like') (show isWordChar '<' = false by decide)
    obtain ⟨rest'', begun', apart', closing'⟩ := exists_rest_of_bracket some unsigned begun apart closing
      (show '>' ∈ n ++ (attrs ++ ['>']) ++ rest by simp)
    refine silent a b rfl some ?_
    rw [chars, List.cons_append]
    exact ⟨n', rest'', begun', like', apart', closing'⟩

/-- Behind the fix the first html tag gives a language. -/
theorem language_addHtmlLang {t : Text} {tag : Hit}
    (found : (openTag "html").find (Fix.addHtmlLang t) = some tag) :
    Fix.langAttribute.occurs (tag.groupChars 1) = true := by
  cases first : (openTag "html").find t with
  | none =>
    rw [Fix.addHtmlLang, first] at found
    cases first.symm.trans found
  | some tag' =>
    cases given : Fix.langAttribute.occurs (tag'.groupChars 1) with
    | true =>
      rw [Fix.addHtmlLang, first] at found
      simp only [given, if_true] at found
      obtain rfl := Option.some.inj (first.symm.trans found)
      exact given
    | false =>
      obtain ⟨tag'', found', attributes⟩ := find_addHtmlLang first given
      obtain rfl := Option.some.inj (found.symm.trans found')
      rw [attributes]
      exact @occurs_attribute "lang" [] _ (by decide) (by decide)

theorem addHtmlLang_idem (t : Text) : Fix.addHtmlLang (Fix.addHtmlLang t) = Fix.addHtmlLang t := by
  cases found : (openTag "html").find (Fix.addHtmlLang t) with
  | none => conv_lhs => rw [Fix.addHtmlLang, found]
  | some tag =>
    conv_lhs => rw [Fix.addHtmlLang, found]
    simp only [language_addHtmlLang found, if_true]

/-- One pass of the two fixes is enough. Behind it the first html tag gives a language, and every image
    a text alternative; the images stand where they stood, between the same texts, and those that gave
    one before are as they were. -/
theorem alternatives_and_language_settle [Engine] (fileName code : String) :
    Settles .addHtmlLang fileName code (fun fixed =>
      ∀ tag, (openTag "html").find fixed = some tag →
        Fix.langAttribute.occurs (tag.groupChars 1) = true) ∧
    Settles .addAltAttributes fileName code fun fixed =>
      (Fix.looseTag "img").gaps fixed = (Fix.looseTag "img").gaps (Text.of code) ∧
      List.Forall₂ (fun tag tag' : Hit =>
          Fix.spacedAltAttribute.occurs (tag.groupChars 1) = true → tag'.chars = tag.chars)
        ((Fix.looseTag "img").findAll (Text.of code)) ((Fix.looseTag "img").findAll fixed) ∧
      ∀ tag ∈ (Fix.looseTag "img").findAll fixed,
        Fix.spacedAltAttribute.occurs (tag.groupChars 1) = true := by
  have described {t : Text} {tag : Hit} (mem : tag ∈ (Fix.looseTag "img").findAll t) :
      Fix.spacedAltAttribute.occurs (tag.groupChars 1) = describes tag.chars := by
    rw [describes, groupChars_looseTag ((Fix.looseTag "img").keeps_of_mem_findAll mem).1]
  constructor
  · exact .of_edit Fix.addHtmlLang (fun _ => rfl) (fun _ => language_addHtmlLang) (addHtmlLang_idem _)
  · refine .of_edit Fix.addAltAttributes (fun _ => rfl) ?_ (addAltAttributes_idem _)
    obtain ⟨gaps, pairs, all⟩ := forall_describes_addAltAttributes (Text.of code)
    refine ⟨gaps, ?_, fun tag mem => by rw [described mem]; exact all tag mem⟩
    have both := (List.forall₂_and_left _ _).2 ⟨fun tag mem => described mem, pairs⟩
    exact both.imp fun tag tag' h given => h.2 (by rwa [← h.1])

end SourceAudit
