/-
Module: SourceAudit.Proofs.Markup.Kinds
Layer: Proofs
Purpose: How grave the findings of the checks of markup are. For each group of checks it is said by which
  patterns of the document this is settled, so two documents that agree on these patterns have findings
  of the same kinds.
Main exports: kindsOfChecks_map, kinds_checkStructure, kinds_checkMeta, kinds_checkDeprecated,
  AtBracket, isSome_blockInParagraph?_congr, kinds_checkParagraphs, kinds_checkHeadings,
  forall₂_closableTags, forall₂_labelledInputs, kinds_checkLabels, seeksLabels_congr, SameTags,
  SameTags.kinds_eq
-/
import SourceAudit.Proofs.Markup.Tags
import SourceAudit.Proofs.Pattern.Likeness
import SourceAudit.Proofs.Report.FamilyGravity

namespace SourceAudit

open Markup Pattern Html

/-- Findings of one kind, as many as there are members. -/
theorem kindsOfChecks_map {α β : Type} {as : List α} {bs : List β} {f : α → Check} {g : β → Check}
    (kind : FindingKind) (left : ∀ a, (f a).finding.kind = kind) (right : ∀ b, (g b).finding.kind = kind)
    (same : as.length = bs.length) : kindsOfChecks (as.map f) = kindsOfChecks (bs.map g) := by
  have all {γ : Type} (xs : List γ) (h : γ → Check) (k : ∀ x, (h x).finding.kind = kind) :
      kindsOfChecks (xs.map h) = List.replicate xs.length kind := by
    rw [kindsOfChecks, List.map_map, ← List.map_const']
    exact List.map_congr_left fun x _ => k x
  rw [all as f left, all bs g right, same]

theorem kinds_checkStructure (html : Text) : kindsOfChecks (checkStructure html) =
    (if (openTag "html").occurs html then (if htmlLang.occurs html then [] else [.warning])
      else [.error]) ++
    (if (openTag "head").occurs html then [] else [.error]) ++
    (if titleElement.occurs html then [] else [.error]) ++
    (if (openTag "body").occurs html then [] else [.error]) := by
  have root : kindsOfChecks (checkRoot html) =
      if (openTag "html").occurs html then (if htmlLang.occurs html then [] else [.warning])
      else [.error] := by
    have seen : (openTag "html").occurs html = ((openTag "html").find html).isSome := rfl
    rw [checkRoot, seen]
    cases (openTag "html").find html with
    | none => rfl
    | some hit =>
      dsimp only
      split <;> rfl
  rw [checkStructure, kindsOfChecks, List.map_append, List.map_append, List.map_append,
    ← kindsOfChecks, root, apply_ite (List.map _), apply_ite (List.map _), apply_ite (List.map _)]
  rfl

theorem kinds_checkMeta (html : Text) : kindsOfChecks (checkMeta html) =
    (if charsetMeta.occurs html then [] else [.error]) ++
      (if viewportMeta.occurs html then [] else [.warning]) := by
  rw [checkMeta, kindsOfChecks, List.map_append, apply_ite (List.map _), apply_ite (List.map _)]
  rfl

theorem kinds_checkDeprecated (html : Text) : kindsOfChecks (checkDeprecated html) =
    deprecatedTags.flatMap fun tag =>
      if (anyCase ("<" ++ tag) ++ wordEdge).occurs html then [.error] else [] := by
  rw [checkDeprecated, kindsOfChecks, List.map_flatMap]
  congr
  funext tag
  rw [occurs]
  cases (anyCase ("<" ++ tag) ++ wordEdge).find html <;> rfl

/-- A place right before an opening bracket. -/
def AtBracket (c : Cursor) : Prop := ∃ rest, c.ahead = '<' :: rest

theorem atBracket_of_passes_blockTag {c d : Cursor} (way : blockTag.Passes c d) : AtBracket c := by
  obtain ⟨_, ⟨_, bracket, _⟩, _⟩ := way
  exact ⟨_, (passes_text.1 bracket).1⟩

theorem atBracket_of_passes_closeTag {tag : String} {c d : Cursor} (way : (closeTag tag).Passes c d) :
    AtBracket c := by
  obtain ⟨_, ⟨_, name, _⟩, _⟩ := way
  have split : ("</" ++ tag).toList = '<' :: '/' :: tag.toList := by rw [String.toList_append]; rfl
  obtain ⟨xs, like, moves⟩ := passes_anyCase.1 name
  rw [split] at like
  obtain ⟨y, xs, first, -, rfl⟩ := List.forall₂_cons_left_iff.1 like
  obtain rfl := eq_of_sameFold_sign (by decide) first
  exact ⟨_, moves.1⟩

/-- Whether a paragraph that is open at a place has a block in it depends on the order in which the next
    block and the next end of a paragraph stand. -/
theorem isSome_blockInParagraph?_congr {R : Cursor → Cursor → Prop} {t t' : Text} {c c' : Cursor}
    (place : c.IsIn t)
    (order : ∀ {d d' e e'}, R d d' → R e e' → AtBracket d → AtBracket e →
      (d'.offset < e'.offset ↔ d.offset < e.offset))
    (blocks : Option.Rel (Hit.Alike R) ((nextBlock.search t).hitAt c) ((nextBlock.search t').hitAt c'))
    (ends : Option.Rel (Hit.Alike R) ((nextParagraphEnd.search t).hitAt c)
      ((nextParagraphEnd.search t').hitAt c')) :
    (blockInParagraph? (nextBlock.search t') (nextParagraphEnd.search t') c').isSome =
      (blockInParagraph? (nextBlock.search t) (nextParagraphEnd.search t) c).isSome := by
  have starts {p body : Pattern} (bodies : p.bodies 2 = [body])
      (bracket : ∀ {d e}, body.Passes d e → AtBracket d) {hit : Hit} {s : Span}
      (found : (p.search t).hitAt c = some hit) (kept : hit.group? 2 = some s) : AtBracket s.start := by
    obtain ⟨q, mem, way⟩ :=
      (p.hitAt_eq_some place found).2.1.exists_passes (Hit.mem_groups_of_group? kept)
    rw [bodies, List.mem_singleton] at mem
    subst mem
    exact bracket way
  have inside : ∀ start start', R start start' → AtBracket start →
      isInParagraph (nextParagraphEnd.search t') c' start' =
        isInParagraph (nextParagraphEnd.search t) c start := by
    intro start start' here bracket
    rw [isInParagraph, isInParagraph]
    revert ends
    cases found : (nextParagraphEnd.search t).hitAt c <;>
      cases (nextParagraphEnd.search t').hitAt c' <;> rintro ⟨⟩
    · simp only [Option.bind_none]
    · rename_i close close' alike
      have group := alike.group? 2
      simp only [Option.bind_some]
      revert group
      cases kept : close.group? 2 <;> cases close'.group? 2 <;> rintro ⟨⟩
      · simp only
      · rename_i span span' both
        simp only [order here both.1 bracket (starts rfl atBracket_of_passes_closeTag found kept)]
  rw [blockInParagraph?, blockInParagraph?]
  revert blocks
  cases block : (nextBlock.search t).hitAt c <;> cases (nextBlock.search t').hitAt c' <;> rintro ⟨⟩
  · simp only [Option.bind_eq_bind, Option.bind_none]
  · rename_i found found' alike
    have group := alike.group? 2
    simp only [Option.bind_eq_bind, Option.bind_some]
    revert group
    cases kept : found.group? 2 <;> cases found'.group? 2 <;> rintro ⟨⟩
    · simp only [Option.bind_none]
    · rename_i both
      have bracket := starts rfl atBracket_of_passes_blockTag block kept
      simp only [Option.bind_some, inside _ _ both.1 bracket]
      split <;> rfl

theorem kinds_checkParagraphs (html : Text) : kindsOfChecks (checkParagraphs html) =
    ((openTag "p").findAll html).flatMap fun hit =>
      if (blockInParagraph? (nextBlock.search html) (nextParagraphEnd.search html)
        hit.whole.stop).isSome then [.error] else [] := by
  rw [checkParagraphs, kindsOfChecks, List.map_flatMap]
  congr
  funext hit
  cases blockInParagraph? (nextBlock.search html) (nextParagraphEnd.search html) hit.whole.stop <;> rfl

theorem kinds_checkHeadings (html : Text) : kindsOfChecks (checkHeadings html) =
    if heading.occurs html = true ∧ (tagNamed "h1").count html ≠ 1 then [.warning] else [] := by
  rw [checkHeadings]
  cases heading.occurs html with
  | false => rfl
  | true =>
    rcases (tagNamed "h1").count html with _ | _ | n
    · rfl
    · rfl
    · simp [kindsOfChecks, Check.manual]

/-- The names of the tags that have to be closed depend on the names of the tags only. -/
theorem forall₂_closableTags {hits hits' : List Hit} {Q : Text → Prop}
    (h : List.Forall₂ (fun hit hit' => hit'.groupChars 1 = hit.groupChars 1 ∧ Q (hit.groupChars 1).lower)
      hits hits') (seen : List Text) :
    List.Forall₂ (fun a b => a.1 = b.1 ∧ Q a.1) (closableTags seen hits) (closableTags seen hits') := by
  induction h generalizing seen with
  | nil => exact .nil
  | @cons hit hit' _ _ here _ ih =>
    rw [closableTags, closableTags, here.1]
    split
    · exact ih seen
    · exact .cons ⟨rfl, here.2⟩ (ih _)

/-- The identifiers that need a label depend on the characters of the inputs only. -/
theorem forall₂_labelledInputs {html html' : Text}
    (h : List.Forall₂ (fun hit hit' => hit'.chars = hit.chars) ((tagNamed "input").findAll html)
      ((tagNamed "input").findAll html')) :
    List.Forall₂ (fun a b => a.1 = b.1) (labelledInputs html) (labelledInputs html') := by
  rw [labelledInputs, labelledInputs]
  refine List.rel_filterMap (fun input input' same => ?_) h
  rw [same]
  cases labelledId? input.chars with
  | none => exact .none
  | some id => exact .some rfl

/-- An identified input is reported exactly if no label for its identifier occurs. -/
theorem kinds_unlabelled (html : Text) : kindsOfChecks (unlabelled html (labelledInputs html)) =
    List.replicate
      ((labelledInputs html).filter fun input => !(labelFor input.1).occurs html).length .warning := by
  have missing : ∀ input ∈ labelledInputs html,
      ((keepOnce ((labelledInputs html).map Prod.fst)).filter
        fun id => !(labelFor id).occurs html).contains input.1 = !(labelFor input.1).occurs html := by
    intro input mem
    have named : input.1 ∈ keepOnce ((labelledInputs html).map Prod.fst) :=
      mem_keepOnce.2 (List.mem_map_of_mem mem)
    rw [Bool.eq_iff_iff, List.contains_iff_mem, List.mem_filter, and_iff_right named]
  rw [unlabelled, kindsOfChecks, List.map_map, ← List.map_const']
  simp only []
  rw [List.filter_congr missing]
  rfl

theorem kinds_checkLabels [Engine] (html : Text) : kindsOfChecks (isolate (checkLabels html)) =
    if seeksLabels (labelledInputs html) then
      List.replicate
        ((labelledInputs html).filter fun input => !(labelFor input.1).occurs html).length .warning
    else [] := by
  rw [checkLabels, isolate_ite, ← kinds_unlabelled]
  split <;> rfl

/-- The engine looks for the same labels where the identifiers are the same. -/
theorem seeksLabels_congr [Engine] {inputs inputs' : List (Text × Hit)}
    (same : List.Forall₂ (fun a b => a.1 = b.1) inputs inputs') :
    seeksLabels inputs' = seeksLabels inputs :=
  (all_eq_of_forall₂ (same.imp fun _ _ here => congrArg (fun id => Engine.accepts (.label id)) here)).symm

/-- Documents with the same identifiers, of which the same have labels, have as many findings. -/
theorem kinds_checkLabels_congr [Engine] {html html' : Text}
    (inputs : List.Forall₂ (fun a b => a.1 = b.1) (labelledInputs html) (labelledInputs html'))
    (labels : ∀ id, (labelFor id).occurs html' = (labelFor id).occurs html) :
    kindsOfChecks (isolate (checkLabels html')) = kindsOfChecks (isolate (checkLabels html)) := by
  rw [kinds_checkLabels, kinds_checkLabels, seeksLabels_congr inputs]
  simp only [labels]
  rw [length_filter_eq (inputs.imp fun a b same => by rw [same])]

/-- Documents with the same names of tags, of which the same are balanced, have as many findings. -/
theorem kinds_checkBalance_congr [Engine] {html html' : Text}
    (tags : List.Forall₂ (fun a b => a.1 = b.1 ∧ isUnbalanced html' a.1 = isUnbalanced html a.1)
      (closableTags [] (anyOpenTag.findAll html)) (closableTags [] (anyOpenTag.findAll html'))) :
    kindsOfChecks (isolate (checkBalance html')) = kindsOfChecks (isolate (checkBalance html)) := by
  rw [checkBalance, checkBalance, isolate_ite, isolate_ite,
    all_eq_of_forall₂ (tags.imp fun _ _ here => by rw [here.1] : List.Forall₂
      (fun a b => seeksTags a.1 = seeksTags b.1) _ _)]
  split
  · refine kindsOfChecks_map .error (fun _ => rfl) (fun _ => rfl) ?_
    refine (length_filter_eq (tags.imp fun a b here => ?_)).symm
    exact here.2.symm.trans (congrArg (isUnbalanced html') here.1)
  · rfl

/-! ### Documents with the same tags -/

/-- The patterns that the checks look for anywhere in a document. -/
def soughtPatterns : List Pattern :=
  [openTag "html", htmlLang, openTag "head", titleElement, openTag "body", charsetMeta, viewportMeta,
    heading] ++ deprecatedTags.map fun tag => anyCase ("<" ++ tag) ++ wordEdge

/-- The patterns of the tags that the checks go through one by one. -/
def tagPatterns : List Pattern := [tagNamed "img", tagNamed "h1", openTag "a", slashedVoid]

/-- The patterns that the checks look for in a single tag. -/
def testPatterns : List Pattern := [altAttribute, anyCase "href=", emptyTarget]

/-- Two documents with the same tags, as far as the checks look at single tags. -/
structure SameTags (html html' : Text) : Prop where
  sought : ∀ p ∈ soughtPatterns, p.occurs html' = p.occurs html
  listed : ∀ p ∈ tagPatterns,
    List.Forall₂ (fun hit hit' => ∀ q ∈ testPatterns, q.occurs hit'.chars = q.occurs hit.chars)
      (p.findAll html) (p.findAll html')

/-- The checks of single tags have findings of the same kinds on documents with the same tags. -/
theorem SameTags.kinds_eq {html html' : Text} (same : SameTags html html') {check : Text → List Check}
    (mem : check ∈ [checkStructure, checkMeta, checkImages, checkDeprecated, checkHeadings, checkLinks,
      checkVoidSlash]) : kindsOfChecks (check html') = kindsOfChecks (check html) := by
  have sought := same.sought
  have listed := same.listed
  simp only [soughtPatterns, List.forall_mem_append, List.forall_mem_cons, List.forall_mem_map] at sought
  simp only [tagPatterns, List.forall_mem_cons] at listed
  obtain ⟨⟨root, language, head, title, body, charset, viewport, headings, -⟩, deprecated⟩ := sought
  obtain ⟨images, ranks, links, slashes, -⟩ := listed
  have tested {p : Pattern} (test : Text → Bool) (tags : List.Forall₂
      (fun hit hit' => ∀ q ∈ testPatterns, q.occurs hit'.chars = q.occurs hit.chars)
      (p.findAll html) (p.findAll html'))
      (settled : ∀ {s s'}, (∀ q ∈ testPatterns, q.occurs s' = q.occurs s) → test s' = test s) :
      ((p.findAll html').filter fun hit => test hit.chars).length =
        ((p.findAll html).filter fun hit => test hit.chars).length := by
    refine (length_filter_eq (tags.imp ?_)).symm
    exact fun _ _ here => (settled here).symm
  simp only [List.mem_cons, List.not_mem_nil, or_false] at mem
  rcases mem with rfl | rfl | rfl | rfl | rfl | rfl | rfl
  · rw [kinds_checkStructure, kinds_checkStructure, root, language, head, title, body]
  · rw [kinds_checkMeta, kinds_checkMeta, charset, viewport]
  · exact kindsOfChecks_map .warning (fun _ => rfl) (fun _ => rfl)
      (tested (fun chars => !altAttribute.occurs chars) images fun here => by
        rw [here altAttribute (by simp [testPatterns])])
  · rw [kinds_checkDeprecated, kinds_checkDeprecated]
    exact List.flatMap_congr fun tag named => by rw [deprecated tag named]
  · have count : (tagNamed "h1").count html' = (tagNamed "h1").count html := ranks.length_eq.symm
    rw [kinds_checkHeadings, kinds_checkHeadings, headings, count]
  · exact kindsOfChecks_map .warning (fun _ => rfl) (fun _ => rfl)
      (tested (fun chars => !(anyCase "href=").occurs chars || emptyTarget.occurs chars) links fun here => by
        rw [here (anyCase "href=") (by simp [testPatterns]), here emptyTarget (by simp [testPatterns])])
  · exact kindsOfChecks_map .info (fun _ => rfl) (fun _ => rfl) slashes.length_eq.symm

end SourceAudit
