/-
Module: SourceAudit.Proofs.Debugging.Markup
Layer: Proofs
Purpose: A document in front of a debug statement. All checks but one have the same findings there, as no
  tag can end in the statement. Only a label can: its identifier may run on into the statement up to one
  of the quotes there. So a warning is lost exactly for each input whose label the statement completes,
  and the identifier of such an input ends as the statement starts.
Main exports: sameTags_debugStatement, completedLabels, kinds_checkLabels_debugStatement,
  exists_suffix_of_mem_completedLabels, count_checks_debugStatement
-/
import SourceAudit.Proofs.Debugging.Statement
import SourceAudit.Proofs.Markup.Kinds
import SourceAudit.Proofs.Text.BlankCase

namespace SourceAudit

open Markup Pattern Html

/-! ### The checks that stay as they are -/

/-- A document type is not in the statement, and does not run into it. -/
theorem startsWithDoctype_debugStatement (t : Text) :
    startsWithDoctype (t ++ debugStatement) = startsWithDoctype t := by
  rw [startsWithDoctype, startsWithDoctype, Text.trimStart, Text.trimStart, List.dropWhile_append]
  split
  · rename_i blank
    rw [List.isEmpty_iff.1 blank]
    decide
  · have feed : ∀ x ∈ debugStatement.head?, isBlank x = true := by
      rintro x ⟨⟩
      rfl
    exact startsWith_lower_append _ feed (List.forall_iff_forall_mem.1 (by decide))

theorem kinds_checkDoctype_debugStatement (t : Text) :
    kindsOfChecks (checkDoctype (t ++ debugStatement)) = kindsOfChecks (checkDoctype t) := by
  rw [checkDoctype, checkDoctype, startsWithDoctype_debugStatement]

/-- The document in front of the statement has the same tags. -/
theorem sameTags_debugStatement (t : Text) : SameTags t (t ++ debugStatement) where
  sought p mem := by
    have all : ∀ p ∈ soughtPatterns, p.isWordEdged = true ∧ p.isStill debugStatement = true := by
      decide
    obtain ⟨edges, still⟩ := all p mem
    exact occurs_debugStatement edges still t
  listed p mem := by
    have all : ∀ p ∈ tagPatterns, p.isWordEdged = true ∧ p.isStill debugStatement = true := by
      decide
    obtain ⟨edges, still⟩ := all p mem
    exact (findAll_debugStatement edges still t).imp fun _ _ alike q _ => by rw [Hit.chars_back alike]

theorem kinds_checkParagraphs_debugStatement (t : Text) :
    kindsOfChecks (checkParagraphs (t ++ debugStatement)) = kindsOfChecks (checkParagraphs t) := by
  have hits := findAll_debugStatement (p := openTag "p") rfl (by decide) t
  have blocks : nextBlock.Stays debugStatement := stays_of_isStill (by decide)
  have ends : nextParagraphEnd.Stays debugStatement := stays_of_isStill (by decide)
  rw [kinds_checkParagraphs, kinds_checkParagraphs, List.flatMap, List.flatMap]
  refine congrArg List.flatten (map_eq_of_forall₂ (hits.imp ?_)).symm
  intro hit hit' alike
  obtain ⟨place, stop⟩ := alike.whole.2
  rw [stop, isSome_blockInParagraph?_congr (R := SamePlace t debugStatement) place ?_
    (hitAt_back startsWithFeed_debugStatement rfl blocks place)
    (hitAt_back startsWithFeed_debugStatement rfl ends place)]
  rintro d _ e _ ⟨-, rfl⟩ ⟨-, rfl⟩ - -
  exact Iff.rfl

/-- A tag of any name ends with a bracket, and the statement has none. -/
theorem isUnbalanced_debugStatement (t tag : Text) :
    isUnbalanced (t ++ debugStatement) tag = isUnbalanced t tag := by
  have closed : (text ">").Stays debugStatement := stays_of_isStill (by decide)
  rw [isUnbalanced, isUnbalanced, count_back startsWithFeed_debugStatement rfl (closed.seq _),
    count_back startsWithFeed_debugStatement rfl (closed.seq _)]

theorem kinds_checkBalance_debugStatement [Engine] (t : Text) :
    kindsOfChecks (isolate (checkBalance (t ++ debugStatement))) =
      kindsOfChecks (isolate (checkBalance t)) := by
  have hits := findAll_debugStatement (p := anyOpenTag) rfl (by decide) t
  have tags := forall₂_closableTags (Q := fun _ => True)
    (hits.imp fun hit hit' alike => ⟨Hit.groupChars_back alike 1, trivial⟩) []
  exact kinds_checkBalance_congr (tags.imp fun a _ here => ⟨here.1, isUnbalanced_debugStatement t a.1⟩)

/-- Inline styles are worth a suggestion at most. -/
theorem not_mem_kinds_checkInlineStyles (t : Text) {kind : FindingKind} (other : kind ≠ .suggestion) :
    kind ∉ kindsOfChecks (checkInlineStyles t) := by
  rw [checkInlineStyles]
  split
  · exact fun mem => other (List.mem_singleton.1 mem)
  · exact List.not_mem_nil

/-! ### The labels -/

/-- The identified inputs whose label is completed by the statement, where labels are looked for. -/
def completedLabels [Engine] (t : Text) : List (Text × Hit) :=
  if seeksLabels (labelledInputs t) then
    (labelledInputs t).filter fun input =>
      !(labelFor input.1).occurs t && (labelFor input.1).occurs (t ++ debugStatement)
  else []

/-- The statement leaves the identifiers that need a label as they are. -/
theorem labelledInputs_debugStatement (t : Text) : List.Forall₂ (fun a b => a.1 = b.1)
    (labelledInputs t) (labelledInputs (t ++ debugStatement)) := by
  have hits := findAll_debugStatement (p := tagNamed "input") rfl (by decide) t
  exact forall₂_labelledInputs (hits.imp fun _ _ => Hit.chars_back)

/-- The statement takes those inputs off the list of what is missing whose label occurs with it, and not
    without. -/
theorem length_missing_debugStatement (t : Text) :
    ((labelledInputs t).filter fun input => !(labelFor input.1).occurs t).length =
      ((labelledInputs (t ++ debugStatement)).filter
        fun input => !(labelFor input.1).occurs (t ++ debugStatement)).length +
      ((labelledInputs t).filter fun input =>
        !(labelFor input.1).occurs t && (labelFor input.1).occurs (t ++ debugStatement)).length := by
  have behind : ((labelledInputs (t ++ debugStatement)).filter
        fun input => !(labelFor input.1).occurs (t ++ debugStatement)).length =
      ((labelledInputs t).filter
        fun input => !(labelFor input.1).occurs (t ++ debugStatement)).length :=
    (length_filter_eq ((labelledInputs_debugStatement t).imp fun a b same => by rw [same])).symm
  have kept (id : Text) (found : (labelFor id).occurs t = true) :
      (labelFor id).occurs (t ++ debugStatement) = true := occurs_of_occurs rfl rfl found
  rw [behind, List.length_eq_length_filter_add fun input =>
    !(labelFor input.1).occurs (t ++ debugStatement), List.filter_filter, List.filter_filter]
  congr 2
  · refine List.filter_congr fun input _ => ?_
    cases found : (labelFor input.1).occurs t with
    | true => rw [kept _ found]; rfl
    | false => rw [Bool.not_false, Bool.and_true]
  · refine List.filter_congr fun input _ => ?_
    rw [Bool.not_not, Bool.and_comm]

/-- A warning is lost for each completed label. -/
theorem kinds_checkLabels_debugStatement [Engine] (t : Text) :
    kindsOfChecks (isolate (checkLabels t)) =
      kindsOfChecks (isolate (checkLabels (t ++ debugStatement))) ++
        List.replicate (completedLabels t).length .warning := by
  rw [kinds_checkLabels, kinds_checkLabels, seeksLabels_congr (labelledInputs_debugStatement t),
    completedLabels]
  split
  · rw [length_missing_debugStatement, List.replicate_add]
  · rfl

/-- An identifier is written between quotes, so it has none. -/
theorem not_mem_of_mem_labelledInputs {t : Text} {input : Text × Hit} (mem : input ∈ labelledInputs t) :
    '\'' ∉ input.1 := by
  obtain ⟨tag, -, named⟩ := List.mem_filterMap.1 mem
  obtain ⟨id, written, rfl⟩ := Option.map_eq_some_iff.1 named
  rw [labelledId?] at written
  split at written
  · cases written
  · obtain ⟨hit, found, rfl⟩ := Option.map_eq_some_iff.1 written
    obtain ⟨-, -, way, -, -⟩ := idAttribute.findFrom_eq_some (Cursor.isIn_start tag.chars) found
    rcases way.groupChars 1 with none | ⟨s, q, body, way, chars⟩
    · rw [none]
      exact List.not_mem_nil
    · have single : q ∈ [many1 (noneOf "\"'")] := body
      obtain rfl := List.mem_singleton.1 single
      obtain ⟨cs, -, all, moves⟩ := passes_most.1 way
      rw [chars, moves.chars]
      intro inside
      exact absurd (all _ inside) (by decide)

/-- A label up to the identifier. -/
def labelOpening : Pattern := anyCase "<label" ++ many (noneOf ">") ++ anyCase "for=" ++ quote

/-- Up to a quote the statement is its start, or has a quote itself. -/
theorem take_debugStatement {j : Nat} {x : Char} {rest : Text} (isQuote : oneOf "'\"" x = true)
    (split : debugStatement.drop j = x :: rest) :
    debugStatement.take j = "\nconsole.log(".toList ∨ '\'' ∈ debugStatement.take j := by
  have all : ∀ j ∈ List.range debugStatement.length,
      (debugStatement.drop j).head?.any (oneOf "'\"") = true →
      debugStatement.take j = "\nconsole.log(".toList ∨ '\'' ∈ debugStatement.take j := by
    decide
  refine all j (List.mem_range.2 ?_) (by rw [split]; exact isQuote)
  by_contra far
  rw [List.drop_eq_nil_of_le (Nat.le_of_not_lt far)] at split
  cases split

/-- A label that is completed by the statement opens in the text, so its identifier ends as the statement
    starts, up to the first quote. -/
theorem exists_suffix_of_mem_completedLabels [Engine] {t : Text} {input : Text × Hit}
    (mem : input ∈ completedLabels t) : ∃ back, back <:+ input.1 ∧
      List.Forall₂ (fun x y => sameFold x y = true) back "\nconsole.log(".toList := by
  rw [completedLabels] at mem
  split at mem
  case isFalse => cases mem
  obtain ⟨listed, new⟩ := List.mem_filter.1 mem
  obtain ⟨absent, found⟩ := (Bool.and_eq_true _ _).mp new
  obtain ⟨c, d, place, way⟩ := (occurs_iff rfl _).1 found
  have beyond : t.length < d.offset := by
    by_contra near
    obtain ⟨e, f, placed, way'⟩ :=
      way.exists_of_inside startsWithFeed_debugStatement rfl place (Nat.le_of_not_lt near)
    rw [(occurs_iff rfl t).2 ⟨e, f, placed, way'⟩] at absent
    cases absent
  obtain ⟨n, ⟨m, opening, ident⟩, closing⟩ := way
  have inside : m.offset ≤ t.length :=
    stays_of_isStill (p := labelOpening) (by decide) place opening
  have place' := (opening.isIn place).1
  obtain ⟨e, placed, rfl⟩ := place'.exists_before inside
  obtain ⟨xs, like, moves⟩ := Cursor.skip_eq_some_iff_forall₂.1 ident
  obtain ⟨x, isQuote, step⟩ := passes_one.1 closing
  have out : t.length ≤ n.offset := by
    have count := step.2.2
    rw [List.length_singleton] at count
    omega
  have ahead := ahead_of_le (moves.isIn place') out
  obtain rfl : e.ahead ++ debugStatement.take (n.offset - t.length) = xs := by
    have whole : e.ahead ++ debugStatement.take (n.offset - t.length) ++
        debugStatement.drop (n.offset - t.length) = xs ++ debugStatement.drop (n.offset - t.length) := by
      rw [List.append_assoc, List.take_append_drop, ← ahead]
      exact moves.1
    exact List.append_cancel_right whole
  rcases take_debugStatement isQuote (ahead.symm.trans step.1) with start | quoted
  · rw [start] at like
    exact ⟨_, List.drop_suffix e.ahead.length _, List.forall₂_drop_append _ _ _ like⟩
  · obtain ⟨y, named, same⟩ := exists_partner_of_mem like (List.mem_append_right _ quoted)
    obtain rfl := eq_of_sameFold (by decide) (by decide) same
    exact absurd named (not_mem_of_mem_labelledInputs listed)

/-! ### All checks -/

/-- In front of the statement a document has the same errors, and a warning less for each completed
    label. -/
theorem count_checks_debugStatement [Engine] (t : Text) :
    (kindsOfChecks (checks (t ++ debugStatement))).count .error =
        (kindsOfChecks (checks t)).count .error ∧
      (kindsOfChecks (checks (t ++ debugStatement))).count .warning + (completedLabels t).length =
        (kindsOfChecks (checks t)).count .warning := by
  have styles (u : Text) {kind : FindingKind} (other : kind ≠ .suggestion) :
      (kindsOfChecks (checkInlineStyles u)).count kind = 0 :=
    List.count_eq_zero.2 (not_mem_kinds_checkInlineStyles u other)
  have errors (n : Nat) : (List.replicate n FindingKind.warning).count .error = 0 :=
    List.count_eq_zero.2 fun mem => nomatch List.eq_of_mem_replicate mem
  have tags := sameTags_debugStatement t
  have labels := kinds_checkLabels_debugStatement t
  simp only [kindsOfChecks_checks, checkGroups, List.flatMap_cons, List.flatMap_nil, Function.comp_apply,
    labels, List.count_append,
    kinds_checkDoctype_debugStatement, tags.kinds_eq (show checkStructure ∈ _ by simp),
    tags.kinds_eq (show checkMeta ∈ _ by simp), tags.kinds_eq (show checkImages ∈ _ by simp),
    tags.kinds_eq (show checkDeprecated ∈ _ by simp), kinds_checkParagraphs_debugStatement,
    tags.kinds_eq (show checkHeadings ∈ _ by simp), kinds_checkBalance_debugStatement,
    tags.kinds_eq (show checkLinks ∈ _ by simp),
    tags.kinds_eq (show checkVoidSlash ∈ _ by simp)]
  constructor
  · simp only [styles _ (show FindingKind.error ≠ .suggestion by decide), errors, Nat.add_zero]
  · simp only [styles _ (show FindingKind.warning ≠ .suggestion by decide), List.count_replicate_self]
    omega

end SourceAudit
