/-
Module: SourceAudit.Proofs.Markup.Labels
Layer: Proofs
Purpose: Labels of a document whose lines are trimmed. An identifier may hold the end of a line, and then
  trimming changes it, in the input and in the label alike. Both stand between quotes, so what becomes of
  them depends on the identifier only, and an input that has a label keeps one. With the other checks a
  trimmed document has no more findings.
Main exports: labelledId?_trimmed, occurs_labelFor_trimmed, html_eased_trimTrailingBlanks
-/
import SourceAudit.Proofs.Markup.LineEnds
import SourceAudit.Proofs.Pattern.Ink

namespace SourceAudit

open Markup Pattern Html

open SourceAudit.Fix (trimTrailingBlanks)

/-! ### Inputs and their identifiers -/

theorem isSolidEnded_append {xs m ys : Text} (some : xs ≠ []) (solid : ∀ x ∈ xs, isBlank x = false)
    (some' : ys ≠ []) (solid' : ∀ y ∈ ys, isBlank y = false) : IsSolidEnded (xs ++ (m ++ ys)) := by
  obtain ⟨x, xs, rfl⟩ := List.exists_cons_of_ne_nil some
  obtain ⟨ys, y, rfl⟩ := ys.eq_nil_or_concat'.resolve_left some'
  exact ⟨⟨x, _, rfl, solid x (by simp)⟩, x :: xs ++ (m ++ ys), y, by simp, solid' y (by simp)⟩

theorem solid_of_quote {q : Char} (quote : oneOf "'\"" q = true) : isBlank q = false := by
  have all : ∀ q ∈ "'\"".toList, isBlank q = false := List.forall_iff_forall_mem.1 (by decide)
  exact all q (List.contains_iff_mem.1 quote)

/-- The text is a word in any case. -/
theorem spells_anyCase {word : String} (solid : word.toList.Forall fun c => isBlank c = false)
    {before cs after : Text} {kept : List (Nat × Text)} (spelled : (anyCase word).Spells before cs after kept) :
    cs.length = word.toList.length ∧ (∀ x ∈ cs, isBlank x = false) ∧ kept = [] :=
  ⟨spelled.1.length_eq.symm, solid_of_sameFold spelled.1 (List.forall_iff_forall_mem.1 solid), spelled.2⟩

theorem isSolidEnded_of_input {before cs after : Text} {kept : List (Nat × Text)}
    (spelled : (tagNamed "input").Spells before cs after kept) : IsSolidEnded cs := by
  obtain ⟨_, _, _, _, rfl, -, ⟨_, m, _, _, rfl, -, ⟨name, _, _, _, rfl, -, named, ⟨⟨-, rfl⟩, -⟩⟩, -⟩, bracket⟩ :=
    spelled
  obtain ⟨long, solid, -⟩ := spells_anyCase (by decide) named
  obtain ⟨rfl, -⟩ := spells_text.1 bracket
  rw [List.append_nil, List.append_assoc]
  refine isSolidEnded_append ?_ solid (by decide) (List.forall_iff_forall_mem.1 (by decide))
  rintro rfl
  cases long

/-- What stands around an identifier has no blanks. -/
theorem exists_of_spells_idAttribute {before cs after : Text} {kept : List (Nat × Text)}
    (spelled : idAttribute.Spells before cs after kept) : ∃ start id q, cs = start ++ (id ++ [q]) ∧
      start.length = 4 ∧ (∀ x ∈ start, isBlank x = false) ∧ isBlank q = false ∧ kept = [(1, id)] := by
  obtain ⟨_, _, _, _, rfl, rfl, ⟨_, id, _, _, rfl, rfl, ⟨_, _, _, _, rfl, rfl, ⟨_, name, _, _, rfl, rfl,
    ⟨⟨-, rfl⟩, rfl⟩, named⟩, ⟨q, quoted, rfl⟩, rfl⟩, ⟨_, ⟨-, rfl⟩, rfl⟩⟩, ⟨q', quoted', rfl⟩, rfl⟩ := spelled
  obtain ⟨long, solid, rfl⟩ := spells_anyCase (by decide) named
  refine ⟨name ++ [q], id, q', by simp, ?_, ?_, solid_of_quote quoted', rfl⟩
  · rw [List.length_append, long]
    rfl
  · exact List.forall_mem_append.2 ⟨solid, List.forall_mem_singleton.2 (solid_of_quote quoted)⟩

theorem isSolidEnded_of_idAttribute {before cs after : Text} {kept : List (Nat × Text)}
    (spelled : idAttribute.Spells before cs after kept) : IsSolidEnded cs := by
  obtain ⟨start, id, q, rfl, long, solid, solid', -⟩ := exists_of_spells_idAttribute spelled
  refine isSolidEnded_append ?_ solid (List.cons_ne_nil q []) (List.forall_mem_singleton.2 solid')
  rintro rfl
  cases long

theorem exists_of_mem_ids {t : Text} {hit : Hit} (mem : hit ∈ idAttribute.findAll t) :
    ∃ start q, hit.chars = start ++ (hit.groupChars 1 ++ [q]) ∧ start.length = 4 ∧
      (∀ x ∈ start, isBlank x = false) ∧ isBlank q = false := by
  obtain ⟨before, after, -, spelled, -⟩ := exists_inkPlace mem
  obtain ⟨start, id, q, chars, long, solid, solid', kept⟩ := exists_of_spells_idAttribute spelled
  have group : hit.groupChars 1 = id := by
    rw [hit.groupChars_eq, kept]
    rfl
  exact ⟨start, q, by rw [group, chars], long, solid, solid'⟩

/-- The identifier of a trimmed input is the identifier with its lines trimmed up to the quote. -/
theorem labelledId?_trimmed (input : Text) :
    labelledId? (trimTrailingBlanks input) = (labelledId? input).map trimFront := by
  have exempt : exemptInput.OverlooksLineEnds := Unmoved.overlooksLineEnds (by decide +kernel)
  have ids : idAttribute.OverlooksLineEnds := Unmoved.overlooksLineEnds (by decide +kernel)
  have named : List.Forall₂ (fun hit hit' => hit'.groupChars 1 = trimFront (hit.groupChars 1))
      (idAttribute.findAll input) (idAttribute.findAll (trimTrailingBlanks input)) := by
    refine (forall₂_mem (ids.forall₂_chars_trimmed isSolidEnded_of_idAttribute input)).imp ?_
    rintro hit hit' ⟨mem, mem', chars⟩
    obtain ⟨start, q, old, long, solid, quoted⟩ := exists_of_mem_ids mem
    obtain ⟨start', q', new, long', -, -⟩ := exists_of_mem_ids mem'
    rw [old, new, trimTrailingBlanks_solid_append solid, trimTrailingBlanks_append_cons _ quoted] at chars
    exact List.append_inj_left' (List.append_inj_right chars (long'.trans long.symm)) rfl
  rw [labelledId?, labelledId?, exempt.occurs_trimmed]
  split
  · rfl
  · rw [find_eq_head?, find_eq_head?]
    revert named
    generalize idAttribute.findAll input = hits
    generalize idAttribute.findAll (trimTrailingBlanks input) = hits'
    rintro (_ | ⟨first, _⟩)
    · rfl
    · exact congrArg some first

theorem forall₂_labelledInputs_trimmed (t : Text) :
    List.Forall₂ (fun a b => b.1 = trimFront a.1) (labelledInputs t) (labelledInputs (trimTrailingBlanks t)) := by
  have inputs : (tagNamed "input").OverlooksLineEnds := Unmoved.overlooksLineEnds (by decide +kernel)
  rw [labelledInputs, labelledInputs]
  refine List.rel_filterMap (fun input input' chars => ?_)
    (inputs.forall₂_chars_trimmed isSolidEnded_of_input t)
  rw [chars, labelledId?_trimmed]
  cases labelledId? input.chars with
  | none => exact .none
  | some id => exact .some rfl

/-! ### Labels -/

/-- A label for an identifier becomes one for the trimmed identifier. -/
theorem occurs_labelFor_trimmed {id t : Text} (found : (labelFor id).occurs t = true) :
    (labelFor (trimFront id)).occurs (trimTrailingBlanks t) = true := by
  rw [occurs_iff_spells rfl] at found ⊢
  obtain ⟨before, _, after, _, rfl, _, _, _, _, rfl, rfl, ⟨_, written, _, _, rfl, rfl, ⟨_, _, _, _, rfl, rfl,
    ⟨_, target, _, _, rfl, rfl, ⟨label, body, _, _, rfl, rfl, opens, ⟨-, inside⟩, rfl⟩, named⟩,
    ⟨q, quoted, rfl⟩, rfl⟩, ⟨like, rfl⟩⟩, ⟨q', quoted', rfl⟩, rfl⟩ := found
  obtain ⟨long, solid, rfl⟩ := spells_anyCase (by decide) opens
  obtain ⟨-, solid', rfl⟩ := spells_anyCase (by decide) named
  have some : label ≠ [] := by
    rintro rfl
    cases long
  have up : ∀ x ∈ target ++ [q], isBlank x = false :=
    List.forall_mem_append.2 ⟨solid', List.forall_mem_singleton.2 (solid_of_quote quoted)⟩
  have down : ∀ x ∈ [q'], isBlank x = false := List.forall_mem_singleton.2 (solid_of_quote quoted')
  have trimmed : trimTrailingBlanks (before ++ (label ++ body ++ target ++ [q] ++ written ++ [q'] ++ after)) =
      trimFront before ++ (label ++ trimFront body ++ target ++ [q] ++ trimFront written ++ [q'] ++
        trimTrailingBlanks after) := by
    have front := trimTrailingBlanks_append_append before some solid
      (body ++ ((target ++ [q]) ++ (written ++ ([q'] ++ after))))
    rw [trimTrailingBlanks_append_append body (by simp) up,
      trimTrailingBlanks_append_append written (List.cons_ne_nil q' []) down] at front
    simpa only [List.append_assoc] using front
  have clear : ∀ x ∈ trimFront body, noneOf ">" x = true :=
    fun x mem => inside x ((trimFront_sublist body).subset mem)
  refine ⟨_, _, _, [], trimmed, _, _, [], [], rfl, rfl, ⟨_, _, [], [], rfl, rfl, ⟨_, _, [], [], rfl, rfl,
    ⟨_, _, [], [], rfl, rfl, ⟨_, _, [], [], rfl, rfl, opens, ⟨Nat.zero_le _, clear⟩, rfl⟩, named⟩,
    ⟨q, quoted, rfl⟩, rfl⟩, forall₂_trimFront eq_or_solid_of_sameFold like, rfl⟩, ⟨q', quoted', rfl⟩, rfl⟩

/-- Trimming takes no label from an input. So no more labels are missing, unless those of the document as
    it was were not looked for. -/
theorem sublist_kinds_checkLabels_trimmed [Engine] {t : Text}
    (sought : seeksLabels (labelledInputs t) = true) :
    (kindsOfChecks (isolate (checkLabels (trimTrailingBlanks t)))).Sublist
      (kindsOfChecks (isolate (checkLabels t))) := by
  rw [kinds_checkLabels, kinds_checkLabels, if_pos sought]
  split
  · refine (List.replicate_sublist_replicate _).2 (length_filter_le ?_)
    refine (forall₂_labelledInputs_trimmed t).imp fun a b same missing => ?_
    rw [Bool.not_eq_true'] at missing ⊢
    by_contra found
    rw [Bool.not_eq_false] at found
    rw [same, occurs_labelFor_trimmed found] at missing
    cases missing
  · exact List.nil_sublist _

/-- An identifier that the engine refuses is looked for when its blanks are gone, and has no label. -/
example :
    let engine := Engine.upTo 100 (Nat.le_refl 100)
    let page := "<input id='x".toList ++ List.replicate 100 ' ' ++ "\n'>".toList
    kindsOfChecks (isolate (@checkLabels engine page)) = [] ∧
      kindsOfChecks (isolate (@checkLabels engine (trimTrailingBlanks page))) = [.warning] := by
  decide +kernel

/-- A document whose labels are looked for has no more findings when it is trimmed. -/
theorem html_eased_trimTrailingBlanks [Engine] {t : Text}
    (sought : seeksLabels (labelledInputs t) = true) : Html.Eased t (trimTrailingBlanks t) := by
  intro check mem
  by_cases labels : check = isolate ∘ checkLabels
  · subst labels
    exact sublist_kinds_checkLabels_trimmed sought
  · have same : kindsOfChecks (check (trimTrailingBlanks t)) = kindsOfChecks (check t) :=
      trimTrailingBlanks_induction (motive := fun t' => kindsOfChecks (check t') = kindsOfChecks (check t))
        rfl fun step same => (kinds_eq_of_dropsBlank step mem labels).trans same
    rw [same]

end SourceAudit
