/-
Module: SourceAudit.Proofs.Improve.Trimming
Layer: Proofs
Purpose: Trimming the ends of lines. Dropping one blank there changes no needle and no match that a rule
  looks for, so the report on a file stays as good as it was. Only of the labels in markup this is not true
  blank by blank, but for all lines at once.
Main exports: universal_eased_of_dropsBlank, script_eased_of_dropsBlank, eases_trimTrailingBlanks
-/
import SourceAudit.Proofs.Markup.Labels
import SourceAudit.Proofs.Report.FamilyGravity

namespace SourceAudit

open Pattern in
/-- The short form of a key binding, without the blank before it. -/
def shortKey : Pattern := text ":" ++ text "key" ++ blanks ++ text "="

open Pattern in
/-- The long form of a key binding. -/
def longKey : Pattern := wordEdge ++ text "v-bind:" ++ text "key" ++ blanks ++ text "="

theorem occurs_keyBinding_iff (t : Text) : Vue.keyBinding.occurs t = true ↔
    (Pattern.one isBlank ++ shortKey).occurs t = true ∨ longKey.occurs t = true := by
  rw [Pattern.occurs_iff rfl, Pattern.occurs_iff rfl, Pattern.occurs_iff rfl]
  constructor
  · rintro ⟨c, d, place, m, ⟨l, ⟨k, first, key⟩, gap⟩, equals⟩
    rcases first with ⟨j, blank, colon⟩ | first
    · exact .inl ⟨c, d, place, j, blank, m, ⟨l, ⟨k, colon, key⟩, gap⟩, equals⟩
    · exact .inr ⟨c, d, place, m, ⟨l, ⟨k, first, key⟩, gap⟩, equals⟩
  · rintro (⟨c, d, place, j, blank, m, ⟨l, ⟨k, colon, key⟩, gap⟩, equals⟩ |
      ⟨c, d, place, m, ⟨l, ⟨k, first, key⟩, gap⟩, equals⟩)
    · exact ⟨c, d, place, m, ⟨l, ⟨k, .inl ⟨j, blank, colon⟩, key⟩, gap⟩, equals⟩
    · exact ⟨c, d, place, m, ⟨l, ⟨k, .inr first, key⟩, gap⟩, equals⟩

/-- The names of state variables are made of word characters. -/
theorem isWordChar_of_mem_stateNames {t name : Text} (mem : name ∈ Script.stateNames t) :
    ∀ c ∈ name, isWordChar c = true := by
  obtain ⟨hit, found, rfl⟩ := List.mem_map.1 mem
  exact Pattern.isWordChar_of_mem_groupChars rfl found

/-- The patterns that the rules look for in a text whose lines are trimmed. -/
def trimmedPatterns : List Pattern :=
  [Universal.varDeclaration, Python.printCall, Python.rangeLen, Python.noneComparison, Php.dieCall,
    Solidity.functionHeader, Solidity.visibilityWord, shortKey, longKey, Vue.forTag, Script.stateHook,
    Script.effect, Script.threeUse]

/-- None of the patterns notices a blank that is dropped. -/
theorem overlooks_of_mem_trimmedPatterns {p : Pattern} (mem : p ∈ trimmedPatterns) :
    p.OverlooksLineEnds := by
  have all : ∀ p ∈ trimmedPatterns, p.Unmoved lineEndSight := by decide +kernel
  exact (all p mem).overlooksLineEnds

section

variable {t t' : Text} (h : DropsBlank t t')
include h

theorem universal_eased_of_dropsBlank : Universal.Eased t t' where
  logging found := by rwa [h.includes_eq (by decide)]
  declarations found := by
    have overlooks : Universal.varDeclaration.OverlooksLineEnds :=
      overlooks_of_mem_trimmedPatterns (by simp [trimmedPatterns])
    rwa [h.occurs_eq overlooks]
  tasks found := by rwa [h.includes_eq (by decide), h.includes_eq (by decide)]

theorem python_eased_of_dropsBlank : Python.Eased t t' where
  printing found := by
    have overlooks : Python.printCall.OverlooksLineEnds :=
      overlooks_of_mem_trimmedPatterns (by simp [trimmedPatterns])
    rwa [h.occurs_eq overlooks]
  indices found := by
    have overlooks : Python.rangeLen.OverlooksLineEnds :=
      overlooks_of_mem_trimmedPatterns (by simp [trimmedPatterns])
    rwa [h.occurs_eq overlooks]
  comparisons found := by
    have overlooks : Python.noneComparison.OverlooksLineEnds :=
      overlooks_of_mem_trimmedPatterns (by simp [trimmedPatterns])
    rwa [h.occurs_eq overlooks]

theorem php_eased_of_dropsBlank : Php.Eased t t' where
  queries found := by rwa [h.includes_eq (by decide)]
  endings found := by
    have overlooks : Php.dieCall.OverlooksLineEnds :=
      overlooks_of_mem_trimmedPatterns (by simp [trimmedPatterns])
    rwa [h.occurs_eq overlooks]
  opening found := by rwa [← h.includes_eq (by decide)]

theorem solidity_eased_of_dropsBlank : Solidity.Eased t t' where
  version found := by rwa [← h.includes_eq (by decide)]
  functions := by
    have headers : Solidity.functionHeader.OverlooksLineEnds :=
      overlooks_of_mem_trimmedPatterns (by simp [trimmedPatterns])
    have words : Solidity.visibilityWord.OverlooksLineEnds :=
      overlooks_of_mem_trimmedPatterns (by simp [trimmedPatterns])
    refine Nat.le_of_eq (length_filter_eq ((h.findAll_edited headers).imp ?_)).symm
    intro hit hit' trimmed
    rcases trimmed.groupChars 1 with same | dropped
    · rw [same]
    · rw [dropped.occurs_eq words]

/-- A key binding is still one: the blank before the short form is not the one that is dropped. -/
theorem occurs_keyBinding_of_dropsBlank (found : Vue.keyBinding.occurs t = true) :
    Vue.keyBinding.occurs t' = true := by
  have short : shortKey.OverlooksLineEnds :=
    overlooks_of_mem_trimmedPatterns (by simp [trimmedPatterns])
  have long : longKey.OverlooksLineEnds :=
    overlooks_of_mem_trimmedPatterns (by simp [trimmedPatterns])
  rw [occurs_keyBinding_iff] at found ⊢
  rcases found with found | found
  · exact .inl (h.occurs_one_seq short isBlank found)
  · right
    rwa [← h.occurs_eq long]

theorem vue_eased_of_dropsBlank : Vue.Eased t t' := by
  have tags : Vue.forTag.OverlooksLineEnds :=
    overlooks_of_mem_trimmedPatterns (by simp [trimmedPatterns])
  refine length_filter_le ((h.findAll_edited tags).imp ?_)
  intro hit hit' trimmed lacks
  rw [Bool.not_eq_true'] at lacks ⊢
  rcases trimmed.chars with same | dropped
  · rwa [same]
  · by_contra found
    rw [Bool.not_eq_false] at found
    rw [occurs_keyBinding_of_dropsBlank dropped found] at lacks
    cases lacks

theorem stateNames_eq_of_dropsBlank : Script.stateNames t = Script.stateNames t' := by
  have overlooks : Script.stateHook.OverlooksLineEnds :=
    overlooks_of_mem_trimmedPatterns (by simp [trimmedPatterns])
  have plain : ∀ hit ∈ Script.stateHook.findAll t, ∀ c ∈ hit.groupChars 1, isWordChar c = true :=
    fun hit mem => isWordChar_of_mem_stateNames (List.mem_map_of_mem mem)
  refine map_eq_of_forall₂ (((List.forall₂_and_left _ _).2 ⟨plain, h.findAll_edited overlooks⟩).imp ?_)
  exact fun hit hit' ⟨word, trimmed⟩ => trimmed.groupChars_eq word

omit h in
theorem effectAlike_of_trimmed [Engine] {names : List Text}
    (plain : ∀ name ∈ names, ∀ c ∈ name, isWordChar c = true) {hit hit' : Hit}
    (trimmed : hit.Edited DropsBlank hit') : Script.EffectAlike names hit hit' := by
  intro name mem
  have solid : ∀ c ∈ name, isBlank c = false :=
    fun c inside => isBlank_of_isWordChar (plain name mem c inside)
  have comma : ∀ c, isBlank c = true → (c == ',') = false := by
    rintro c blank
    cases same : c == ',' with
    | false => rfl
    | true =>
      obtain rfl := beq_iff_eq.1 same
      cases blank
  constructor
  · have pieces : List.Forall₂ (fun p p' => (name == Text.trim p) = (name == Text.trim p'))
        ((hit.groupChars 2).pieces (· == ',')) ((hit'.groupChars 2).pieces (· == ',')) := by
      rcases trimmed.groupChars 2 with same | dropped
      · rw [same]
        exact List.forall₂_same.2 fun _ _ => rfl
      · refine (dropped.forall₂_pieces comma).imp ?_
        rintro p p' (rfl | step)
        · rfl
        · rw [Bool.eq_iff_iff, beq_iff_eq, beq_iff_eq, eq_comm, step.trim_eq_iff solid, eq_comm]
    have tests := congrArg (fun tests => tests.any id) (map_eq_of_forall₂ pieces)
    simpa only [Script.declaredNames, List.contains_eq_any_beq, List.any_map, Function.comp_def, id]
      using tests
  · rcases trimmed.groupChars 1 with same | dropped
    · rw [same]
    · exact dropped.countWord_eq (List.all_eq_true.2 (plain name mem))

theorem script_eased_of_dropsBlank [Engine] : Script.Eased t t' := by
  have effects : Script.effect.OverlooksLineEnds :=
    overlooks_of_mem_trimmedPatterns (by simp [trimmedPatterns])
  have scenes : Script.threeUse.OverlooksLineEnds :=
    overlooks_of_mem_trimmedPatterns (by simp [trimmedPatterns])
  constructor
  case imports =>
    intro found
    rwa [← h.includes_eq (by decide), ← h.includes_eq (by decide)]
  case react =>
    intro found
    rwa [SourceView.importsReact, h.includes_eq (by decide), h.includes_eq (by decide)]
  case lists =>
    intro found
    rwa [h.includes_eq (by decide)]
  case keys =>
    intro found
    rwa [← h.includes_eq (by decide)]
  case names => exact stateNames_eq_of_dropsBlank h
  case effects =>
    exact (h.findAll_edited effects).imp fun _ _ =>
      effectAlike_of_trimmed fun _ => isWordChar_of_mem_stateNames
  case scenes =>
    intro found
    rwa [h.occurs_eq scenes]
  case disposal =>
    intro found
    rwa [← h.includes_eq (by decide)]

end

/-- The rules of a family have no more issues without the blank, unless they are those of markup. -/
theorem family_eased_of_dropsBlank [Engine] {family : Family} (noMarkup : family ≠ .html) {t t' : Text}
    (h : DropsBlank t t') : family.Eased t t' := by
  cases family with
  | html => exact absurd rfl noMarkup
  | script => exact script_eased_of_dropsBlank h
  | python => exact python_eased_of_dropsBlank h
  | php => exact php_eased_of_dropsBlank h
  | solidity => exact solidity_eased_of_dropsBlank h
  | vue => exact vue_eased_of_dropsBlank h
  | other => exact trivial

theorem universal_eased_trimTrailingBlanks (t : Text) : Universal.Eased t (Fix.trimTrailingBlanks t) :=
  trimTrailingBlanks_induction (motive := Universal.Eased t) (.refl t) fun step eased =>
    eased.trans (universal_eased_of_dropsBlank step)

/-- Trimming the ends of lines never makes the report of a file worse, unless it is a document whose
    labels were not looked for. -/
theorem eases_trimTrailingBlanks [Engine] {fileName : String} {t : Text}
    (sought : Family.ofName fileName = .html → Markup.seeksLabels (Markup.labelledInputs t) = true) :
    Eases fileName t (Fix.trimTrailingBlanks t) := by
  by_cases markup : Family.ofName fileName = .html
  · refine Eases.of_eased (universal_eased_trimTrailingBlanks t) ?_
    rw [markup]
    exact html_eased_trimTrailingBlanks (sought markup)
  · exact trimTrailingBlanks_induction (motive := Eases fileName t) (.refl fileName t) fun step eased =>
      eased.trans (.of_eased (universal_eased_of_dropsBlank step) (family_eased_of_dropsBlank markup step))

end SourceAudit
