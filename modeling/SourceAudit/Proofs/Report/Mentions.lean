/-
Module: SourceAudit.Proofs.Report.Mentions
Layer: Proofs
Purpose: The rules that look names up in a text. Each goes through entries with a name and a text, and
  reports those whose name stands in the text as often as it asks for. Of a name of word characters it
  counts the tokens. Names of declarations and of state variables are always such names.
Main exports: reported, mapM_reported, Text.mentions, ReportsByTokens, unusedImports_eq,
  unusedImportsOf_eq, unusedDeclarations_eq, effectDependencies_eq_reported, countWord_counts_tokens
-/
import SourceAudit.Deep.Semantics
import SourceAudit.Imports.Statement
import SourceAudit.Proofs.Pattern.Stretch
import SourceAudit.Proofs.Report.FamilyGravity
import SourceAudit.Proofs.Text.Tokens

namespace SourceAudit

open Pattern

/-! ### Reports over entries -/

section

variable [Engine] {ε γ α : Type}

/-- What is reported of entries that are looked at one after the other: a note on each that passes the
    test, unless the engine does not count one of the names. -/
def reported (name : ε → Text) (test : ε → Bool) (note : ε → α) (entries : List ε) :
    Except Fault (List α) :=
  if entries.all fun e => Engine.accepts (.word (name e)) then .ok ((entries.filter test).map note)
  else .error .patternTooLarge

variable {name : ε → Text} {test : ε → Bool} {note : ε → α}

theorem reported_append (es es' : List ε) : reported name test note (es ++ es') = do
    let first ← reported name test note es
    let second ← reported name test note es'
    return first ++ second := by
  simp only [reported, List.all_append, List.filter_append, List.map_append]
  cases es.all fun e => Engine.accepts (.word (name e)) with
  | false => rfl
  | true => cases es'.all fun e => Engine.accepts (.word (name e)) <;> rfl

/-- Reports on the entries of one group after the other are the report on all of them. -/
theorem mapM_reported (groups : List γ) (entries : γ → List ε) {report : γ → Except Fault (List α)}
    (each : ∀ g, report g = reported name test note (entries g)) :
    (do let found ← groups.mapM report; return found.flatten) =
      reported name test note (groups.flatMap entries) := by
  induction groups with
  | nil => rfl
  | cons g groups ih =>
    rw [List.flatMap_cons, reported_append, ← ih, List.mapM_cons, each g]
    cases reported name test note (entries g) with
    | error fault => rfl
    | ok first => cases groups.mapM report <;> rfl

end

/-! ### Names in a text -/

/-- How often a word stands whole in a text. -/
def Text.mentions (t word : Text) : Nat := if word.isEmpty then 0 else countFrom word none 0 0 t

theorem Text.countWord_eq [Engine] (t word : Text) : t.countWord word =
    if Engine.accepts (.word word) then .ok (t.mentions word) else .error .patternTooLarge := by
  rw [countWord, mentions]
  cases word with
  | nil => exact (if_pos (Engine.accepts_short (.word []) (Nat.zero_le 100))).symm
  | cons c word =>
    simp only [List.isEmpty_cons, Bool.false_eq_true, if_false]

theorem CountableWord.mentions_eq [Engine] (word : CountableWord) (t : Text) :
    t.mentions word.chars = t.tokenCount word.chars := by
  have counted := word.countWord_eq t
  rw [t.countWord_eq, if_pos word.accepted] at counted
  exact Except.ok.inj counted

/-- The outcome of a rule tells of entries, each of which has a name and a text. In their order, those are
    reported whose name passes the test on the number of its tokens in the text. (A name that is no token
    may pass or not; one that the engine does not count stops the rule.) -/
def ReportsByTokens [Engine] {ε α : Type} (outcome : Except Fault (List α)) (entries : List ε)
    (name text : ε → Text) (passes : Nat → Prop) (note : ε → α) : Prop :=
  ∃ test : ε → Bool, outcome = reported name test note entries ∧
    ∀ e, ∀ word : CountableWord, name e = word.chars →
      (test e = true ↔ passes ((text e).tokenCount word.chars))

section

variable {ε γ α : Type} {name text : ε → Text} {note : ε → α}

theorem reportsByTokens_of_mentions [Engine] {outcome : Except Fault (List α)} {entries : List ε}
    {passes : Nat → Prop} [DecidablePred passes]
    (h : outcome = reported name (fun e => passes ((text e).mentions (name e))) note entries) :
    ReportsByTokens outcome entries name text passes note := by
  refine ⟨_, h, fun e word same => ?_⟩
  rw [decide_eq_true_eq, same, word.mentions_eq]

/-- The look at one name. -/
theorem bind_countWord [Engine] (name text : ε → Text) (note : ε → α) (passes : Nat → Prop)
    [DecidablePred passes] (e : ε) :
    (do
      let n ← (text e).wordIndex.countWord (name e)
      if passes n then return [note e] else return []) =
      reported name (fun e => passes ((text e).mentions (name e))) note [e] := by
  rw [WordIndex.countWord_eq, Text.countWord_eq]
  cases accepted : Engine.accepts (.word (name e)) with
  | false => simp [reported, accepted, bind, Except.bind]
  | true =>
    by_cases once : passes ((text e).mentions (name e))
    · simp [reported, accepted, once, bind, Except.bind, pure, Except.pure]
    · simp [reported, accepted, once, bind, Except.bind, pure, Except.pure]

end

/-! ### The rules -/

namespace Script

/-- The report on an unused import. -/
def unusedImportNote (name : Text) : Outcome :=
  .fixable "optimization" s!"Unused import detected: {name.str}. Remove to reduce bundle size"
    .removeUnusedImports "Remove unused imports" .low

theorem unusedImports_eq [Engine] (file : SourceView) : unusedImports file =
    reported id (fun name => file.content.mentions name = 1) unusedImportNote
      (importedNames file.content) := by
  have each := mapM_reported (importedNames file.content) (fun name => [name])
    (bind_countWord id (fun _ => file.content) unusedImportNote (· = 1))
  rw [List.flatMap_singleton'] at each
  exact each

/-- The state variables that an effect does not declare, each with the effect. -/
def undeclaredState (t : Text) (hit : Hit) : List (Hit × Text) :=
  ((stateNames t).filter fun name => !(declaredNames hit).contains name).map fun name => (hit, name)

/-- The report on a state variable that an effect reads and does not declare. -/
def missingDependencyNote (t : Text) (e : Hit × Text) : Outcome :=
  .warning (t.lineIndex.lineAt e.1.offset)
    s!"useEffect references \"{e.2.str}\" but it is missing from the dependency array"
    "MISSING_EFFECT_DEPENDENCY"

theorem missingName_eq [Engine] (t : Text) (hit : Hit) (name : Text) :
    missingName (t.lineIndex.lineAt hit.offset) hit name =
      reported Prod.snd (fun e => (e.1.groupChars 1).mentions e.2 ≠ 0) (missingDependencyNote t)
        (if (declaredNames hit).contains name then [] else [(hit, name)]) := by
  rw [missingName]
  split
  · rfl
  · rw [← bind_countWord Prod.snd (fun e => e.1.groupChars 1) (missingDependencyNote t) (· ≠ 0)
      (hit, name)]
    simp only [ite_not]
    rfl

theorem effectDependencies_eq_reported [Engine] (file : SourceView) : effectDependencies file =
    reported Prod.snd (fun e => (e.1.groupChars 1).mentions e.2 ≠ 0) (missingDependencyNote file.content)
      ((checkedEffects file.content).flatMap (undeclaredState file.content)) := by
  have undeclared (hit : Hit) : (stateNames file.content).flatMap
      (fun name => if (declaredNames hit).contains name then [] else [(hit, name)]) =
        undeclaredState file.content hit := by
    rw [undeclaredState]
    induction stateNames file.content with
    | nil => rfl
    | cons name names ih =>
      rw [List.flatMap_cons, ih, List.filter_cons]
      cases (declaredNames hit).contains name <;> rfl
  rw [effectDependencies_eq]
  refine mapM_reported _ _ fun hit => ?_
  rw [← undeclared]
  exact mapM_reported _ _ fun name => missingName_eq file.content hit name

end Script

/-- The report on an unused import of a file. -/
def unusedImportOf (fileName : String) (e : ImportSpec × Text) : UnusedImport :=
  ⟨fileName, e.2.str, e.1.source⟩

/-- The names that imports bind, each with its import. -/
def boundNames (imports : List ImportSpec) : List (ImportSpec × Text) :=
  imports.flatMap fun i => i.localBindings.map fun name => (i, name)

theorem unusedImportsOf_eq [Engine] (fileName : String) (t : Text) (imports : List ImportSpec) :
    unusedImportsOf fileName t imports =
      reported Prod.snd (fun e => t.mentions e.2 = 1) (unusedImportOf fileName) (boundNames imports) := by
  rw [unusedImportsOf, boundNames]
  refine mapM_reported _ _ fun i => ?_
  rw [List.map_eq_flatMap]
  refine mapM_reported _ _ fun name => ?_
  rw [← bind_countWord Prod.snd (fun _ => t) (unusedImportOf fileName) (· = 1) (i, name)]
  cases t.wordIndex.countWord name with
  | error fault => rfl
  | ok n => by_cases once : n = 1 <;> simp [once, bind, Except.bind, pure, Except.pure, unusedImportOf]

/-- The report on a declared name that is never used. -/
def unusedDeclarationNote (t : Text) (hit : Hit) : Finding :=
  ⟨.semanticWarning, none, .low,
    s!"Variable \"{(hit.groupChars 1).str}\" is declared but never used", t.lineHolding hit.chars⟩

theorem unusedDeclarations_eq [Engine] (t : Text) : unusedDeclarations t =
    reported (·.groupChars 1) (fun hit => t.mentions (hit.groupChars 1) = 1) (unusedDeclarationNote t)
      (declaration.findAll t) := by
  have each := mapM_reported (declaration.findAll t) (fun hit => [hit])
    (bind_countWord (·.groupChars 1) (fun _ => t) (unusedDeclarationNote t) (· = 1))
  rw [List.flatMap_singleton'] at each
  exact each

/-- A name that is always kept is a word. -/
theorem isWord_groupChars {p : Pattern} {t : Text} {hit : Hit} (mem : hit ∈ p.findAll t)
    (sure : p.surelyKeeps 1 = true) (body : p.bodies 1 = [Pattern.name]) : IsWord (hit.groupChars 1) := by
  obtain ⟨s, q, inside, way, same⟩ := exists_passes_of_surelyKeeps mem sure
  rw [body, List.mem_singleton] at inside
  subst inside
  obtain ⟨cs, enough, letters, moves⟩ := passes_most.1 way
  have chars : hit.groupChars 1 = cs := same.trans moves.chars
  rw [chars]
  exact ⟨List.ne_nil_of_length_pos enough, letters⟩

theorem isWord_declared {t : Text} {hit : Hit} (mem : hit ∈ declaration.findAll t) :
    IsWord (hit.groupChars 1) :=
  isWord_groupChars mem rfl rfl

theorem isWord_state {t name : Text} (mem : name ∈ Script.stateNames t) : IsWord name := by
  obtain ⟨hit, inside, rfl⟩ := List.mem_map.1 mem
  exact isWord_groupChars inside rfl rfl

/-- A word of word characters is counted as often as it is a token of the text, so the counts of two texts
    add up where a line feed joins them. The rules for unused imports and unused declarations report,
    among the names that they look up, those that are one token of the text, and the rule for effects
    those that are some token of the effect; the names of declarations and of state variables are words. -/
theorem countWord_counts_tokens [Engine] :
    (∀ (word : CountableWord) (t : Text), t.countWord word.chars = .ok (t.tokenCount word.chars)) ∧
    (∀ (word : CountableWord) (a b : Text), ∃ n m, a.countWord word.chars = .ok n ∧
      b.countWord word.chars = .ok m ∧ (a ++ '\n' :: b).countWord word.chars = .ok (n + m)) ∧
    (∀ file : SourceView, ReportsByTokens (Script.unusedImports file) (Script.importedNames file.content)
      id (fun _ => file.content) (· = 1) Script.unusedImportNote) ∧
    (∀ (fileName : String) (t : Text) (imports : List ImportSpec),
      ReportsByTokens (unusedImportsOf fileName t imports) (boundNames imports) Prod.snd (fun _ => t) (· = 1)
        (unusedImportOf fileName)) ∧
    (∀ t : Text, ReportsByTokens (unusedDeclarations t) (declaration.findAll t) (·.groupChars 1)
      (fun _ => t) (· = 1) (unusedDeclarationNote t) ∧
      ∀ hit ∈ declaration.findAll t, IsWord (hit.groupChars 1)) ∧
    (∀ file : SourceView, ReportsByTokens (Script.effectDependencies file)
      ((Script.checkedEffects file.content).flatMap (Script.undeclaredState file.content)) Prod.snd
      (·.1.groupChars 1) (· ≠ 0) (Script.missingDependencyNote file.content) ∧
      ∀ name ∈ Script.stateNames file.content, IsWord name) := by
  refine ⟨fun word t => word.countWord_eq t, fun word a b => ?_, fun file => ?_,
    fun fileName t imports => ?_, fun t => ⟨?_, fun hit => isWord_declared⟩,
    fun file => ⟨?_, fun name => isWord_state⟩⟩
  · refine ⟨_, _, word.countWord_eq a, word.countWord_eq b, ?_⟩
    rw [word.countWord_eq, Text.tokenCount_append_cons word.isWord (by decide)]
  · exact reportsByTokens_of_mentions (Script.unusedImports_eq file)
  · exact reportsByTokens_of_mentions (unusedImportsOf_eq fileName t imports)
  · exact reportsByTokens_of_mentions (unusedDeclarations_eq t)
  · exact reportsByTokens_of_mentions (Script.effectDependencies_eq_reported file)

end SourceAudit
