/-
Module: SourceAudit.Proofs.Report.FamilyGravity
Layer: Proofs
Purpose: How grave the issues of the rules of the single families are. For each family but the markup
  the conditions are named under which its rules have no more issues on a second text.
Main exports: Python.Eased, Php.Eased, Solidity.Eased, Vue.Eased, Script.Eased, Html.Eased,
  Family.Eased, Family.Eased.sublist, Eases.of_eased
-/
import SourceAudit.Proofs.Report.Gravity
import Mathlib.Data.List.Forall2

namespace SourceAudit

/-- As many issues of one kind as a list has members. -/
theorem sublist_map_const {α β : Type} {as : List α} {bs : List β} (h : bs.length ≤ as.length)
    (kind : IssueKind) : (bs.map fun _ => kind).Sublist (as.map fun _ => kind) := by
  rw [List.map_const', List.map_const']
  exact (List.replicate_sublist_replicate kind).2 h

/-- Lists whose members pass no more tests keep no more of them. -/
theorem length_filter_le {α β : Type} {p : α → Bool} {q : β → Bool} {as : List α} {bs : List β}
    (h : List.Forall₂ (fun a b => q b = true → p a = true) as bs) :
    (bs.filter q).length ≤ (as.filter p).length := by
  induction h with
  | nil => exact Nat.le_refl _
  | @cons a b as bs here _ ih =>
    rw [List.filter_cons, List.filter_cons]
    by_cases new : q b = true
    · rw [if_pos new, if_pos (here new), List.length_cons, List.length_cons]
      exact Nat.succ_le_succ ih
    · rw [if_neg new]
      split
      · exact Nat.le_succ_of_le ih
      · exact ih

/-- Lists whose members pass the same tests keep equally many of them. -/
theorem length_filter_eq {α β : Type} {p : α → Bool} {q : β → Bool} {as : List α} {bs : List β}
    (h : List.Forall₂ (fun a b => p a = q b) as bs) : (as.filter p).length = (bs.filter q).length := by
  induction h with
  | nil => rfl
  | cons here _ ih =>
    rw [List.filter_cons, List.filter_cons, here]
    split
    · rw [List.length_cons, List.length_cons, ih]
    · exact ih

theorem all_eq_of_forall₂ {α β : Type} {p : α → Bool} {q : β → Bool} {as : List α} {bs : List β}
    (h : List.Forall₂ (fun a b => p a = q b) as bs) : as.all p = bs.all q := by
  induction h with
  | nil => rfl
  | cons here _ ih => rw [List.all_cons, List.all_cons, here, ih]

theorem map_eq_of_forall₂ {α β γ : Type} {f : α → γ} {g : β → γ} {as : List α} {bs : List β}
    (h : List.Forall₂ (fun a b => f a = g b) as bs) : as.map f = bs.map g := by
  induction h with
  | nil => rfl
  | cons here _ ih => rw [List.map_cons, List.map_cons, here, ih]

theorem map_kind_issues {α : Type} (found : List α) (issue : α → Issue) :
    (issuesOf (found.map fun x => .issue (issue x))).map Issue.kind =
      found.map fun x => (issue x).kind := by
  induction found with
  | nil => rfl
  | cons x xs ih => exact congrArg _ ih

namespace Python

/-- None of the three findings is new on the second text. -/
structure Eased (t t' : Text) : Prop where
  printing : printCall.occurs t' = true → printCall.occurs t = true
  indices : rangeLen.occurs t' = true → rangeLen.occurs t = true
  comparisons : noneComparison.occurs t' = true → noneComparison.occurs t = true

theorem gravities_printing (file : SourceView) :
    Rule.gravities printing file = if printCall.occurs file.content then [.warning] else [] := by
  rw [Rule.gravities, printing, isolate, Pattern.occurs]
  cases printCall.find file.content <;> rfl

theorem gravities_indexLoops (file : SourceView) :
    Rule.gravities indexLoops file = if rangeLen.occurs file.content then [.warning] else [] := by
  rw [Rule.gravities, indexLoops, isolate, Pattern.occurs]
  cases rangeLen.find file.content <;> rfl

theorem gravities_noneComparisons (file : SourceView) :
    Rule.gravities noneComparisons file =
      if noneComparison.occurs file.content then [.warning] else [] := by
  rw [Rule.gravities, noneComparisons, isolate, Pattern.occurs]
  cases noneComparison.find file.content <;> rfl

theorem Eased.sublist {t t' : Text} (h : Eased t t') (fileName : String) {rule : Rule}
    (mem : rule ∈ rules) :
    (rule.gravities (.ofFile fileName t')).Sublist (rule.gravities (.ofFile fileName t)) := by
  simp only [rules, List.mem_cons, List.not_mem_nil, or_false] at mem
  rcases mem with rfl | rfl | rfl
  · rw [gravities_printing, gravities_printing]
    exact sublist_if h.printing _
  · rw [gravities_indexLoops, gravities_indexLoops]
    exact sublist_if h.indices _
  · rw [gravities_noneComparisons, gravities_noneComparisons]
    exact sublist_if h.comparisons _

end Python

namespace Php

/-- No call is new on the second text, and the opening tag is still there. -/
structure Eased (t t' : Text) : Prop where
  queries : t'.includes "mysql_query" = true → t.includes "mysql_query" = true
  endings : dieCall.occurs t' = true → dieCall.occurs t = true
  opening : t.includes "<?php" = true → t'.includes "<?php" = true

theorem gravities_mysqlQuery (file : SourceView) :
    Rule.gravities mysqlQuery file =
      if file.content.includes "mysql_query" then [.error] else [] := by
  rw [Rule.gravities, mysqlQuery, isolate]
  split <;> rfl

theorem gravities_dieExit (file : SourceView) :
    Rule.gravities dieExit file = if dieCall.occurs file.content then [.warning] else [] := by
  rw [Rule.gravities, dieExit, isolate, Pattern.occurs]
  cases dieCall.find file.content <;> rfl

theorem gravities_openTag (file : SourceView) :
    Rule.gravities openTag file = if ¬ file.content.includes "<?php" then [.error] else [] := by
  rw [Rule.gravities, openTag, isolate, ite_not]
  split <;> rfl

theorem Eased.sublist {t t' : Text} (h : Eased t t') (fileName : String) {rule : Rule}
    (mem : rule ∈ rules) :
    (rule.gravities (.ofFile fileName t')).Sublist (rule.gravities (.ofFile fileName t)) := by
  simp only [rules, List.mem_cons, List.not_mem_nil, or_false] at mem
  rcases mem with rfl | rfl | rfl
  · rw [gravities_mysqlQuery, gravities_mysqlQuery]
    exact sublist_if h.queries _
  · rw [gravities_dieExit, gravities_dieExit]
    exact sublist_if h.endings _
  · rw [gravities_openTag, gravities_openTag]
    exact sublist_if (mt h.opening) _

end Php

namespace Solidity

/-- The functions that do not say who may call them. -/
def unmarked (t : Text) : List Hit :=
  (functionHeader.findAll t).filter fun hit => !visibilityWord.occurs (hit.groupChars 1)

/-- The version is still fixed on the second text, and no more functions are unmarked. -/
structure Eased (t t' : Text) : Prop where
  version : t.includes "pragma solidity" = true → t'.includes "pragma solidity" = true
  functions : (unmarked t').length ≤ (unmarked t).length

theorem gravities_compilerVersion (file : SourceView) :
    Rule.gravities compilerVersion file =
      if ¬ file.content.includes "pragma solidity" then [.error] else [] := by
  rw [Rule.gravities, compilerVersion, isolate, ite_not]
  split <;> rfl

theorem gravities_visibility (file : SourceView) :
    Rule.gravities visibility file = (unmarked file.content).map fun _ => .warning :=
  map_kind_issues (unmarked file.content) _

theorem Eased.sublist {t t' : Text} (h : Eased t t') (fileName : String) {rule : Rule}
    (mem : rule ∈ rules) :
    (rule.gravities (.ofFile fileName t')).Sublist (rule.gravities (.ofFile fileName t)) := by
  simp only [rules, List.mem_cons, List.not_mem_nil, or_false] at mem
  rcases mem with rfl | rfl
  · rw [gravities_compilerVersion, gravities_compilerVersion]
    exact sublist_if (mt h.version) _
  · rw [gravities_visibility, gravities_visibility]
    exact sublist_map_const h.functions _

end Solidity

namespace Vue

/-- The repeated elements without a key. -/
def unkeyed (t : Text) : List Hit :=
  (forTag.findAll t).filter fun tag => !keyBinding.occurs tag.chars

theorem gravities_forKey (file : SourceView) :
    Rule.gravities forKey file = (unkeyed file.content).map fun _ => .warning :=
  map_kind_issues (unkeyed file.content) _

/-- The second text has no more repeated elements without a key. -/
def Eased (t t' : Text) : Prop := (unkeyed t').length ≤ (unkeyed t).length

theorem Eased.sublist {t t' : Text} (h : Eased t t') (fileName : String) {rule : Rule}
    (mem : rule ∈ rules) :
    (rule.gravities (.ofFile fileName t')).Sublist (rule.gravities (.ofFile fileName t)) := by
  simp only [rules, List.mem_cons, List.not_mem_nil, or_false] at mem
  rcases mem with rfl | rfl
  · rw [gravities_forKey, gravities_forKey]
    exact sublist_map_const h _
  · have none : Rule.gravities ifWithFor (.ofFile fileName t') = [] := map_kind_suggestion _
    rw [none]
    exact List.nil_sublist _

end Vue

section MapM

variable {α β γ : Type}

/-- Steps that agree one by one agree as a whole. -/
theorem mapM_eq_of_forall₂ {f : α → Except Fault γ} {g : β → Except Fault γ} {as : List α}
    {bs : List β} (h : List.Forall₂ (fun a b => f a = g b) as bs) : as.mapM f = bs.mapM g := by
  induction h with
  | nil => rfl
  | cons here _ ih => rw [List.mapM_cons, List.mapM_cons, here, ih]

theorem mapM_map (f : α → Except Fault β) (g : β → γ) (as : List α) :
    (as.mapM f).map (List.map g) = as.mapM fun a => (f a).map g := by
  induction as with
  | nil => rfl
  | cons a as ih =>
    rw [List.mapM_cons, List.mapM_cons, ← ih]
    cases f a with
    | error e => rfl
    | ok b => cases as.mapM f <;> rfl

/-- How grave the issues among outcomes are. -/
def kindsOf (outcomes : List Outcome) : List IssueKind := (issuesOf outcomes).map Issue.kind

theorem kindsOf_append (os os' : List Outcome) : kindsOf (os ++ os') = kindsOf os ++ kindsOf os' := by
  rw [kindsOf, issuesOf, List.filterMap_append, List.map_append]
  rfl

theorem kindsOf_flatten (oss : List (List Outcome)) :
    kindsOf oss.flatten = (oss.map kindsOf).flatten := by
  induction oss with
  | nil => rfl
  | cons os oss ih => rw [List.flatten_cons, kindsOf_append, ih, List.map_cons, List.flatten_cons]

/-- The issues of steps that are taken one after the other. -/
theorem map_kindsOf_mapM (as : List α) (f : α → Except Fault (List Outcome)) :
    (do let found ← as.mapM f; return found.flatten : Except Fault (List Outcome)).map kindsOf =
      (as.mapM fun a => (f a).map kindsOf).map List.flatten := by
  rw [← mapM_map f kindsOf as]
  cases as.mapM f with
  | error e => rfl
  | ok found => exact congrArg Except.ok (kindsOf_flatten found)

theorem kindsOf_isolate (result : Except Fault (List Outcome)) :
    kindsOf (isolate result) = isolate (result.map kindsOf) := by
  cases result <;> rfl

end MapM

namespace Script

theorem gravities_reactImport (file : SourceView) :
    Rule.gravities reactImport file =
      if ¬ (!isJsxExtension file.extension || file.content.includes "import React" ||
        file.content.includes "import \x7b") = true then [.error] else [] := by
  rw [Rule.gravities, reactImport, isolate, ite_not]
  split <;> rfl

theorem gravities_listKeys (file : SourceView) :
    Rule.gravities listKeys file =
      if ¬ (!file.isJsxLike || !file.content.includes ".map(" || file.content.includes "key=") = true
      then [.warning] else [] := by
  rw [Rule.gravities, listKeys, isolate, ite_not]
  split <;> rfl

theorem gravities_threeDispose (file : SourceView) :
    Rule.gravities threeDispose file =
      if threeUse.occurs file.content = true ∧ ¬ file.content.includes ".dispose(" = true
      then [.warning] else [] := by
  rw [Rule.gravities, threeDispose, isolate, Pattern.occurs]
  cases threeUse.find file.content with
  | none => rfl
  | some hit =>
    simp only [Option.isSome_some, true_and, ite_not]
    split <;> rfl

theorem gravities_unusedImports [Engine] (file : SourceView) : Rule.gravities unusedImports file = [] := by
  have silent : ∀ (names : List Text) (f : Text → Except Fault (List Outcome)),
      (∀ name, (f name).map kindsOf = (f name).map fun _ => []) →
      isolate ((names.mapM fun name => (f name).map kindsOf).map List.flatten) = [] := by
    intro names f none
    simp only [none]
    induction names with
    | nil => rfl
    | cons name names ih =>
      rw [List.mapM_cons]
      cases f name with
      | error e => rfl
      | ok os =>
        revert ih
        cases names.mapM fun name => (f name).map fun _ => ([] : List IssueKind) with
        | error e => exact fun _ => rfl
        | ok found => exact fun ih => ih
  have ran : Rule.gravities unusedImports file = kindsOf (isolate (unusedImports file)) := rfl
  rw [ran, kindsOf_isolate, unusedImports, map_kindsOf_mapM]
  apply silent
  intro name
  cases file.content.wordIndex.countWord name with
  | error e => rfl
  | ok n =>
    by_cases once : n = 1
    · subst once
      rfl
    · simp [once, bind, Except.bind, pure, Except.pure, Except.map, kindsOf, issuesOf]

/-- The names of the state variables, in order. -/
def stateNames (t : Text) : List Text := (stateHook.findAll t).map fun hit => hit.groupChars 1

/-- The entries of the dependency list of an effect. -/
def declaredNames (hit : Hit) : List Text := ((hit.groupChars 2).pieces (· == ',')).map Text.trim

/-- Two effects that declare and mention the same of these names. -/
def EffectAlike [Engine] (names : List Text) (hit hit' : Hit) : Prop :=
  ∀ name ∈ names, (declaredNames hit).contains name = (declaredNames hit').contains name ∧
    (hit.groupChars 1).wordIndex.countWord name = (hit'.groupChars 1).wordIndex.countWord name

/-- The effects whose dependencies are looked at. -/
def checkedEffects (t : Text) : List Hit :=
  if (stateNames t).isEmpty then [] else effect.findAll t

/-- What one state variable adds to the issues of an effect. -/
def missingName [Engine] (line : Nat) (hit : Hit) (name : Text) : Except Fault (List Outcome) := do
  if (declaredNames hit).contains name then return []
  let n ← (hit.groupChars 1).wordIndex.countWord name
  if n = 0 then return []
  let shown := name.str
  return [Outcome.warning line
    s!"useEffect references \"{shown}\" but it is missing from the dependency array"
    "MISSING_EFFECT_DEPENDENCY"]

theorem effectDependencies_eq [Engine] (file : SourceView) :
    effectDependencies file = do
      let found ← (checkedEffects file.content).mapM fun hit => do
        let missing ← (stateNames file.content).mapM
          (missingName (file.content.lineIndex.lineAt hit.offset) hit)
        return missing.flatten
      return found.flatten := rfl

theorem map_kindsOf_missingName [Engine] {names : List Text} {hit hit' : Hit}
    (alike : EffectAlike names hit hit') (line line' : Nat) {name : Text} (mem : name ∈ names) :
    (missingName line hit name).map kindsOf = (missingName line' hit' name).map kindsOf := by
  obtain ⟨declared, mentioned⟩ := alike name mem
  rw [missingName, missingName, declared, mentioned]
  generalize (declaredNames hit').contains name = listed
  generalize (hit'.groupChars 1).wordIndex.countWord name = count
  cases listed with
  | true => rfl
  | false =>
    cases count with
    | error e => rfl
    | ok n => cases n <;> rfl

/-- Two texts with the same state variables and like effects have the same issues there. -/
theorem gravities_effectDependencies_eq [Engine] {t t' : Text} (names : stateNames t = stateNames t')
    (effects : List.Forall₂ (EffectAlike (stateNames t)) (effect.findAll t) (effect.findAll t'))
    (fileName : String) :
    Rule.gravities effectDependencies (.ofFile fileName t) =
      Rule.gravities effectDependencies (.ofFile fileName t') := by
  have read (file : SourceView) : Rule.gravities effectDependencies file =
      isolate (((checkedEffects file.content).mapM fun hit =>
        ((stateNames file.content).mapM fun name =>
          (missingName (file.content.lineIndex.lineAt hit.offset) hit name).map kindsOf).map
            List.flatten).map List.flatten) := by
    have ran : Rule.gravities effectDependencies file =
      kindsOf (isolate (effectDependencies file)) := rfl
    rw [ran, kindsOf_isolate, effectDependencies_eq, map_kindsOf_mapM]
    simp only [map_kindsOf_mapM]
  have checked : List.Forall₂ (EffectAlike (stateNames t)) (checkedEffects t) (checkedEffects t') := by
    rw [checkedEffects, checkedEffects, ← names]
    split
    · exact .nil
    · exact effects
  rw [read, read]
  simp only [SourceView.ofFile]
  rw [← names, mapM_eq_of_forall₂ (checked.imp fun hit hit' alike => ?_)]
  rw [mapM_eq_of_forall₂ (List.forall₂_same.2 fun name mem => ?_)]
  exact map_kindsOf_missingName alike _ _ mem

/-- No import is lost on the second text, no list and no use of the packages is new, no key and no
    disposal is lost, and the effects have the same issues. -/
structure Eased [Engine] (t t' : Text) : Prop where
  imports : (t.includes "import React" || t.includes "import \x7b") = true →
    (t'.includes "import React" || t'.includes "import \x7b") = true
  react : SourceView.importsReact t' = true → SourceView.importsReact t = true
  lists : t'.includes ".map(" = true → t.includes ".map(" = true
  keys : t.includes "key=" = true → t'.includes "key=" = true
  names : stateNames t = stateNames t'
  effects : List.Forall₂ (EffectAlike (stateNames t)) (effect.findAll t) (effect.findAll t')
  scenes : threeUse.occurs t' = true → threeUse.occurs t = true
  disposal : t.includes ".dispose(" = true → t'.includes ".dispose(" = true

theorem Eased.sublist [Engine] {t t' : Text} (h : Eased t t') (fileName : String) {rule : Rule}
    (mem : rule ∈ rules) :
    (rule.gravities (.ofFile fileName t')).Sublist (rule.gravities (.ofFile fileName t)) := by
  have silent (rule : Rule) (none : ∀ file, rule.gravities file = []) :
      (rule.gravities (.ofFile fileName t')).Sublist (rule.gravities (.ofFile fileName t)) := by
    rw [none]
    exact List.nil_sublist _
  simp only [rules, List.mem_cons, List.not_mem_nil, or_false] at mem
  rcases mem with rfl | rfl | rfl | rfl | rfl | rfl | rfl | rfl | rfl
  · rw [gravities_reactImport, gravities_reactImport]
    refine sublist_if (mt fun found => ?_) _
    have kept := h.imports
    simp only [SourceView.ofFile, Bool.or_eq_true] at found kept ⊢
    rcases found with (extension | found) | found
    · exact .inl (.inl extension)
    · exact (kept (.inl found)).elim (fun k => .inl (.inr k)) .inr
    · exact (kept (.inr found)).elim (fun k => .inl (.inr k)) .inr
  · exact silent classComponents fun _ => map_kind_suggestion _
  · exact silent inlineStyles fun _ => map_kind_suggestion _
  · rw [gravities_listKeys, gravities_listKeys]
    refine sublist_if (fun found => ?_) _
    have react := h.react
    have lists := h.lists
    have keys := h.keys
    simp only [SourceView.ofFile, SourceView.isJsxLike] at found ⊢
    grind
  · exact silent unusedImports gravities_unusedImports
  · rw [gravities_effectDependencies_eq h.names h.effects fileName]
  · exact silent jquery fun _ => map_kind_suggestion _
  · rw [gravities_threeDispose, gravities_threeDispose]
    exact sublist_if (fun found => ⟨h.scenes found.1, mt h.disposal found.2⟩) _
  · exact silent nextLinks fun _ => map_kind_suggestion _

end Script

namespace Html

/-- The groups of checks of a document, in their order. -/
def checkGroups [Engine] : List (Text → List Markup.Check) :=
  [Markup.checkDoctype, Markup.checkStructure, Markup.checkMeta, Markup.checkImages,
    Markup.checkDeprecated, Markup.checkParagraphs, Markup.checkInlineStyles, Markup.checkHeadings,
    isolate ∘ Markup.checkBalance, isolate ∘ Markup.checkLabels, Markup.checkLinks, Markup.checkVoidSlash]

/-- How grave the findings of some checks are. -/
def kindsOfChecks (found : List Markup.Check) : List Markup.FindingKind :=
  found.map fun check => check.finding.kind

theorem kindsOfChecks_checks [Engine] (t : Text) : kindsOfChecks (Markup.checks t) =
    checkGroups.flatMap fun check => kindsOfChecks (check t) := List.map_flatMap

/-- No group of checks has more findings on the second text. -/
def Eased [Engine] (t t' : Text) : Prop :=
  ∀ check ∈ checkGroups, (kindsOfChecks (check t')).Sublist (kindsOfChecks (check t))

/-- How grave the issue of a finding is, if it has one. -/
def gravityOf : Markup.FindingKind → List IssueKind
  | .error => [.error]
  | .warning => [.warning]
  | .suggestion | .info => []

theorem map_kind_outcomesOf (f : Markup.Finding) :
    (issuesOf (outcomesOf f)).map Issue.kind = gravityOf f.kind := by
  have fixes : issuesOf (autofixOf f) = [] := by
    rw [autofixOf]
    split
    · split <;> rfl
    · rfl
  rw [outcomesOf, issuesOf, List.filterMap_append, ← issuesOf, ← issuesOf, fixes, List.append_nil]
  cases f.kind with
  | error => rfl
  | warning => rfl
  | suggestion | info =>
    dsimp only
    split <;> rfl

theorem map_kind_flatMap_outcomesOf (fs : List Markup.Finding) :
    (issuesOf (fs.flatMap outcomesOf)).map Issue.kind =
      (fs.map Markup.Finding.kind).flatMap gravityOf := by
  induction fs with
  | nil => rfl
  | cons f fs ih =>
    rw [List.flatMap_cons, issuesOf, List.filterMap_append, List.map_append, ← issuesOf, ← issuesOf,
      map_kind_outcomesOf, ih, List.map_cons, List.flatMap_cons]

/-- The findings by how grave they are, in the order in which they become issues. -/
def sorted (kinds : List Markup.FindingKind) : List Markup.FindingKind :=
  kinds.filter (· == .error) ++ kinds.filter (· == .warning) ++
    kinds.filter fun kind => kind == .suggestion || kind == .info

theorem sorted_sublist {kinds kinds' : List Markup.FindingKind} (fewer : kinds.Sublist kinds') :
    (sorted kinds).Sublist (sorted kinds') :=
  ((fewer.filter _).append (fewer.filter _)).append (fewer.filter _)

theorem gravities_validation [Engine] (file : SourceView) :
    Rule.gravities validation file =
      (sorted (kindsOfChecks (Markup.checks file.content))).flatMap gravityOf := by
  have kinds (q : Markup.FindingKind → Bool) (found : List Markup.Check) :
      ((found.map Markup.Check.finding).filter fun f => q f.kind).map Markup.Finding.kind =
        (kindsOfChecks found).filter q := by
    rw [kindsOfChecks, List.filter_map, List.filter_map, List.map_map]
    rfl
  rw [Rule.gravities, validation, isolate, map_kind_flatMap_outcomesOf]
  simp only [Markup.validate, List.map_append, sorted]
  rw [← kinds, ← kinds, ← kinds]

theorem flatMap_gravityOf_sorted (kinds : List Markup.FindingKind) :
    (sorted kinds).flatMap gravityOf =
      List.replicate (kinds.count .error) .error ++ List.replicate (kinds.count .warning) .warning := by
  have none : (kinds.filter fun kind => kind == .suggestion || kind == .info).flatMap gravityOf = [] := by
    rw [List.flatMap_eq_nil_iff]
    intro kind mem
    have chosen := (List.mem_filter.1 mem).2
    cases kind with
    | error | warning => cases chosen
    | suggestion | info => rfl
  rw [sorted, List.flatMap_append, List.flatMap_append, none, List.append_nil, List.filter_beq,
    List.filter_beq, List.flatMap_replicate, List.flatMap_replicate]
  simp only [gravityOf, List.flatten_replicate_singleton]

/-- The errors and the warnings among the findings become issues, one each. -/
theorem gravities_validation_eq_kinds [Engine] (file : SourceView) : Rule.gravities validation file =
    List.replicate ((kindsOfChecks (Markup.checks file.content)).count .error) .error ++
      List.replicate ((kindsOfChecks (Markup.checks file.content)).count .warning) .warning := by
  rw [gravities_validation, flatMap_gravityOf_sorted]

/-- The findings of a kind are the checks of that kind. -/
theorem length_filter_kind (kind : Markup.FindingKind) (found : List Markup.Check) :
    ((found.map Markup.Check.finding).filter (·.kind == kind)).length =
      (kindsOfChecks found).count kind := by
  rw [← List.countP_eq_length_filter, List.countP_map, List.count, kindsOfChecks, List.countP_map]
  rfl

theorem gravities_validation_eq [Engine] (file : SourceView) :
    Rule.gravities validation file =
      List.replicate (Markup.validate file.content).errors.length .error ++
        List.replicate (Markup.validate file.content).warnings.length .warning := by
  simp only [Markup.validate, length_filter_kind]
  exact gravities_validation_eq_kinds file

theorem Eased.sublist [Engine] {t t' : Text} (h : Eased t t') (fileName : String) {rule : Rule}
    (mem : rule ∈ rules) :
    (rule.gravities (.ofFile fileName t')).Sublist (rule.gravities (.ofFile fileName t)) := by
  obtain rfl : rule = validation := List.mem_singleton.1 mem
  have fewer : (kindsOfChecks (Markup.checks t')).Sublist (kindsOfChecks (Markup.checks t)) := by
    rw [kindsOfChecks_checks, kindsOfChecks_checks]
    exact List.Sublist.flatMap_right _ h
  rw [gravities_validation, gravities_validation]
  exact (sorted_sublist fewer).flatMap _

end Html

/-- The rules of a family have no more issues on the second text than on the first. -/
def Family.Eased [Engine] : Family → (t t' : Text) → Prop
  | .html => Html.Eased
  | .script => Script.Eased
  | .python => Python.Eased
  | .php => Php.Eased
  | .solidity => Solidity.Eased
  | .vue => Vue.Eased
  | .other => fun _ _ => True

theorem Family.Eased.sublist [Engine] {family : Family} {t t' : Text} (h : family.Eased t t')
    (fileName : String) {rule : Rule} (mem : rule ∈ family.rules) :
    (rule.gravities (.ofFile fileName t')).Sublist (rule.gravities (.ofFile fileName t)) := by
  cases family with
  | html => exact Html.Eased.sublist h fileName mem
  | script => exact Script.Eased.sublist h fileName mem
  | python => exact Python.Eased.sublist h fileName mem
  | php => exact Php.Eased.sublist h fileName mem
  | solidity => exact Solidity.Eased.sublist h fileName mem
  | vue => exact Vue.Eased.sublist h fileName mem
  | other => exact nomatch mem

/-- A text is no worse when neither the rules for every family nor those of its own have more issues
    on it. -/
theorem Eases.of_eased [Engine] {fileName : String} {t t' : Text} (h : Universal.Eased t t')
    (own : (Family.ofName fileName).Eased t t') : Eases fileName t t' := by
  intro rule mem
  exact (List.mem_append.1 mem).elim (h.sublist fileName) (own.sublist fileName)

end SourceAudit
