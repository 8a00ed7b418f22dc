/-
Module: SourceAudit.Proofs.Debugging.Statement
Layer: Proofs
Purpose: A debug statement put behind a text, on a line of its own. It takes no finding away from a file
  of any family but markup: what a rule looks for is still there, and what silences a rule is not in the
  statement, nor can a tag or a call of the text run out into it. The headers of functions can do so and
  have their own module.
Main exports: debugStatement, includes_debugStatement, occurs_debugStatement, findAll_debugStatement,
  universal_eased_debugStatement, count_universal_debugStatement, script_eased_debugStatement
-/
import SourceAudit.Proofs.Pattern.Back
import SourceAudit.Proofs.Report.FamilyGravity

namespace SourceAudit

open Pattern

/-- The statement, with the line break in front of it. -/
def debugStatement : Text := "\nconsole.log('debug');".toList

theorem startsWithFeed_debugStatement : StartsWithFeed debugStatement := rfl

/-- What the statement does not include is not new behind it. -/
theorem includes_debugStatement {needle : Text} (absent : '\n' ∉ needle)
    (foreign : ¬ needle <:+: "console.log('debug');".toList) (t : Text) :
    (t ++ debugStatement).includes needle = t.includes needle := by
  refine Text.includes_congr ?_
  have seam : t ++ debugStatement = t ++ '\n' :: "console.log('debug');".toList := rfl
  rw [seam, Text.infix_append_cons absent, or_iff_left foreign]

section

variable {p : Pattern} (edges : p.isWordEdged = true) (still : p.isStill debugStatement = true)
  (t : Text)
include edges still

theorem occurs_debugStatement : p.occurs (t ++ debugStatement) = p.occurs t :=
  occurs_back_eq startsWithFeed_debugStatement edges (stays_of_isStill still)

theorem findAll_debugStatement : List.Forall₂ (Hit.Alike (SamePlace t debugStatement)) (p.findAll t)
    (p.findAll (t ++ debugStatement)) :=
  findAll_back startsWithFeed_debugStatement edges (stays_of_isStill still)

end

/-- What occurs in a text occurs in front of the statement. -/
theorem occurs_of_occurs {p : Pattern} (edges : p.isWordEdged = true) (moves : p.isSkippable = false)
    {t : Text} (found : p.occurs t = true) : p.occurs (t ++ debugStatement) = true :=
  occurs_back startsWithFeed_debugStatement edges moves found

theorem universal_eased_debugStatement (t : Text) : Universal.Eased (t ++ debugStatement) t where
  logging found := Text.includes_append found _
  declarations := occurs_of_occurs rfl rfl
  tasks found := by
    rw [Bool.or_eq_true] at found ⊢
    exact found.imp (Text.includes_append · _) (Text.includes_append · _)

/-- The statement adds its own finding, unless the text has one of the kind already. -/
theorem count_universal_debugStatement (fileName : String) (t : Text) :
    (Universal.rules.flatMap fun rule => rule.gravities (.ofFile fileName t)).count .warning +
        (if t.includes "console.log" then 0 else 1) ≤
      (Universal.rules.flatMap fun rule =>
        rule.gravities (.ofFile fileName (t ++ debugStatement))).count .warning := by
  have logging : (t ++ debugStatement).includes "console.log" = true :=
    (Text.includes_iff _ _).2 (List.infix_append_of_infix_right (by decide))
  have own : (if t.includes "console.log" then [IssueKind.warning] else []).count .warning +
      (if t.includes "console.log" then 0 else 1) = 1 := by
    split <;> rfl
  have dated := (sublist_if (universal_eased_debugStatement t).declarations .warning).count_le .warning
  have tasks (found : Prop) [Decidable found] :
      (if found then [IssueKind.info] else []).count .warning = 0 := by
    split <;> rfl
  rw [Universal.flatMap_gravities, Universal.flatMap_gravities, if_pos logging]
  simp only [List.count_append, tasks, List.count_singleton_self]
  omega

theorem python_eased_debugStatement (t : Text) : Python.Eased (t ++ debugStatement) t where
  printing := occurs_of_occurs rfl rfl
  indices := occurs_of_occurs rfl rfl
  comparisons := occurs_of_occurs rfl rfl

theorem php_eased_debugStatement (t : Text) : Php.Eased (t ++ debugStatement) t where
  queries found := Text.includes_append found _
  endings := occurs_of_occurs rfl rfl
  opening found := by rwa [includes_debugStatement (by decide) (by decide)] at found

theorem vue_eased_debugStatement (t : Text) : Vue.Eased (t ++ debugStatement) t := by
  have hits := findAll_debugStatement (p := Vue.forTag) rfl (by decide) t
  refine Nat.le_of_eq (length_filter_eq (hits.imp fun hit hit' alike => ?_))
  rw [Hit.chars_back alike]

theorem script_eased_debugStatement [Engine] (t : Text) : Script.Eased (t ++ debugStatement) t where
  imports found := by
    rwa [includes_debugStatement (by decide) (by decide),
      includes_debugStatement (by decide) (by decide)] at found
  react found := by
    rw [SourceView.importsReact, Bool.or_eq_true] at found ⊢
    exact found.imp (Text.includes_append · _) (Text.includes_append · _)
  lists found := Text.includes_append found _
  keys found := by rwa [includes_debugStatement (by decide) (by decide)] at found
  names := by
    refine (map_eq_of_forall₂ ?_).symm
    refine (findAll_debugStatement (p := Script.stateHook) rfl (by decide) t).imp ?_
    exact fun hit hit' alike => (Hit.groupChars_back alike 1).symm
  effects := by
    refine List.Forall₂.flip ?_
    refine (findAll_debugStatement (p := Script.effect) rfl (by decide) t).imp ?_
    intro hit hit' alike name _
    rw [Script.declaredNames, Script.declaredNames, Hit.groupChars_back alike 1,
      Hit.groupChars_back alike 2]
    exact ⟨rfl, rfl⟩
  scenes := occurs_of_occurs rfl rfl
  disposal found := by rwa [includes_debugStatement (by decide) (by decide)] at found

end SourceAudit
