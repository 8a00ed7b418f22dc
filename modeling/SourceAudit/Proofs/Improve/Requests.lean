/-
Module: SourceAudit.Proofs.Improve.Requests
Layer: Proofs
Purpose: An improvement as a row of fixes. Of the suggestions only the fixes they ask for count: the code
  of an improvement is what these leave of the text, one after the other. The suggestions of a report ask
  for no fix but those of the rules for its family, and by which of them a file is improved can be chosen.
Main exports: Suggestion.request?, FixKind.applied, improvedCode_eq_foldl, ownRequests,
  isAskedIn_of_mem_ownRequests, ownImprovement, chosenImprovement, chosenImprovement_eq_foldl
-/
import SourceAudit.Improve.Basic
import SourceAudit.Proofs.Report.Autofix

namespace SourceAudit

/-- The fix that a suggestion asks for, if it asks for one. -/
def Suggestion.request? (s : Suggestion) : Option FixKind := if s.autoFix then s.kind? else none

/-- The code that a fix leaves: as it was, if the fix fails. -/
def FixKind.applied [Engine] (fileName code : String) (kind : FixKind) : String :=
  match applyFix kind fileName code with
  | .ok new => new
  | .error _ => code

theorem Progress.code_step [Engine] (fileName : String) (p : Progress) (s : Suggestion) :
    (p.step fileName s).code = (s.request?.elim p.code (FixKind.applied fileName p.code)) := by
  rw [Progress.step, Suggestion.request?]
  split
  · cases s.kind? with
    | none => rfl
    | some kind =>
      simp only [Option.elim_some, FixKind.applied]
      cases applyFix kind fileName p.code <;> rfl
  · rfl

theorem code_foldl_step [Engine] (fileName : String) (p : Progress) (suggestions : List Suggestion) :
    (suggestions.foldl (Progress.step fileName) p).code =
      (suggestions.filterMap Suggestion.request?).foldl (FixKind.applied fileName) p.code := by
  induction suggestions generalizing p with
  | nil => rfl
  | cons s suggestions ih =>
    rw [List.foldl_cons, ih, Progress.code_step, List.filterMap_cons]
    cases s.request? <;> rfl

/-- The code of an improvement is what the fixes that are asked for leave of the text. -/
theorem improvedCode_eq_foldl [Engine] (fileName content : String) (suggestions : List Suggestion) :
    (improve fileName content suggestions).improvedCode =
      (suggestions.filterMap Suggestion.request?).foldl (FixKind.applied fileName) content :=
  code_foldl_step fileName _ suggestions

/-! ### The suggestions of a report -/

/-- The fixes that the report on a file asks for, in order. -/
def ownRequests [Engine] (fileName content : String) : List FixKind :=
  (analyzeFile fileName content "").suggestions.filterMap Suggestion.request?

/-- The report asks for no fix but those that the rules for its family ask for. -/
theorem isAskedIn_of_mem_ownRequests [Engine] {fileName content : String} {kind : FixKind}
    (mem : kind ∈ ownRequests fileName content) : kind.isAskedIn (Family.ofName fileName) = true := by
  obtain ⟨s, reported, asks⟩ := List.mem_filterMap.1 mem
  cases isOutcomeOf_of_mem_suggestions reported with
  | byHand byHand => simp [Suggestion.request?, byHand] at asks
  | byFix words =>
    obtain ⟨kind', named, asked⟩ := words.exists_fixKind
    rw [Suggestion.request?, kind?_eq_fixKind (by rw [named]; rfl), named] at asks
    split at asks
    · obtain rfl := Option.some.inj asks
      exact asked
    · cases asks

/-- A file improved by its own suggestions. -/
def ownImprovement [Engine] (fileName content fileType : String) : String :=
  (improve fileName content (analyzeFile fileName content fileType).suggestions).improvedCode

/-- A file improved by those of its own suggestions that ask for no fix or for a chosen one. -/
def chosenImprovement [Engine] (chosen : FixKind → Bool) (fileName content fileType : String) : String :=
  (improve fileName content ((analyzeFile fileName content fileType).suggestions.filter
    fun s => s.request?.all chosen)).improvedCode

theorem chosenImprovement_eq_foldl [Engine] (chosen : FixKind → Bool) (fileName content fileType : String) :
    chosenImprovement chosen fileName content fileType =
      ((ownRequests fileName content).filter chosen).foldl (FixKind.applied fileName) content := by
  have sieve (s : Suggestion) : (if s.request?.all chosen = true then s.request? else none) =
      s.request?.filter chosen := by
    cases s.request? <;> rfl
  rw [chosenImprovement, improvedCode_eq_foldl, ownRequests, List.filterMap_filter, List.filter_filterMap]
  simp only [sieve]
  rfl

end SourceAudit
