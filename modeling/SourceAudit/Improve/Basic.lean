/-
Module: SourceAudit.Improve.Basic
Layer: Improvement
Purpose: Improving a file by its suggestions. Those that ask for a fix are taken in order, each
  rule working on what the rules before it left; a suggestion that names no known rule, or whose rule
  fails, is put aside with the reason and leaves the text as it is.
Main exports: AppliedFix, SkippedFix, Improvement, Suggestion.kind?, Progress.step, improve,
  Round, improveRounds, ChainStep, runChain
-/
import SourceAudit.Improve.Comparison
import SourceAudit.Report.File
import SourceAudit.Fix.Apply

namespace SourceAudit

/-- A suggestion whose rule has run. -/
structure AppliedFix where
  category : String
  message : String
  fixCode : Option String
  fixKind : FixKind
deriving DecidableEq, Repr

/-- A suggestion that could not be followed. -/
structure SkippedFix where
  category : String
  message : String
  reason : String
deriving DecidableEq, Repr

/-- The result of improving a file. -/
structure Improvement where
  improvedCode : String
  appliedFixes : List AppliedFix
  skippedFixes : List SkippedFix
  metrics : ImprovementMetrics
  hasChanges : Bool
deriving Repr

/-- The reason for putting aside a suggestion that names no known rule. -/
def noApplicableFix : String := "No applicable fix found"

/-- The rule a suggestion asks for: the one it names, or else the one its wording points to. -/
def Suggestion.kind? (s : Suggestion) : Option FixKind :=
  match s.fixKind with
  | some kind => some kind
  | none => FixKind.infer? s.category s.message s.fixCode

/-- An improvement under way. -/
structure Progress where
  code : String
  applied : List AppliedFix
  skipped : List SkippedFix
deriving DecidableEq, Repr

namespace Progress

/-- The progress with a suggestion put aside. -/
def skip (p : Progress) (s : Suggestion) (reason : String) : Progress :=
  { p with skipped := p.skipped ++ [⟨s.category, s.message, reason⟩] }

/-- The progress after one more suggestion. -/
def step [Engine] (fileName : String) (p : Progress) (s : Suggestion) : Progress :=
  if s.autoFix then
    match s.kind? with
    | none => p.skip s noApplicableFix
    | some kind =>
      match applyFix kind fileName p.code with
      | .ok code =>
        { p with code, applied := p.applied ++ [⟨s.category, s.message, s.fixCode, kind⟩] }
      | .error fault => p.skip s fault.message
  else p

end Progress

/-- Improves a file by its suggestions. -/
def improve [Engine] (fileName content : String) (suggestions : List Suggestion) : Improvement :=
  let p := suggestions.foldl (Progress.step fileName) ⟨content, [], []⟩
  { improvedCode := p.code
    appliedFixes := p.applied
    skippedFixes := p.skipped
    metrics := .between content p.code
    hasChanges := p.code != content }

/-- One round of analysis and improvement. -/
structure Round where
  score : UInt8
  issues : List Issue
  applied : List FixKind
  code : String
deriving DecidableEq, Repr

/-- Rounds of analysis and improvement, each on the text that the one before left. -/
def improveRounds [Engine] (fileName : String) : (rounds : Nat) → (content : String) → List Round
  | 0, _ => []
  | rounds + 1, content =>
    let report := analyzeFile fileName content ""
    let result := improve fileName content report.suggestions
    ⟨report.qualityScore, report.issues, result.appliedFixes.map AppliedFix.fixKind,
        result.improvedCode⟩ :: improveRounds fileName rounds result.improvedCode

/-- One rule of a chain: what was asked for, and the text it left or the fault that kept the text as
    it was. -/
inductive ChainStep where
  | unknown
  | edited (kind : FixKind) (changed : Bool) (code : String)
  | failed (kind : FixKind) (fault : Fault)
deriving DecidableEq, Repr

/-- Rules given by identifier, run one after the other. -/
def runChain [Engine] (fileName : String) : (code : String) → List String → List ChainStep
  | _, [] => []
  | code, id :: ids =>
    match FixKind.ofId? id with
    | none => .unknown :: runChain fileName code ids
    | some kind =>
      match applyFix kind fileName code with
      | .ok new => .edited kind (new != code) new :: runChain fileName new ids
      | .error fault => .failed kind fault :: runChain fileName code ids

end SourceAudit
