/-
Module: SourceAudit.Proofs.Improve.Account
Layer: Proofs
Purpose: An improvement accounts for every suggestion. A run is taken apart at any place: what the
  first part has done stays in front of what the second part does from the text it was left. Of the
  suggestions only those that ask for a fix count, each of them with one entry, and a suggestion that
  is put aside passes the text on as it is.
Main exports: Progress.after, FixEntry, FixAccount, foldl_step_eq_after, foldl_step_filter,
  exists_fixAccount, improve_accounts_for_suggestions
-/
import SourceAudit.Improve.Basic

namespace SourceAudit

namespace Progress

/-- The progress of two stretches of a run, the second of which started from the text that the first
    one left. -/
def after (p q : Progress) : Progress := ⟨q.code, p.applied ++ q.applied, p.skipped ++ q.skipped⟩

/-- An improvement that has done nothing yet. -/
def fresh (code : String) : Progress := ⟨code, [], []⟩

theorem after_fresh (p : Progress) : p.after (fresh p.code) = p := by
  simp [after, fresh]

theorem after_assoc (p q r : Progress) : (p.after q).after r = p.after (q.after r) := by
  simp [after]

/-- What a suggestion does depends on the text alone, and only adds to what has been noted. -/
theorem step_eq_after [Engine] (fileName : String) (p : Progress) (s : Suggestion) :
    step fileName p s = p.after (step fileName (fresh p.code) s) := by
  simp only [step]
  split
  · cases s.kind? with
    | none => simp [skip, after, fresh]
    | some kind =>
      cases ran : applyFix kind fileName p.code with
      | ok code => simp [after, fresh, ran]
      | error fault => simp [skip, after, fresh, ran]
  · exact (after_fresh p).symm

/-- The same for a run through any number of suggestions. -/
theorem foldl_step_eq_after [Engine] (fileName : String) (p : Progress) (suggestions : List Suggestion) :
    suggestions.foldl (step fileName) p =
      p.after (suggestions.foldl (step fileName) (fresh p.code)) := by
  induction suggestions generalizing p with
  | nil => exact (after_fresh p).symm
  | cons s rest ih =>
    have here : (step fileName p s).code = (step fileName (fresh p.code) s).code := by
      rw [step_eq_after, after]
    calc rest.foldl (step fileName) (step fileName p s)
        = (step fileName p s).after
            (rest.foldl (step fileName) (fresh (step fileName p s).code)) := ih _
      _ = p.after ((step fileName (fresh p.code) s).after
            (rest.foldl (step fileName) (fresh (step fileName (fresh p.code) s).code))) := by
          rw [here, step_eq_after fileName p s, after_assoc]
      _ = p.after (rest.foldl (step fileName) (step fileName (fresh p.code) s)) := by
          rw [← ih]

/-- Suggestions that ask for no fix are passed over. -/
theorem foldl_step_filter [Engine] (fileName : String) (p : Progress) (suggestions : List Suggestion) :
    (suggestions.filter (·.autoFix)).foldl (step fileName) p =
      suggestions.foldl (step fileName) p := by
  rw [List.foldl_filter]
  congr
  funext p s
  cases asks : s.autoFix with
  | true => simp
  | false => simp [step, asks]

end Progress

/-- What became of a suggestion that asks for a fix. -/
inductive FixEntry where
  | applied (fix : AppliedFix)
  | skipped (fix : SkippedFix)

namespace FixEntry

/-- The fix of an entry, if it was applied. -/
@[simp] def applied? : FixEntry → Option AppliedFix
  | .applied fix => some fix
  | .skipped _ => none

/-- The fix of an entry, if it was put aside. -/
@[simp] def skipped? : FixEntry → Option SkippedFix
  | .applied _ => none
  | .skipped fix => some fix

end FixEntry

/-- The account of a run through suggestions that all ask for a fix, from one text to another: an
    entry for each of them, in order. A rule that succeeds passes its result on; where no rule is known
    or the rule fails, the text is passed on as it is. -/
inductive FixAccount [Engine] (fileName : String) :
    (code : String) → List Suggestion → List FixEntry → (last : String) → Prop where
  | done {code : String} : FixAccount fileName code [] [] code
  | applied {code next last : String} {s : Suggestion} {rest : List Suggestion}
      {entries : List FixEntry} {kind : FixKind} (asks : s.kind? = some kind)
      (ran : applyFix kind fileName code = .ok next)
      (later : FixAccount fileName next rest entries last) :
      FixAccount fileName code (s :: rest)
        (.applied ⟨s.category, s.message, s.fixCode, kind⟩ :: entries) last
  | unknown {code last : String} {s : Suggestion} {rest : List Suggestion} {entries : List FixEntry}
      (asks : s.kind? = none) (later : FixAccount fileName code rest entries last) :
      FixAccount fileName code (s :: rest)
        (.skipped ⟨s.category, s.message, noApplicableFix⟩ :: entries) last
  | failed {code last : String} {s : Suggestion} {rest : List Suggestion} {entries : List FixEntry}
      {kind : FixKind} {fault : Fault} (asks : s.kind? = some kind)
      (ran : applyFix kind fileName code = .error fault)
      (later : FixAccount fileName code rest entries last) :
      FixAccount fileName code (s :: rest)
        (.skipped ⟨s.category, s.message, fault.message⟩ :: entries) last

/-- What one suggestion that asks for a fix does: its rule succeeds, or it names no known rule, or its
    rule fails. -/
theorem Progress.step_cases [Engine] (fileName code : String) {s : Suggestion} (ask : s.autoFix = true) :
    (∃ kind next, s.kind? = some kind ∧ applyFix kind fileName code = .ok next ∧
      step fileName (fresh code) s = ⟨next, [⟨s.category, s.message, s.fixCode, kind⟩], []⟩) ∨
    (s.kind? = none ∧
      step fileName (fresh code) s = ⟨code, [], [⟨s.category, s.message, noApplicableFix⟩]⟩) ∨
    ∃ kind fault, s.kind? = some kind ∧ applyFix kind fileName code = .error fault ∧
      step fileName (fresh code) s = ⟨code, [], [⟨s.category, s.message, fault.message⟩]⟩ := by
  cases asks : s.kind? with
  | none => exact .inr (.inl ⟨rfl, by simp [step, fresh, skip, ask, asks]⟩)
  | some kind =>
    cases ran : applyFix kind fileName code with
    | ok next => exact .inl ⟨kind, next, rfl, ran, by simp [step, fresh, ask, asks, ran]⟩
    | error fault =>
      exact .inr (.inr ⟨kind, fault, rfl, ran, by simp [step, fresh, skip, ask, asks, ran]⟩)

/-- Every run through suggestions that ask for a fix has an account, and what it has noted are the
    entries of the account. -/
theorem exists_fixAccount [Engine] (fileName code : String) {suggestions : List Suggestion}
    (ask : ∀ s ∈ suggestions, s.autoFix = true) :
    ∃ entries,
      FixAccount fileName code suggestions entries
        (suggestions.foldl (Progress.step fileName) (.fresh code)).code ∧
      (suggestions.foldl (Progress.step fileName) (.fresh code)).applied =
        entries.filterMap FixEntry.applied? ∧
      (suggestions.foldl (Progress.step fileName) (.fresh code)).skipped =
        entries.filterMap FixEntry.skipped? := by
  induction suggestions generalizing code with
  | nil => exact ⟨[], .done, rfl, rfl⟩
  | cons s rest ih =>
    obtain ⟨hs, hrest⟩ := List.forall_mem_cons.1 ask
    rw [List.foldl_cons, Progress.foldl_step_eq_after]
    rcases Progress.step_cases fileName code hs with
      ⟨kind, next, asks, ran, step⟩ | ⟨asks, step⟩ | ⟨kind, fault, asks, ran, step⟩
    · obtain ⟨entries, account, applied, skipped⟩ := ih next hrest
      rw [step]
      refine ⟨_, .applied asks ran account, ?_, ?_⟩
      · simp [Progress.after, applied]
      · simp [Progress.after, skipped, List.filterMap_cons]
    · obtain ⟨entries, account, applied, skipped⟩ := ih code hrest
      rw [step]
      refine ⟨_, .unknown asks account, ?_, ?_⟩
      · simp [Progress.after, applied, List.filterMap_cons]
      · simp [Progress.after, skipped]
    · obtain ⟨entries, account, applied, skipped⟩ := ih code hrest
      rw [step]
      refine ⟨_, .failed asks ran account, ?_, ?_⟩
      · simp [Progress.after, applied, List.filterMap_cons]
      · simp [Progress.after, skipped]

/-- Improving by suggestions is a run from the text to its improvement: two runs one after the other
    are the run by all their suggestions; suggestions that ask for no fix have no effect; each of the
    others has one entry, applied or put aside, and one that is put aside leaves the text; and changes
    are reported exactly if the text is another one. -/
theorem improve_accounts_for_suggestions [Engine] (fileName content : String) :
    (∀ first second : List Suggestion,
      let one := improve fileName content first
      let two := improve fileName one.improvedCode second
      let both := improve fileName content (first ++ second)
      both.improvedCode = two.improvedCode ∧
        both.appliedFixes = one.appliedFixes ++ two.appliedFixes ∧
        both.skippedFixes = one.skippedFixes ++ two.skippedFixes) ∧
    (∀ suggestions : List Suggestion,
      improve fileName content suggestions =
        improve fileName content (suggestions.filter (·.autoFix))) ∧
    (∀ suggestions : List Suggestion,
      let result := improve fileName content suggestions
      (∃ entries,
        FixAccount fileName content (suggestions.filter (·.autoFix)) entries result.improvedCode ∧
          result.appliedFixes = entries.filterMap FixEntry.applied? ∧
          result.skippedFixes = entries.filterMap FixEntry.skipped?) ∧
      (result.hasChanges = true ↔ result.improvedCode ≠ content)) := by
  refine ⟨?_, ?_, ?_⟩
  · intro first second one two both
    have joined : (first ++ second).foldl (Progress.step fileName) (.fresh content) =
        (first.foldl (Progress.step fileName) (.fresh content)).after
          (second.foldl (Progress.step fileName) (.fresh one.improvedCode)) := by
      rw [List.foldl_append, Progress.foldl_step_eq_after]
      rfl
    have code := congrArg Progress.code joined
    have applied := congrArg Progress.applied joined
    have skipped := congrArg Progress.skipped joined
    exact ⟨code, applied, skipped⟩
  · intro suggestions
    rw [improve, improve, Progress.foldl_step_filter]
  · intro suggestions result
    have ask : ∀ s ∈ suggestions.filter (·.autoFix), s.autoFix = true := by
      intro s hs
      exact (List.mem_filter.1 hs).2
    have account := exists_fixAccount fileName content ask
    rw [Progress.foldl_step_filter] at account
    exact ⟨account, bne_iff_ne⟩

end SourceAudit
