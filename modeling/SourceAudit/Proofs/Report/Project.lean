/-
Module: SourceAudit.Proofs.Report.Project
Layer: Proofs
Purpose: What the report on a project says about its files and about its parts. But for the import graph,
  a file is reported as if it were alone. The totals of two parts add up to those of the whole, and the
  order of the files does not matter; the totals are words of 64 bits, which start again at zero, so an
  error total of exactly that many is taken for none.
Main exports: FileReport.withoutDependencies, SumsUp, SameTotals, TotalsFit, summarize_append,
  summarize_perm, status_summarize_wraps, ProjectReport.FitsMemory, analyzeProject_append,
  analyzeProject_perm, project_is_sum_of_files
-/
import SourceAudit.Report.Project
import Mathlib.Data.List.Basic

namespace SourceAudit

/-! ### One file of a project -/

/-- The report on a file without the part of the import graph. -/
def FileReport.withoutDependencies (report : FileReport) : FileReport :=
  { report with deepAnalysis := report.deepAnalysis.map fun deep => { deep with dependencies := none } }

/-- The import graph goes into no finding and no score. -/
theorem deepAnalysisWith_none [Engine] (fileName content : String) (dependencies : Option DependencyAnalysis) :
    { deepAnalysisWith fileName content dependencies with dependencies := none } =
      deepAnalysisWith fileName content none := rfl

theorem withoutDependencies_eq_self {report : FileReport} (shallow : report.deepAnalysis = none) :
    report.withoutDependencies = report := by
  rw [FileReport.withoutDependencies, shallow, Option.map_none, ← shallow]

theorem withoutDependencies_projectFileReport [Engine] (dependencies : Option DependencyAnalysis)
    (file : SourceFile) :
    (projectFileReport dependencies file).withoutDependencies = projectFileReport none file := by
  simp only [projectFileReport]
  split
  · rw [FileReport.withoutDependencies, Option.map_some, deepAnalysisWith_none]
  · exact withoutDependencies_eq_self rfl

/-- Without the import graph, every file is reported as the only file of a project is. -/
theorem getElem?_files_analyzeProject [Engine] (files : List SourceFile) (i : Nat) :
    (analyzeProject files).files[i]?.map FileReport.withoutDependencies =
      files[i]?.bind fun file => (analyzeProject [file]).files[0]? := by
  simp only [analyzeProject, List.getElem?_map, Option.map_map, Function.comp_def,
    withoutDependencies_projectFileReport]
  exact Option.map_eq_bind

/-! ### Totals -/

theorem total_perm {a b : List Nat} (same : a.Perm b) : total a = total b :=
  same.foldr_eq' (fun x _ y _ z => Nat.add_left_comm y x z) 0

/-- The sum of two words of 64 bits. -/
def addWords (a b : Nat) : Nat := (a + b) % wordSize

theorem wordTotal_append (a b : List Nat) : wordTotal (a ++ b) = addWords (wordTotal a) (wordTotal b) := by
  rw [wordTotal, wordTotal, wordTotal, addWords, total_append, ← Nat.add_mod]

theorem wordTotal_perm {a b : List Nat} (same : a.Perm b) : wordTotal a = wordTotal b := by
  rw [wordTotal, wordTotal, total_perm same]

/-- A sum of words is zero if both are, or if it is just too great for a word. -/
theorem addWords_eq_zero_iff {a b : Nat} (first : a < wordSize) (second : b < wordSize) :
    addWords a b = 0 ↔ (a = 0 ∧ b = 0) ∨ a + b = wordSize := by
  simp only [addWords, wordSize] at *
  omega

/-! ### The summary of a project -/

/-- A project passes if it has no error. -/
theorem status_summarize_iff {files : List FileReport} {shares : LanguageShares} :
    (summarize files shares).status = .passed ↔ (summarize files shares).totalErrors = 0 := by
  simp only [summarize]
  split <;> simp_all

/-- The totals of a whole are made from those of two parts. -/
structure SumsUp (add : Nat → Nat → Nat) (whole first second : ProjectSummary) : Prop where
  errors : whole.totalErrors = add first.totalErrors second.totalErrors
  warnings : whole.totalWarnings = add first.totalWarnings second.totalWarnings
  lines : whole.totalLines = add first.totalLines second.totalLines

/-- Two summaries with the same totals and the same verdict. -/
structure SameTotals (a b : ProjectSummary) : Prop where
  errors : a.totalErrors = b.totalErrors
  warnings : a.totalWarnings = b.totalWarnings
  lines : a.totalLines = b.totalLines
  status : a.status = b.status

/-- The totals of file reports are small enough for a word. -/
structure TotalsFit (files : List FileReport) : Prop where
  errors : total (files.map FileReport.errorCount) < wordSize
  warnings : total (files.map FileReport.warningCount) < wordSize
  lines : total (files.map FileReport.lines) < wordSize

theorem SumsUp.congr {add : Nat → Nat → Nat} {whole first second whole' first' second' : ProjectSummary}
    (sums : SumsUp add whole first second) (w : SameTotals whole' whole) (f : SameTotals first' first)
    (s : SameTotals second' second) : SumsUp add whole' first' second' where
  errors := by rw [w.errors, f.errors, s.errors, sums.errors]
  warnings := by rw [w.warnings, f.warnings, s.warnings, sums.warnings]
  lines := by rw [w.lines, f.lines, s.lines, sums.lines]

theorem summarize_append (a b : List FileReport) (whole first second : LanguageShares) :
    SumsUp addWords (summarize (a ++ b) whole) (summarize a first) (summarize b second) where
  errors := by simp only [summarize, List.map_append, wordTotal_append]
  warnings := by simp only [summarize, List.map_append, wordTotal_append]
  lines := by simp only [summarize, List.map_append, wordTotal_append]

theorem summarize_perm {a b : List FileReport} (same : a.Perm b) (shares shares' : LanguageShares) :
    SameTotals (summarize a shares) (summarize b shares') where
  errors := wordTotal_perm (same.map _)
  warnings := wordTotal_perm (same.map _)
  lines := wordTotal_perm (same.map _)
  status := by rw [summarize, summarize, wordTotal_perm (same.map FileReport.errorCount)]

/-- Reports pass together if both parts pass, or if their errors are just too many for a word. -/
theorem status_summarize_append (a b : List FileReport) (whole first second : LanguageShares) :
    (summarize (a ++ b) whole).status = .passed ↔
      ((summarize a first).status = .passed ∧ (summarize b second).status = .passed) ∨
        (summarize a first).totalErrors + (summarize b second).totalErrors = wordSize := by
  have word (files : List FileReport) (shares : LanguageShares) :
      (summarize files shares).totalErrors < wordSize := Nat.mod_lt _ (by decide)
  rw [status_summarize_iff, status_summarize_iff, status_summarize_iff,
    (summarize_append a b whole first second).errors,
    addWords_eq_zero_iff (word a first) (word b second)]

/-- As long as the sum of two parts fits into a word, it is the plain sum. -/
theorem wordTotal_map_append {field : FileReport → Nat} {a b : List FileReport}
    (fits : total ((a ++ b).map field) < wordSize) :
    wordTotal ((a ++ b).map field) = wordTotal (a.map field) + wordTotal (b.map field) := by
  have sum : total ((a ++ b).map field) = total (a.map field) + total (b.map field) := by
    rw [List.map_append, total_append]
  rw [wordTotal_eq_total fits, wordTotal_eq_total (by omega), wordTotal_eq_total (by omega), sum]

/-- Reports whose totals fit into a word add up, and pass together exactly if both parts pass. -/
theorem TotalsFit.summarize_append {a b : List FileReport} (fits : TotalsFit (a ++ b))
    (whole first second : LanguageShares) :
    SumsUp (· + ·) (summarize (a ++ b) whole) (summarize a first) (summarize b second) ∧
      ((summarize (a ++ b) whole).status = .passed ↔
        (summarize a first).status = .passed ∧ (summarize b second).status = .passed) := by
  have errors := wordTotal_map_append fits.errors
  refine ⟨⟨errors, wordTotal_map_append fits.warnings, wordTotal_map_append fits.lines⟩, ?_⟩
  rw [status_summarize_iff, status_summarize_iff, status_summarize_iff, ← Nat.add_eq_zero_iff]
  exact Eq.congr_left errors

/-- A report on a file in which only the errors are counted. -/
def errorReport (errors : Nat) : FileReport :=
  { fileName := "", fileType := "", lines := 1, size := 0, issues := [], suggestions := []
    errorCount := errors, warningCount := 0, infoCount := 0, qualityScore := 0, contentPreview := ""
    language := none, deepAnalysis := none }

/-- Two parts fail and the whole passes: with the greatest word and one more, the errors start again at
    zero. -/
theorem status_summarize_wraps :
    (summarize [errorReport 18446744073709551615] .empty).status = .failed ∧
      (summarize [errorReport 1] .empty).status = .failed ∧
      (summarize ([errorReport 18446744073709551615] ++ [errorReport 1]) .empty).status = .passed ∧
      (summarize ([errorReport 18446744073709551615] ++ [errorReport 1]) .empty).totalErrors = 0 := by
  decide

/-- A project report that memory can hold: all its issues, and all the lines it counts, are there at
    once, so a word can number them. -/
structure ProjectReport.FitsMemory (report : ProjectReport) : Prop where
  issues : total (report.files.map fun file => file.issues.length) < wordSize
  lines : total (report.files.map FileReport.lines) < wordSize

theorem total_map_le {α : Type} {f g : α → Nat} {xs : List α} (h : ∀ x ∈ xs, f x ≤ g x) :
    total (xs.map f) ≤ total (xs.map g) := by
  induction xs with
  | nil => exact Nat.le_refl 0
  | cons x xs ih =>
    obtain ⟨here, rest⟩ := List.forall_mem_cons.1 h
    exact Nat.add_le_add here (ih rest)

/-- The counts of a report are no greater than the number of its issues. -/
theorem counts_projectFileReport_le [Engine] (dependencies : Option DependencyAnalysis)
    (file : SourceFile) :
    (projectFileReport dependencies file).errorCount ≤
        (projectFileReport dependencies file).issues.length ∧
      (projectFileReport dependencies file).warningCount ≤
        (projectFileReport dependencies file).issues.length := by
  rw [projectFileReport]
  split <;> exact ⟨List.countP_le_length, List.countP_le_length⟩

/-- The totals of a project that memory can hold fit into a word. -/
theorem ProjectReport.FitsMemory.totalsFit [Engine] {files : List SourceFile}
    (fits : (analyzeProject files).FitsMemory) : TotalsFit (analyzeProject files).files := by
  have counted : ∀ report ∈ (analyzeProject files).files,
      report.errorCount ≤ report.issues.length ∧ report.warningCount ≤ report.issues.length :=
    List.forall_mem_map.2 fun file _ => counts_projectFileReport_le _ file
  exact ⟨Nat.lt_of_le_of_lt (total_map_le fun report mem => (counted report mem).1) fits.issues,
    Nat.lt_of_le_of_lt (total_map_le fun report mem => (counted report mem).2) fits.issues, fits.lines⟩

/-- A count that does not look at the import graph is the same for every file taken alone. -/
theorem map_files_analyzeProject [Engine] {field : FileReport → Nat}
    (blind : ∀ report, field (report.withoutDependencies) = field report) (files : List SourceFile) :
    (analyzeProject files).files.map field = (files.map (projectFileReport none)).map field := by
  rw [analyzeProject, List.map_map, List.map_map]
  refine List.map_congr_left fun file _ => ?_
  rw [Function.comp_apply, Function.comp_apply, ← blind, withoutDependencies_projectFileReport]

/-- The totals of a project are those of its files, each taken alone. -/
theorem sameTotals_analyzeProject [Engine] (files : List SourceFile) :
    SameTotals (analyzeProject files).summary
      (summarize (files.map (projectFileReport none)) .empty) := by
  have errors : (analyzeProject files).files.map FileReport.errorCount = _ :=
    map_files_analyzeProject (fun _ => rfl) files
  have warnings : (analyzeProject files).files.map FileReport.warningCount = _ :=
    map_files_analyzeProject (fun _ => rfl) files
  have lines : (analyzeProject files).files.map FileReport.lines = _ :=
    map_files_analyzeProject (fun _ => rfl) files
  rw [analyzeProject] at errors warnings lines
  constructor <;> simp only [analyzeProject, summarize, errors, warnings, lines]

/-- The totals of a project are sums of words. Where the report on the whole is in memory the sums are
    plain ones, and the project passes exactly if both of its parts do. -/
theorem analyzeProject_append [Engine] (p q : List SourceFile) :
    SumsUp addWords (analyzeProject (p ++ q)).summary (analyzeProject p).summary
        (analyzeProject q).summary ∧
      ((analyzeProject (p ++ q)).FitsMemory →
        SumsUp (· + ·) (analyzeProject (p ++ q)).summary (analyzeProject p).summary
            (analyzeProject q).summary ∧
          ((analyzeProject (p ++ q)).summary.status = .passed ↔
            (analyzeProject p).summary.status = .passed ∧
              (analyzeProject q).summary.status = .passed)) := by
  have whole := sameTotals_analyzeProject (p ++ q)
  have first := sameTotals_analyzeProject p
  have second := sameTotals_analyzeProject q
  rw [List.map_append] at whole
  refine ⟨(summarize_append _ _ .empty .empty .empty).congr whole first second, fun inMemory => ?_⟩
  obtain ⟨errors, warnings, lines⟩ := inMemory.totalsFit
  rw [map_files_analyzeProject (fun _ => rfl), List.map_append] at errors warnings lines
  obtain ⟨sums, passes⟩ := TotalsFit.summarize_append ⟨errors, warnings, lines⟩ .empty .empty .empty
  exact ⟨sums.congr whole first second, by rw [whole.status, first.status, second.status, passes]⟩

theorem analyzeProject_perm [Engine] {p q : List SourceFile} (same : p.Perm q) :
    SameTotals (analyzeProject p).summary (analyzeProject q).summary := by
  have first := sameTotals_analyzeProject p
  have second := sameTotals_analyzeProject q
  have moved := summarize_perm (same.map (projectFileReport none)) .empty .empty
  constructor
  · rw [first.errors, second.errors, moved.errors]
  · rw [first.warnings, second.warnings, moved.warnings]
  · rw [first.lines, second.lines, moved.lines]
  · rw [first.status, second.status, moved.status]

/-- A file is reported as if it were alone, but for the import graph. The totals of two parts add up to
    those of the whole as words of 64 bits, and exactly as long as they fit into such words, as those of a
    project in memory do; then the whole passes exactly if both parts do. The order of the files does not
    matter. -/
theorem project_is_sum_of_files [Engine] :
    (∀ (files : List SourceFile) (i : Nat),
      (analyzeProject files).files[i]?.map FileReport.withoutDependencies =
        files[i]?.bind fun file => (analyzeProject [file]).files[0]?) ∧
    (∀ (a b : List FileReport) (whole first second : LanguageShares),
      SumsUp addWords (summarize (a ++ b) whole) (summarize a first) (summarize b second) ∧
      ((summarize (a ++ b) whole).status = .passed ↔
        ((summarize a first).status = .passed ∧ (summarize b second).status = .passed) ∨
          (summarize a first).totalErrors + (summarize b second).totalErrors = wordSize)) ∧
    (∀ (a b : List FileReport) (whole first second : LanguageShares), TotalsFit (a ++ b) →
      SumsUp (· + ·) (summarize (a ++ b) whole) (summarize a first) (summarize b second) ∧
      ((summarize (a ++ b) whole).status = .passed ↔
        (summarize a first).status = .passed ∧ (summarize b second).status = .passed)) ∧
    (∀ (a b : List FileReport) (shares shares' : LanguageShares), a.Perm b →
      SameTotals (summarize a shares) (summarize b shares')) ∧
    (∀ p q : List SourceFile,
      SumsUp addWords (analyzeProject (p ++ q)).summary (analyzeProject p).summary
        (analyzeProject q).summary ∧
      ((analyzeProject (p ++ q)).FitsMemory →
        SumsUp (· + ·) (analyzeProject (p ++ q)).summary (analyzeProject p).summary
            (analyzeProject q).summary ∧
          ((analyzeProject (p ++ q)).summary.status = .passed ↔
            (analyzeProject p).summary.status = .passed ∧
              (analyzeProject q).summary.status = .passed))) ∧
    (∀ p q : List SourceFile, p.Perm q →
      SameTotals (analyzeProject p).summary (analyzeProject q).summary) := by
  refine ⟨getElem?_files_analyzeProject, ?_, ?_, ?_, analyzeProject_append, ?_⟩
  · exact fun a b whole first second => ⟨summarize_append .., status_summarize_append ..⟩
  · exact fun a b whole first second fits => fits.summarize_append whole first second
  · exact fun a b shares shares' same => summarize_perm same shares shares'
  · exact fun p q same => analyzeProject_perm same

attribute [local instance] Engine.standard in
theorem sameTotals_swapped :
    SumsUp (· + ·) (summarize ([errorReport 2] ++ [errorReport 3]) .empty)
        (summarize [errorReport 2] .empty) (summarize [errorReport 3] .empty) ∧
      SameTotals (summarize [errorReport 2, errorReport 3] .empty)
        (summarize [errorReport 3, errorReport 2] .empty) ∧
      SumsUp (· + ·) (analyzeProject ([] ++ [⟨"b.txt", "y", "txt"⟩])).summary (analyzeProject []).summary
        (analyzeProject [⟨"b.txt", "y", "txt"⟩]).summary ∧
      SameTotals (analyzeProject [⟨"a.py", "x", "py"⟩, ⟨"b.js", "y", "js"⟩]).summary
        (analyzeProject [⟨"b.js", "y", "js"⟩, ⟨"a.py", "x", "py"⟩]).summary :=
  ⟨(project_is_sum_of_files.2.2.1 _ _ _ _ _ (by constructor <;> decide)).1,
    project_is_sum_of_files.2.2.2.1 _ _ _ _ (.swap _ _ _),
    ((project_is_sum_of_files.2.2.2.2.1 _ _).2 (by constructor <;> decide)).1,
    project_is_sum_of_files.2.2.2.2.2 _ _ (.swap _ _ _)⟩

end SourceAudit
