/-
Module: SourceAudit.Report.Languages
Layer: Analysis
Purpose: The share of each language in the lines of a project. Files in unknown languages and files
  without lines are left out of the count, so a project of nothing else has no shares.
Main exports: LanguageShares, LineTally, languageShares, LanguageShares.byShare
-/
import SourceAudit.Source.ByName
import SourceAudit.Source.LineCount
import SourceAudit.Total

namespace SourceAudit

/-- The percentage of each language. -/
abbrev LanguageShares := ByName Float

/-- The number of lines of each language. -/
abbrev LineTally := ByName Nat

namespace LineTally

/-- The tally with lines of a language added. -/
def add (tally : LineTally) (name : String) (lines : Nat) : LineTally :=
  tally.change name fun before => before.getD 0 + lines

/-- The tally with a file added. -/
def addFile (tally : LineTally) (file : SourceFile) : LineTally :=
  match Language.ofName? file.fileName with
  | none => tally
  | some language =>
    match countedLines language (Text.of file.content) with
    | 0 => tally
    | lines => tally.add language.name lines

/-- All lines together. -/
def lines (tally : LineTally) : Nat := total (tally.entries.map Prod.snd)

/-- The share of each language. -/
def shares (tally : LineTally) : LanguageShares :=
  tally.map fun n => (Nat.toFloat n / Nat.toFloat tally.lines) * 100.0

end LineTally

/-- The share of each language in the lines of the files. -/
def languageShares (files : List SourceFile) : LanguageShares :=
  (files.foldl LineTally.addFile ByName.empty).shares

/-- The shares with the greatest first; equal ones stay in the order of their names. -/
def LanguageShares.byShare (shares : LanguageShares) : List (String × Float) :=
  shares.entries.mergeSort fun a b => decide (b.2 ≤ a.2)

end SourceAudit
