/-
Module: SourceAudit.Proofs.Improve.Declarations
Layer: Proofs
Purpose: Newer keywords in declarations. The dated keyword is replaced in one declaration after the
  other; a text in which one is left has the issue about it anyway, and no other pattern of a rule reads
  the keywords, but for those of script files.
Main exports: occurs_varDeclaration_iff, ReplacesVar, reflTransGen_replaceVar, eases_replaceVar
-/
import SourceAudit.Proofs.Pattern.Spelling
import SourceAudit.Proofs.Pattern.WordSwap
import SourceAudit.Proofs.Report.FamilyGravity

namespace SourceAudit

/-- A declaration with the dated keyword, told by the parts of the text. -/
theorem occurs_varDeclaration_iff (t : Text) : Universal.varDeclaration.occurs t = true ↔
    ∃ before gap x after, t = before ++ ("var".toList ++ (gap ++ x :: after)) ∧
      (∀ y ∈ before.getLast?, isWordChar y = false) ∧ IsGap gap ∧ isNameStart x = true := by
  have edge (before a : Text) : Edge.word.holds (.between before ("var".toList ++ a)) = true ↔
      ∀ y ∈ before.getLast?, isWordChar y = false :=
    Pattern.wordStart_holds_iff (x := 'v') rfl (by decide)
  rw [Pattern.occurs_iff_spells rfl]
  constructor
  · rintro ⟨before, _, after, _, rfl, _, _, _, _, rfl, rfl, ⟨_, blanks, _, _, rfl, rfl,
      ⟨_, _, _, _, rfl, rfl, ⟨⟨holds, rfl⟩, rfl⟩, word⟩, spaces⟩, ⟨x, start, rfl⟩, rfl⟩
    obtain ⟨rfl, rfl⟩ := Pattern.spells_text.1 word
    obtain ⟨isGap, rfl⟩ := Pattern.spells_gap.1 spaces
    exact ⟨before, blanks, x, after, by simp, (edge _ _).1 (by simpa using holds), isGap, start⟩
  · rintro ⟨before, blanks, x, after, rfl, apart, isGap, start⟩
    refine ⟨before, "var".toList ++ blanks ++ [x], after, [], by simp, ?_⟩
    refine ⟨"var".toList ++ blanks, [x], [], [], rfl, rfl, ?_, ⟨x, start, rfl⟩, rfl⟩
    refine ⟨"var".toList, blanks, [], [], rfl, rfl, ?_, Pattern.spells_gap.2 ⟨isGap, rfl⟩⟩
    exact ⟨[], "var".toList, [], [], rfl, rfl, ⟨⟨(edge _ _).2 apart, rfl⟩, rfl⟩,
      Pattern.spells_text.2 ⟨rfl, rfl⟩⟩

/-- The second text has a newer keyword in one of the declarations of the first. -/
inductive ReplacesVar : (t t' : Text) → Prop where
  | intro (u gap v : Text) {x : Char} {keyword : Text} (new : keyword ∈ keywords)
      (before : ∀ y ∈ u.getLast?, isWordChar y = false) (some : gap ≠ [])
      (blank : ∀ y ∈ gap, isBlank y = true) (start : isNameStart x = true) :
      ReplacesVar (u ++ ("var".toList ++ (gap ++ x :: v))) (u ++ (keyword ++ (gap ++ x :: v)))

theorem ReplacesVar.exists_swapsWord {t t' : Text} (h : ReplacesVar t t') :
    ∃ keyword ∈ keywords, SwapsWord "var".toList keyword t t' := by
  obtain ⟨u, gap, v, new, before, some, blank, -⟩ := h
  refine ⟨_, new, .intro u _ before ?_⟩
  intro y first
  cases gap with
  | nil => exact absurd rfl some
  | cons b gap =>
    obtain rfl : b = y := by simpa using first
    exact blank b List.mem_cons_self

/-- The first text has a declaration with the dated keyword. -/
theorem ReplacesVar.occurs {t t' : Text} (h : ReplacesVar t t') :
    Universal.varDeclaration.occurs t = true := by
  obtain ⟨u, gap, v, new, before, some, blank, start⟩ := h
  exact (occurs_varDeclaration_iff _).2 ⟨u, gap, _, v, rfl, before, ⟨some, blank⟩, start⟩

/-- What a match of the dated keyword consists of. -/
theorem exists_of_keeps_varKeyword {c d : Cursor} {kept : Groups}
    (way : Fix.varKeyword.Keeps c d kept) :
    ∃ gap x m, Edge.word.holds c = true ∧ c.Moves "var".toList m ∧ m.Moves (gap ++ [x]) d ∧ gap ≠ [] ∧
      (∀ y ∈ gap, isBlank y = true) ∧ isNameStart x = true ∧
      (Hit.groupChars ⟨⟨c, d⟩, kept⟩ 1) = gap ++ [x] := by
  obtain ⟨m, first, second, ⟨e, none, none', ⟨⟨edge, rfl⟩, rfl⟩, ⟨word, rfl⟩, rfl⟩,
    ⟨inner, behind, rfl⟩, rfl⟩ := way
  obtain ⟨n, blanks, start⟩ := behind.passes
  obtain ⟨gap, long, blank, moves⟩ := Cursor.mem_choices_iff.1 blanks
  obtain ⟨cs, one, name, moves'⟩ := Cursor.pass_eq_some_iff.1 start
  obtain ⟨x, rfl⟩ := List.length_eq_one_iff.1 one
  have rest : m.Moves (gap ++ [x]) d := moves.trans moves'
  refine ⟨gap, x, m, edge, Cursor.skip_eq_some_iff.1 word, rest, List.length_pos_iff.1 long, blank,
    name x (List.mem_singleton_self x), ?_⟩
  exact rest.chars

/-- What stands before a place stays a word character, or stays none, when the same is passed. -/
theorem any_getLast?_append {u b : Text} (cs : Text)
    (same : u.getLast?.any isWordChar = b.head?.any isWordChar) :
    (u ++ cs).getLast?.any isWordChar = (cs.reverse ++ b).head?.any isWordChar := by
  rcases List.eq_nil_or_concat cs with rfl | ⟨cs, x, rfl⟩
  · simpa using same
  · simp

/-- The matches of the dated keyword from a place on are replaced one after the other. -/
theorem reflTransGen_splice {line keyword : Text} (new : keyword ∈ keywords) {c : Cursor}
    {hits : List Hit} (sweep : (Fix.varKeyword.search line).Sweep c hits) (place : c.IsIn line)
    (u v : Text) (same : u.getLast?.any isWordChar = c.behind.head?.any isWordChar) :
    Relation.ReflTransGen ReplacesVar (u ++ (c.ahead ++ v))
      (u ++ (splice c.ahead c.offset (hits.map fun hit => (hit, keyword ++ hit.groupChars 1)) ++ v)) := by
  induction sweep generalizing u with
  | last => exact .refl
  | @next c hit hits first later ih =>
    obtain ⟨start, below, way, stop, -⟩ := Fix.varKeyword.findFrom_eq_some place first
    obtain ⟨gap, x, m, edge, word, rest, some, blank, name, written⟩ := exists_of_keeps_varKeyword way
    obtain ⟨passed, -, moves⟩ := Cursor.mem_run_iff.1 (place.mem_run start below)
    have ahead : c.ahead =
        passed ++ ("var".toList ++ (gap ++ x :: hit.whole.stop.ahead)) := by
      rw [show c.ahead = passed ++ hit.whole.start.ahead from moves.1, word.1, rest.1]
      simp
    have taken : c.ahead.take (hit.offset - c.offset) = passed := by
      have count : hit.offset = c.offset + passed.length := moves.2.2
      rw [count, Nat.add_sub_cancel_left, ahead, List.take_left]
    have outside : ∀ y ∈ (u ++ passed).getLast?, isWordChar y = false := by
      have left : hit.whole.start.behind.head?.any isWordChar = false := by
        have right : hit.whole.start.ahead.head?.any isWordChar = true := by
          rw [word.1]
          rfl
        simpa [Edge.holds, right] using edge
      rw [show hit.whole.start.behind = passed.reverse ++ c.behind from moves.2.1,
        ← any_getLast?_append passed same] at left
      intro y last
      rw [Option.mem_def.1 last] at left
      exact left
    have step := ReplacesVar.intro (u ++ passed) gap (hit.whole.stop.ahead ++ v) new outside some blank
      name
    have onward := ih stop (u ++ passed ++ keyword ++ (gap ++ [x])) (by
      rw [rest.2.1, List.reverse_append, List.reverse_singleton]
      simp)
    rw [List.map_cons, splice, taken, written, ahead]
    simp only [List.append_assoc, List.cons_append, List.nil_append] at step onward ⊢
    exact .head step onward

theorem reflTransGen_replaceVarInLine (u line v : Text) (start : ∀ x ∈ u.getLast?, x = '\n') :
    Relation.ReflTransGen ReplacesVar (u ++ (line ++ v)) (u ++ (Fix.replaceVarInLine line ++ v)) := by
  have outside : u.getLast?.any isWordChar = false := by
    cases last : u.getLast? with
    | none => rfl
    | some x =>
      obtain rfl := start x last
      decide
  rw [Fix.replaceVarInLine, Pattern.replaceAll]
  refine reflTransGen_splice ?_ (Fix.varKeyword.sweep_findAll line) (Cursor.isIn_start line) u v outside
  split
  · decide
  · decide

/-- The dated keyword is replaced in one declaration after the other. -/
theorem reflTransGen_replaceVar (t : Text) : Relation.ReflTransGen ReplacesVar t (Fix.replaceVar t) :=
  reflTransGen_mapLines (fun u line v start _ => reflTransGen_replaceVarInLine u line v start) t

/-- The patterns that the rules look for in a text whose declarations have newer keywords. -/
def renewedPatterns : List Pattern :=
  [Python.printCall, Python.rangeLen, Python.noneComparison, Php.dieCall, Solidity.functionHeader,
    Solidity.visibilityWord, Vue.forTag, Vue.keyBinding]

/-- None of the patterns is misled by another keyword. -/
theorem unmoved_of_mem_renewedPatterns {p : Pattern} (mem : p ∈ renewedPatterns) :
    p.Unmoved wordSight := by
  have exactly : ∀ p ∈ renewedPatterns, p.exact = p := by
    simp only [renewedPatterns, List.forall_mem_cons]
    exact ⟨rfl, rfl, rfl, rfl, rfl, rfl, rfl, rfl, List.forall_mem_nil _⟩
  have all : ∀ p ∈ renewedPatterns, p.isSkippable = false ∧ p.isClear = true ∧
      p.grade wordSight .open = some .shut := by decide
  obtain ⟨moves, clear, graded⟩ := all p mem
  exact ⟨moves, Pattern.avoids_wordSight (exactly p mem) clear, graded⟩

section

variable {t t' keyword : Text} (new : keyword ∈ keywords) (h : SwapsWord "var".toList keyword t t')
include new h

theorem occurs_eq_of_swapsWord {p : Pattern} (mem : p ∈ renewedPatterns) : p.occurs t = p.occurs t' :=
  h.occurs_eq (by decide) new (unmoved_of_mem_renewedPatterns mem)

theorem python_eased_of_swapsWord : Python.Eased t t' where
  printing found := by
    rwa [occurs_eq_of_swapsWord new h (by simp [renewedPatterns])]
  indices found := by
    rwa [occurs_eq_of_swapsWord new h (by simp [renewedPatterns])]
  comparisons found := by
    rwa [occurs_eq_of_swapsWord new h (by simp [renewedPatterns])]

theorem php_eased_of_swapsWord : Php.Eased t t' where
  queries found := by
    rwa [h.includes_eq (by decide) new (by decide) (by decide)]
  endings found := by
    rwa [occurs_eq_of_swapsWord new h (by simp [renewedPatterns])]
  opening found := by
    rwa [← h.includes_eq (by decide) new (by decide) (by decide)]

theorem solidity_eased_of_swapsWord : Solidity.Eased t t' where
  version found := by
    rwa [← h.includes_eq (by decide) new (by decide) (by decide)]
  functions := by
    have headers : Solidity.functionHeader.Unmoved wordSight :=
      unmoved_of_mem_renewedPatterns (by simp [renewedPatterns])
    refine Nat.le_of_eq (length_filter_eq ((h.findAll_edited (by decide) new headers).imp ?_)).symm
    intro hit hit' edited
    rcases edited.groupChars 1 with same | swapped
    · rw [same]
    · rw [occurs_eq_of_swapsWord new swapped (by simp [renewedPatterns])]

theorem vue_eased_of_swapsWord : Vue.Eased t t' := by
  have tags : Vue.forTag.Unmoved wordSight :=
    unmoved_of_mem_renewedPatterns (by simp [renewedPatterns])
  refine Nat.le_of_eq (length_filter_eq ((h.findAll_edited (by decide) new tags).imp ?_)).symm
  intro hit hit' edited
  rcases edited.chars with same | swapped
  · rw [same]
  · rw [occurs_eq_of_swapsWord new swapped (by simp [renewedPatterns])]

end

/-- Replacing the keyword adds no issue of the rules for every family. -/
theorem universal_eased_of_replacesVar {t t' : Text} (h : ReplacesVar t t') : Universal.Eased t t' := by
  obtain ⟨keyword, new, swap⟩ := h.exists_swapsWord
  constructor
  case logging =>
    intro found
    rwa [swap.includes_eq (by decide) new (by decide) (by decide)]
  case declarations => exact fun _ => h.occurs
  case tasks =>
    intro found
    rwa [swap.includes_eq (by decide) new (by decide) (by decide),
      swap.includes_eq (by decide) new (by decide) (by decide)]

/-- Newer keywords in declarations never make the report of a file worse, unless the file is markup or
    a script. -/
theorem eases_replaceVar [Engine] {fileName : String} (noMarkup : Family.ofName fileName ≠ .html)
    (noScript : Family.ofName fileName ≠ .script) (t : Text) :
    Eases fileName t (Fix.replaceVar t) := by
  have steps := reflTransGen_replaceVar t
  generalize Fix.replaceVar t = t' at steps
  induction steps with
  | refl => exact Eases.refl fileName t
  | tail _ step ih =>
    obtain ⟨keyword, new, swap⟩ := step.exists_swapsWord
    refine ih.trans (Eases.of_eased (universal_eased_of_replacesVar step) ?_)
    revert noMarkup noScript
    cases Family.ofName fileName with
    | html => exact fun noMarkup => absurd rfl noMarkup
    | script => exact fun _ noScript => absurd rfl noScript
    | python => exact fun _ _ => python_eased_of_swapsWord new swap
    | php => exact fun _ _ => php_eased_of_swapsWord new swap
    | solidity => exact fun _ _ => solidity_eased_of_swapsWord new swap
    | vue => exact fun _ _ => vue_eased_of_swapsWord new swap
    | other => exact fun _ _ => trivial

end SourceAudit
