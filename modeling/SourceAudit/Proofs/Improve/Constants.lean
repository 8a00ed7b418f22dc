/-
Module: SourceAudit.Proofs.Improve.Constants
Layer: Proofs
Purpose: Constants put in front of a file. The lines that declare constants for unexplained numbers
  hold a fixed heading, the names of the constants and digits, and none of what the rules look for; the
  file behind them keeps all its matches, so its report does not change for the worse.
Main exports: Fix.constantsFront, isForeign, not_infix_constantsFront, eases_extractMagicNumbers
-/
import SourceAudit.Fix.Script
import SourceAudit.Proofs.Pattern.Front
import SourceAudit.Proofs.Report.FamilyGravity
import Mathlib.Data.List.Infix

namespace SourceAudit

/-- An unexplained number is made of decimal digits. -/
theorem isDecimalDigit_of_mem_undeclaredNumbers {t number : Text}
    (mem : number ∈ Fix.undeclaredNumbers t) {c : Char} (hc : c ∈ number) :
    isDecimalDigit c = true := by
  have found := mem_keepOnce.1 (List.mem_filter.1 mem).1
  obtain ⟨hit, inText, rfl⟩ := List.mem_map.1 (List.mem_filter.1 found).1
  obtain ⟨m, ⟨start, ⟨-, rfl⟩, digits⟩, -, stop⟩ := numberPattern.passes_of_mem_findAll inText
  obtain ⟨cs, -, all, moves⟩ := Cursor.mem_choices_iff.1 digits
  rw [← stop] at moves
  have written : hit.chars = cs := moves.chars
  rw [written] at hc
  exact all c hc

namespace Fix

/-- The heading above the constants. -/
def constantsHeading (python : Bool) : Text :=
  let comment : Text := if python then "#" else "//"
  comment ++ " Extracted constants (replace with meaningful names):"

/-- The declaration of a constant, without its line feed. -/
def constantLine (python : Bool) (number : Text) : Text :=
  let keyword : Text := if python then "" else "const "
  let terminator : Text := if python then "" else ";"
  keyword ++ constantName number ++ " = " ++ number ++ terminator

/-- The lines that declare the constants. -/
def constantsFront (python : Bool) (numbers : List Text) : Text :=
  constantsHeading python ++ '\n' ::
    (numbers.flatMap (fun number => constantLine python number ++ ['\n']) ++ ['\n'])

theorem constantDeclaration_eq (python : Bool) (number : Text) :
    constantDeclaration python number = constantLine python number ++ ['\n'] :=
  congrArg (constantLine python number ++ ·) (show "\n".toList = ['\n'] from rfl)

theorem extractMagicNumbers_eq (fileName : String) (t : Text) :
    extractMagicNumbers fileName t =
      if (undeclaredNumbers t).isEmpty then t
      else constantsFront (Family.ofName fileName = .python) (undeclaredNumbers t) ++ t := by
  have feed : " Extracted constants (replace with meaningful names):\n".toList =
      " Extracted constants (replace with meaningful names):".toList ++ ['\n'] := rfl
  have heading (comment rest : Text) :
      comment ++ " Extracted constants (replace with meaningful names):\n".toList ++ rest =
        comment ++ " Extracted constants (replace with meaningful names):".toList ++ '\n' :: rest := by
    rw [feed, List.append_assoc, List.append_assoc, List.append_assoc]
    rfl
  rw [extractMagicNumbers]
  split
  · rfl
  · refine (heading _ _).trans ?_
    rw [constantsFront, constantsHeading, funext (constantDeclaration_eq _)]
    by_cases python : Family.ofName fileName = .python
    · simp only [python, List.append_assoc, List.cons_append, List.nil_append, decide_true]
    · simp only [python, List.append_assoc, List.cons_append, List.nil_append, decide_false]
      rfl

end Fix

/-- The needle has no line feed, is not in the heading, and has a character that no declaration of a
    constant has. -/
def isForeign (needle : Text) : Bool :=
  !needle.contains '\n' && !(Fix.constantsHeading true).includes needle &&
    !(Fix.constantsHeading false).includes needle &&
    needle.any fun c => !"const CONSTANT_ = ;".toList.contains c && !isDecimalDigit c

section

variable {python : Bool} {numbers : List Text}
  (digits : ∀ number ∈ numbers, ∀ c ∈ number, isDecimalDigit c = true)

theorem infix_constantsFront {needle : Text} (absent : '\n' ∉ needle)
    (some : needle ≠ []) (h : needle <:+: Fix.constantsFront python numbers) :
    needle <:+: Fix.constantsHeading python ∨
      ∃ number ∈ numbers, needle <:+: Fix.constantLine python number := by
  rw [Fix.constantsFront, Text.infix_append_cons absent, Text.infix_append_cons absent] at h
  rcases h with h | h | h
  · exact .inl h
  · right
    induction numbers with
    | nil => exact absurd (List.infix_nil.1 h) some
    | cons number numbers ih =>
      rw [List.flatMap_cons, List.append_assoc, List.singleton_append,
        Text.infix_append_cons absent] at h
      rcases h with h | h
      · exact ⟨number, List.mem_cons_self, h⟩
      · obtain ⟨other, mem, h⟩ := ih h
        exact ⟨other, List.mem_cons_of_mem _ mem, h⟩
  · exact absurd (List.infix_nil.1 h) some

include digits

theorem mem_constantLine {number : Text} (mem : number ∈ numbers) {c : Char}
    (hc : c ∈ Fix.constantLine python number) :
    c ∈ "const CONSTANT_ = ;".toList ∨ isDecimalDigit c = true := by
  have digit := digits number mem c
  have keyword : "const ".toList ⊆ "const CONSTANT_ = ;".toList := by decide
  have stem : "CONSTANT_".toList ⊆ "const CONSTANT_ = ;".toList := by decide
  have equals : " = ".toList ⊆ "const CONSTANT_ = ;".toList := by decide
  have ending : ";".toList ⊆ "const CONSTANT_ = ;".toList := by decide
  simp only [Fix.constantLine, List.mem_append] at hc
  rcases hc with (((h | h) | h) | h) | h
  · split at h
    · exact absurd h List.not_mem_nil
    · exact .inl (keyword h)
  · have name : c ∈ "CONSTANT_".toList ++ number := h
    rcases List.mem_append.1 name with h | h
    · exact .inl (stem h)
    · exact .inr (digit h)
  · exact .inl (equals h)
  · exact .inr (digit h)
  · split at h
    · exact absurd h List.not_mem_nil
    · exact .inl (ending h)

/-- Foreign needles are not found among the constants. -/
theorem not_infix_constantsFront {needle : Text} (foreign : isForeign needle = true) :
    ¬ needle <:+: Fix.constantsFront python numbers := by
  simp only [isForeign, Bool.and_eq_true, Bool.not_eq_true', List.any_eq_true] at foreign
  obtain ⟨⟨⟨absent, heading⟩, heading'⟩, c, hc, outside, noDigit⟩ := foreign
  intro h
  rcases infix_constantsFront (by simpa using absent) (List.ne_nil_of_mem hc) h with h | ⟨n, mem, h⟩
  · rw [← Text.includes_iff] at h
    cases python <;> simp_all
  · rcases mem_constantLine digits mem (h.subset hc) with h | h
    · rw [List.contains_iff_mem.2 h] at outside
      cases outside
    · rw [h] at noDigit
      cases noDigit

omit digits in
theorem getLast?_constantsFront : (Fix.constantsFront python numbers).getLast? = some '\n' := by
  have ends : Fix.constantsFront python numbers =
      (Fix.constantsHeading python ++ '\n' ::
        numbers.flatMap fun number => Fix.constantLine python number ++ ['\n']) ++ ['\n'] := by
    rw [Fix.constantsFront, List.append_assoc]
    rfl
  rw [ends, List.getLast?_concat]

omit digits in
/-- No word runs out of the lines of constants. -/
theorem apart_constantsFront :
    ∀ x ∈ (Fix.constantsFront python numbers).getLast?, isWordChar x = false := by
  rw [getLast?_constantsFront]
  rintro x ⟨⟩
  decide

/-- A foreign needle is found behind the constants exactly if it is found in the text. -/
theorem includes_constantsFront {needle : Text} (foreign : isForeign needle = true) (t : Text) :
    (Fix.constantsFront python numbers ++ t).includes needle = t.includes needle := by
  apply Text.includes_congr
  have absent : '\n' ∉ needle := by
    simp only [isForeign, Bool.and_eq_true, Bool.not_eq_true'] at foreign
    simpa using foreign.1.1.1
  have none : ¬ needle <:+: Fix.constantsFront python numbers :=
    not_infix_constantsFront digits foreign
  rw [Text.infix_append_of_getLast? getLast?_constantsFront absent, or_iff_right none]

/-- A pattern that starts with foreign literals cannot start among the constants. -/
theorem quiet_constantsFront {p : Pattern} {starts : List String} (h : p.StartsWith starts)
    (foreign : ∀ s ∈ starts, isForeign s.toList = true) :
    p.Quiet (Fix.constantsFront python numbers) := by
  refine h.quiet fun s mem => Pattern.quiet_text getLast?_constantsFront ?_ ?_
  · have := foreign s mem
    simp only [isForeign, Bool.and_eq_true, Bool.not_eq_true'] at this
    simpa using this.1.1.1
  · exact not_infix_constantsFront digits (foreign s mem)

theorem occurs_constantsFront {p : Pattern} {starts : List String} (h : p.StartsWith starts)
    (edges : p.isWordEdged = true) (foreign : ∀ s ∈ starts, isForeign s.toList = true) (t : Text) :
    p.occurs (Fix.constantsFront python numbers ++ t) = p.occurs t :=
  Pattern.occurs_front h.moves edges (quiet_constantsFront digits h foreign) t apart_constantsFront

end

section

variable {python : Bool} {numbers : List Text}
  (digits : ∀ number ∈ numbers, ∀ c ∈ number, isDecimalDigit c = true)
include digits

theorem universal_eased_constantsFront (t : Text) :
    Universal.Eased t (Fix.constantsFront python numbers ++ t) where
  logging h := by
    rwa [includes_constantsFront digits (by decide)] at h
  declarations h := by
    have starts : Universal.varDeclaration.StartsWith ["var"] := ⟨rfl, rfl⟩
    rwa [occurs_constantsFront digits starts rfl (by decide)] at h
  tasks h := by
    rwa [includes_constantsFront digits (by decide), includes_constantsFront digits (by decide)] at h

/-- A declaration has one equals sign. -/
theorem count_equals_constantLine {number : Text} (mem : number ∈ numbers) :
    (Fix.constantLine python number).count '=' = 1 := by
  have none : number.count '=' = 0 := by
    rw [List.count_eq_zero]
    intro equals
    have digit := digits number mem _ equals
    revert digit
    decide
  have name : (Fix.constantName number).count '=' = 0 := by
    have split : (Fix.constantName number).count '=' = "CONSTANT_".toList.count '=' + number.count '=' :=
      List.count_append
    rw [split, none]
    decide
  have equals : " = ".toList.count '=' = 1 := by decide
  simp only [Fix.constantLine, List.count_append, none, name, equals]
  cases python <;> decide

theorem not_infix_double_equals : ¬ "==".toList <:+: Fix.constantsFront python numbers := by
  intro h
  rcases infix_constantsFront (by decide) (by decide) h with h | ⟨number, mem, h⟩
  · rw [← Text.includes_iff] at h
    revert h
    cases python <;> decide
  · have count := h.sublist.count_le '='
    rw [count_equals_constantLine digits mem] at count
    revert count
    decide

theorem quiet_noneComparison : Python.noneComparison.Quiet (Fix.constantsFront python numbers) := by
  intro t c d place inside way
  obtain ⟨_, ⟨_, ⟨e, ⟨f, first, second⟩, -⟩, -⟩, -⟩ := way
  obtain ⟨cs, one, all, moves⟩ := Cursor.pass_eq_some_iff.1 first
  obtain ⟨x, rfl⟩ := List.length_eq_one_iff.1 one
  have operator : c.Moves [x, '='] e := moves.trans (Cursor.skip_eq_some_iff.1 second)
  -- whichever operator it is, it would stand in the front
  have either : x = '=' ∨ x = '!' := by simpa [oneOf] using all x (List.mem_singleton_self x)
  rcases either with rfl | rfl
  · have quiet : (Pattern.text "==").Quiet (Fix.constantsFront python numbers) :=
      Pattern.quiet_text getLast?_constantsFront (by decide) (not_infix_double_equals digits)
    exact quiet place inside (Cursor.skip_eq_some_iff.2 operator)
  · have quiet : (Pattern.text "!=").Quiet (Fix.constantsFront python numbers) :=
      Pattern.quiet_text getLast?_constantsFront (by decide)
        (not_infix_constantsFront digits (by decide))
    exact quiet place inside (Cursor.skip_eq_some_iff.2 operator)

theorem python_eased_constantsFront (t : Text) :
    Python.Eased t (Fix.constantsFront python numbers ++ t) where
  printing h := by
    have starts : Python.printCall.StartsWith ["print"] := ⟨rfl, rfl⟩
    rwa [occurs_constantsFront digits starts rfl (by decide)] at h
  indices h := by
    have starts : Python.rangeLen.StartsWith ["range"] := ⟨rfl, rfl⟩
    rwa [occurs_constantsFront digits starts rfl (by decide)] at h
  comparisons h := by
    rwa [Pattern.occurs_front rfl rfl (quiet_noneComparison digits) t apart_constantsFront] at h

theorem php_eased_constantsFront (t : Text) :
    Php.Eased t (Fix.constantsFront python numbers ++ t) where
  queries h := by
    rwa [includes_constantsFront digits (by decide)] at h
  endings h := by
    have starts : Php.dieCall.StartsWith ["die", "exit"] := ⟨rfl, rfl⟩
    rwa [occurs_constantsFront digits starts rfl (by decide)] at h
  opening h := by
    rw [Text.includes_iff] at h ⊢
    exact List.infix_append_of_infix_right h

variable (python) in
theorem findAll_constantsFront {p : Pattern} {starts : List String} (h : p.StartsWith starts)
    (edges : p.isWordEdged = true) (foreign : ∀ s ∈ starts, isForeign s.toList = true) (t : Text) :
    List.Forall₂ (Hit.Alike (Likeness.front (Fix.constantsFront python numbers) t
      apart_constantsFront).kept) (p.findAll t) (p.findAll (Fix.constantsFront python numbers ++ t)) :=
  Pattern.findAll_front h.moves edges (quiet_constantsFront digits h foreign) t apart_constantsFront

theorem solidity_eased_constantsFront (t : Text) :
    Solidity.Eased t (Fix.constantsFront python numbers ++ t) where
  version h := by
    rw [Text.includes_iff] at h ⊢
    exact List.infix_append_of_infix_right h
  functions := by
    have starts : Solidity.functionHeader.StartsWith ["function"] := ⟨rfl, rfl⟩
    have hits := findAll_constantsFront python digits starts rfl (by decide) t
    refine Nat.le_of_eq (length_filter_eq (hits.imp fun hit hit' alike => ?_)).symm
    rw [Hit.groupChars_front alike]

theorem vue_eased_constantsFront (t : Text) :
    Vue.Eased t (Fix.constantsFront python numbers ++ t) := by
  have starts : Vue.forTag.StartsWith ["<"] := ⟨rfl, rfl⟩
  have hits := findAll_constantsFront python digits starts rfl (by decide) t
  refine Nat.le_of_eq (length_filter_eq (hits.imp fun hit hit' alike => ?_)).symm
  rw [Hit.chars_front alike]

omit digits in
/-- Declarations in script code end in a semicolon. -/
theorem exists_constantsFront_eq (some : numbers ≠ []) :
    ∃ rest, Fix.constantsFront false numbers = rest ++ [';', '\n', '\n'] := by
  obtain ⟨line, ends⟩ : ∃ line, Fix.constantLine false (numbers.getLast some) = line ++ [';'] :=
    ⟨_, congrArg (_ ++ ·) (show ";".toList = [';'] from rfl)⟩
  rw [Fix.constantsFront, ← List.dropLast_concat_getLast some, List.flatMap_append,
    List.flatMap_singleton, ends]
  exact ⟨Fix.constantsHeading false ++ '\n' ::
    (numbers.dropLast.flatMap (fun number => Fix.constantLine false number ++ ['\n']) ++ line), by simp⟩

/-- A state hook cannot start at the keyword of a constant: between the keyword and the bracket there
    are blanks only, and the constants end in a semicolon. -/
theorem quiet_stateHook (some : numbers ≠ []) :
    Script.stateHook.Quiet (Fix.constantsFront false numbers) := by
  intro t c d place inside way
  obtain ⟨_, ⟨_, ⟨_, ⟨_, ⟨_, ⟨_, ⟨_, ⟨_, ⟨_, ⟨_, ⟨_, ⟨_, ⟨e, ⟨m, ⟨l, keyword, gap⟩, bracket⟩, -⟩, -⟩, -⟩, -⟩, -⟩, -⟩, -⟩, -⟩, -⟩, -⟩, -⟩, -⟩, -⟩ := way
  obtain ⟨bs, -, blank, gap⟩ := Cursor.mem_choices_iff.1 gap
  have moves : c.Moves ("const".toList ++ (bs ++ ['['])) e :=
    (Cursor.skip_eq_some_iff.1 keyword).trans (gap.trans (Cursor.skip_eq_some_iff.1 bracket))
  obtain ⟨rest, more, whole, ahead⟩ := place.ahead_eq inside
  obtain ⟨y, ends⟩ := exists_constantsFront_eq some
  have starts : rest ++ t = ("const".toList ++ bs) ++ '[' :: e.ahead := by
    rw [← ahead, moves.1]
    simp only [List.append_assoc, List.singleton_append]
  have noBracket : '[' ∉ rest := by
    intro mem
    have none : ¬ "[".toList <:+: Fix.constantsFront false numbers :=
      not_infix_constantsFront digits (by decide)
    rw [← whole] at none
    exact none (List.infix_append_of_infix_right ((List.singleton_infix_iff _ _).2 mem))
  -- the rest of the front starts with the keyword and goes on with blanks
  have initial : rest <+: "const".toList ++ bs := by
    rcases List.append_eq_append_iff.1 starts with ⟨excess, longer, -⟩ | ⟨excess, shorter, later⟩
    · exact ⟨excess, longer.symm⟩
    · cases excess with
      | nil => exact ⟨[], by rw [shorter, List.append_nil, List.append_nil]⟩
      | cons x xs =>
        obtain ⟨rfl, -⟩ := List.cons.inj later
        exact absurd (by simp [shorter]) noBracket
  have noSemicolon : ';' ∉ rest := by
    intro mem
    rcases List.mem_append.1 (initial.subset mem) with mem | mem
    · revert mem
      decide
    · have := blank _ mem
      revert this
      decide
  have first : 'c' ∈ rest := by
    cases rest with
    | nil => exact absurd rfl more
    | cons x xs =>
      obtain ⟨rfl, -⟩ := List.cons_prefix_cons.1 initial
      exact List.mem_cons_self
  rw [ends] at whole
  rcases List.append_eq_append_iff.1 whole with ⟨excess, -, longer⟩ | ⟨excess, -, shorter⟩
  · rw [longer] at noSemicolon
    simp at noSemicolon
  · cases excess with
    | nil =>
      rw [List.nil_append] at shorter
      rw [← shorter] at noSemicolon
      simp at noSemicolon
    | cons x xs =>
      obtain ⟨-, feeds⟩ := List.cons.inj shorter
      have feed : 'c' ∈ ['\n', '\n'] := by
        rw [feeds]
        exact List.mem_append_right _ first
      revert feed
      decide

theorem script_eased_constantsFront [Engine] (some : numbers ≠ []) (t : Text) :
    Script.Eased t (Fix.constantsFront false numbers ++ t) := by
  have later : ∀ {needle : Text}, t.includes needle = true →
      (Fix.constantsFront false numbers ++ t).includes needle = true := by
    intro needle h
    rw [Text.includes_iff] at h ⊢
    exact List.infix_append_of_infix_right h
  have hooks := Pattern.findAll_front (t := t) rfl rfl (quiet_stateHook digits some)
    apart_constantsFront
  have startsEffect : Script.effect.StartsWith ["useEffect("] := ⟨rfl, rfl⟩
  have effects := findAll_constantsFront false digits startsEffect rfl (by decide) t
  have startsThree : Script.threeUse.StartsWith ["from", "THREE."] := ⟨rfl, rfl⟩
  constructor
  case imports =>
    intro h
    rw [Bool.or_eq_true] at h ⊢
    exact h.imp later later
  case react =>
    intro h
    rwa [SourceView.importsReact, includes_constantsFront digits (by decide),
      includes_constantsFront digits (by decide)] at h
  case lists =>
    intro h
    rwa [includes_constantsFront digits (by decide)] at h
  case keys => exact later
  case names =>
    exact map_eq_of_forall₂ (hooks.imp fun hit hit' alike => (Hit.groupChars_front alike 1).symm)
  case effects =>
    refine effects.imp fun hit hit' alike name _ => ?_
    rw [Script.declaredNames, Script.declaredNames, Hit.groupChars_front alike,
      Hit.groupChars_front alike]
    exact ⟨rfl, rfl⟩
  case scenes =>
    intro h
    rwa [occurs_constantsFront digits startsThree rfl (by decide)] at h
  case disposal => exact later

end

/-- Constants for unexplained numbers never make the report of a file worse, unless the file is
    markup. -/
theorem eases_extractMagicNumbers [Engine] {fileName : String} (family : Family.ofName fileName ≠ .html)
    (t : Text) : Eases fileName t (Fix.extractMagicNumbers fileName t) := by
  rw [Fix.extractMagicNumbers_eq]
  split
  · exact Eases.refl fileName t
  · rename_i some
    have some : Fix.undeclaredNumbers t ≠ [] := by simpa using some
    have digits : ∀ number ∈ Fix.undeclaredNumbers t, ∀ c ∈ number, isDecimalDigit c = true :=
      fun number mem c hc => isDecimalDigit_of_mem_undeclaredNumbers mem hc
    refine Eases.of_eased (universal_eased_constantsFront digits t) ?_
    revert family
    cases Family.ofName fileName with
    | html => exact fun family => absurd rfl family
    | script => exact fun _ => script_eased_constantsFront digits some t
    | python => exact fun _ => python_eased_constantsFront digits t
    | php => exact fun _ => php_eased_constantsFront digits t
    | solidity => exact fun _ => solidity_eased_constantsFront digits t
    | vue => exact fun _ => vue_eased_constantsFront digits t
    | other => exact fun _ => trivial

end SourceAudit
