/-
Module: SourceAudit.Proofs.Improve.Styles
Layer: Proofs
Purpose: Inline styles moved into classes. The rules go into a comment in front, the class attributes
  into the gaps where the styles stood. No style comes about anew: a rule ends in one brace only, a
  class attribute has no brace at all, and where an opening in the code found no end before a style, it
  finds none before the attribute either. One pass is therefore enough.
Main exports: spells_inlineStyle, StyleAhead, introducedNumbers, classRule, classAttribute,
  Fix.extractInlineStyles_eq, silentIn_rules, silentIn_code, inline_styles_finish
-/
import SourceAudit.Proofs.Improve.Settled
import SourceAudit.Proofs.Pattern.Gaps

namespace SourceAudit

open Pattern Cursor

/-! ### Inline styles -/

/-- How an inline style opens. -/
def styleOpening : Text := "style=\x7b\x7b"

/-- The text starts with an inline style: the first closing brace behind its opening does not follow it
    at once, and is followed by another one. -/
def StyleAhead (a : Text) : Prop :=
  ∃ body r, a = styleOpening ++ (body ++ '}' :: '}' :: r) ∧ body ≠ [] ∧ '}' ∉ body

/-- The first closing brace is where nothing before it is one. -/
theorem brace_unique {u u' r r' : Text} (same : u ++ '}' :: r = u' ++ '}' :: r') (before : '}' ∉ u)
    (before' : '}' ∉ u') : u = u' ∧ r = r' := by
  have apart {u : Text} (absent : '}' ∉ u) : ∀ y ∈ u, (y == '}') = false := by
    intro y mem
    rw [beq_eq_false_iff_ne]
    rintro rfl
    exact absent mem
  obtain ⟨front, -, rest⟩ := Text.split_unique (· == '}') same (apart before) (apart before') rfl rfl
  exact ⟨front, rest⟩

section

variable {before cs after u r : Text} {kept : List (Nat × Text)} {hit : Hit} {x : Char}

theorem spells_inlineStyle : Fix.inlineStyle.Spells before cs after kept ↔
    ∃ body, cs = styleOpening ++ (body ++ ['}', '}']) ∧ body ≠ [] ∧ '}' ∉ body ∧
      kept = [(1, body)] := by
  have outside (body : Text) : (∀ x ∈ body, noneOf "\x7d" x = true) ↔ '}' ∉ body := by
    have each (x : Char) : noneOf "\x7d" x = true ↔ x ≠ '}' := by simp [noneOf]
    simp only [each]
    exact ⟨fun all inside => all '}' inside rfl, fun absent x inside same => absent (same ▸ inside)⟩
  constructor
  · rintro ⟨_, _, _, _, rfl, rfl, ⟨_, body, _, _, rfl, rfl, opening, _, inner, rfl⟩, closing⟩
    obtain ⟨rfl, rfl⟩ := spells_text.1 opening
    obtain ⟨⟨some, all⟩, rfl⟩ := spells_most_one.1 inner
    obtain ⟨rfl, rfl⟩ := spells_text.1 closing
    exact ⟨body, by rw [List.append_assoc]; rfl, some, (outside body).1 all, rfl⟩
  · rintro ⟨body, rfl, some, absent, rfl⟩
    refine ⟨styleOpening ++ body, ['}', '}'], [(1, body)], [], by simp, rfl, ?_,
      spells_text.2 ⟨rfl, rfl⟩⟩
    exact ⟨styleOpening, body, [], [(1, body)], rfl, rfl, spells_text.2 ⟨rfl, rfl⟩, [],
      spells_most_one.2 ⟨⟨some, (outside body).2 absent⟩, rfl⟩, rfl⟩

theorem matchAt_inlineStyle_eq_none_iff (before v : Text) :
    Fix.inlineStyle.matchAt (between before v) = none ↔ ¬ StyleAhead v := by
  rw [matchAt_between_eq_none_iff]
  constructor
  · rintro silent ⟨body, r, rfl, some, absent⟩
    exact silent (styleOpening ++ (body ++ ['}', '}'])) r _ (by simp)
      (spells_inlineStyle.2 ⟨body, rfl, some, absent, rfl⟩)
  · rintro none cs after kept rfl spelled
    obtain ⟨body, rfl, some, absent, -⟩ := spells_inlineStyle.1 spelled
    exact none ⟨body, after, by simp, some, absent⟩

/-- What stands where an inline style is found. -/
theorem chars_inlineStyle (found : Fix.inlineStyle.matchAt (between before r) = some hit) :
    hit.chars = styleOpening ++ (hit.groupChars 1 ++ ['}', '}']) ∧ hit.groupChars 1 ≠ [] ∧
      '}' ∉ hit.groupChars 1 := by
  obtain ⟨after, -, -, spelled⟩ := exists_chars_of_matchAt found
  obtain ⟨body, chars, some, absent, kept⟩ := spells_inlineStyle.1 spelled
  have first : hit.groupChars 1 = body := by
    rw [Hit.groupChars_eq, kept]
    rfl
  rw [first]
  exact ⟨chars, some, absent⟩

/-! ### Where no style starts -/

/-- Before a single closing brace no style starts. -/
theorem silentIn_brace (absent : '}' ∉ u) (other : x ≠ '}') :
    Fix.inlineStyle.SilentIn before (u ++ ['}']) (x :: after) := by
  rw [silentIn_iff matchAt_inlineStyle_eq_none_iff]
  rintro a b split some ⟨body, r, same, -, absent'⟩
  obtain ⟨b, y, rfl⟩ := (List.eq_nil_or_concat b).resolve_left some
  rw [List.concat_eq_append, ← List.append_assoc] at split
  obtain ⟨rfl, last⟩ := List.append_inj' split rfl
  obtain rfl := List.singleton_inj.1 last
  have whole : b ++ '}' :: x :: after = (styleOpening ++ body) ++ '}' :: '}' :: r := by
    simpa using same
  have opening : '}' ∉ styleOpening := by decide
  obtain ⟨-, rest⟩ := brace_unique whole (fun mem => absent (List.mem_append_right _ mem))
    (by simp [opening, absent'])
  exact other (List.cons.inj rest).1

/-- No style starts in front of the last line feed of rules that have one closing brace each, at their
    end. -/
theorem silentIn_rules {lead : Text} {rules : List Text} (some : rules ≠ [])
    (closed : ∀ rule ∈ rules, ∃ u, rule = u ++ ['}'] ∧ '}' ∉ u) (absent : '}' ∉ lead) :
    Fix.inlineStyle.SilentIn before (lead ++ Text.unlines rules) ('\n' :: after) := by
  induction rules generalizing lead before with
  | nil => exact absurd rfl some
  | cons rule rules ih =>
    obtain ⟨⟨u, rfl, single⟩, others⟩ := List.forall_mem_cons.1 closed
    cases rules with
    | nil =>
      rw [Text.unlines_singleton, ← List.append_assoc]
      exact silentIn_brace (by simp [absent, single]) (by decide)
    | cons rule' rules =>
      rw [Text.unlines_cons_cons, ← List.append_assoc, ← List.append_assoc]
      refine .append (silentIn_brace (by simp [absent, single]) (by decide)) ?_
      exact ih (List.cons_ne_nil _ _) others (show '}' ∉ ['\n'] by decide)

end

/-! ### What the fix writes -/

/-- The numbers of the class names that the fix introduces. -/
def introducedNumbers (t : Text) : List Nat :=
  List.range' ((text Fix.extractedStyleStem).count t) (Fix.inlineStyle.count t)

/-- The rule for a class. -/
def classRule (n : Nat) (body : Text) : Text :=
  "." ++ Fix.styleClass n ++ " \x7b " ++ body.trim ++ " \x7d"

/-- The attribute that gives an element a class. -/
def classAttribute (n : Nat) : Text := "className=\"" ++ Fix.styleClass n ++ "\""

/-- The rules for the inline styles of a text, in their order. -/
def classRules (t : Text) : List Text :=
  List.zipWith classRule (introducedNumbers t) ((Fix.inlineStyle.findAll t).map (·.groupChars 1))

/-- The heading above the rules. -/
def stylesHeading : Text := "/* Extracted styles - move to CSS file:\n"

theorem length_introducedNumbers (t : Text) :
    (introducedNumbers t).length = (Fix.inlineStyle.findAll t).length := List.length_range' ..

/-- The output is the rules in a comment, and the text with class attributes in the gaps between its
    inline styles. -/
theorem Fix.extractInlineStyles_eq {t : Text} (some : inlineStyle.findAll t ≠ []) :
    extractInlineStyles t = stylesHeading ++ Text.unlines (classRules t) ++ "\n*/\n" ++
      weave (inlineStyle.gaps t) ((introducedNumbers t).map classAttribute) := by
  have numbered : (inlineStyle.findAll t).zipIdx ((text extractedStyleStem).count t) =
      (inlineStyle.findAll t).zip (introducedNumbers t) := List.zipIdx_eq_zip_range'
  have rules : ((inlineStyle.findAll t).zip (introducedNumbers t)).map
      (fun x => classRule x.2 (x.1.groupChars 1)) = classRules t := by
    rw [classRules, List.zipWith_map_right, List.zipWith_comm, List.map_zip_eq_zipWith]
    rfl
  have hits : ((inlineStyle.findAll t).zip (introducedNumbers t)).map Prod.fst =
      inlineStyle.findAll t := List.map_fst_zip (length_introducedNumbers t).ge
  have numbers : ((inlineStyle.findAll t).zip (introducedNumbers t)).map
      (fun x => classAttribute x.2) = (introducedNumbers t).map classAttribute := by
    have second : ((inlineStyle.findAll t).zip (introducedNumbers t)).map Prod.snd =
        introducedNumbers t := List.map_snd_zip (length_introducedNumbers t).le
    rw [← congrArg (List.map classAttribute) second, List.map_map]
    rfl
  rw [extractInlineStyles, numbered, gaps]
  generalize (inlineStyle.findAll t).zip (introducedNumbers t) = edits at rules hits numbers ⊢
  have written : edits.isEmpty = false := by
    rw [List.isEmpty_eq_false_iff, ne_eq, ← List.map_eq_nil_iff (f := Prod.fst), hits]
    exact some
  rw [← rules, ← numbers, ← hits, written, splice_eq_weave, List.map_map, List.map_map]
  rfl

/-! ### Nothing is left -/

section

variable {before u rest : Text} {hit : Hit}

/-- The digits of a number. -/
theorem styleClass_eq (n : Nat) :
    Fix.styleClass n = Fix.extractedStyleStem.toList ++ Nat.toDigits 10 n := by
  rw [Fix.styleClass, Text.of, Text.of, Nat.toString_eq_repr, Nat.toList_repr]

theorem classAttribute_eq (n : Nat) : classAttribute n =
    "className=\"extracted-style-".toList ++ (Nat.toDigits 10 n ++ ['"']) := by
  have stem : "className=\"extracted-style-".toList =
      "className=\"".toList ++ Fix.extractedStyleStem.toList := rfl
  have quote : "\"".toList = ['"'] := rfl
  unfold classAttribute
  rw [styleClass_eq, stem, quote, List.append_assoc, List.append_assoc, List.append_assoc]

/-- No style starts in a class attribute. -/
theorem silentIn_classAttribute (before after : Text) (n : Nat) :
    Fix.inlineStyle.SilentIn before (classAttribute n) after := by
  rw [classAttribute_eq]
  refine .append (silentIn_of_isStuckAt rfl) ?_
  rw [silentIn_iff matchAt_inlineStyle_eq_none_iff]
  rintro a b split some ⟨body, r, same, -⟩
  obtain ⟨x, b, rfl⟩ := List.exists_cons_of_ne_nil some
  obtain rfl : x = 's' := (List.cons.inj same).1
  have among : 's' ∈ Nat.toDigits 10 n ++ ['"'] := by simp [split]
  rcases List.mem_append.1 among with digit | quote
  · have isDigit : 's'.isDigit = true := Nat.isDigit_of_mem_toDigits (by decide) (by decide) digit
    exact absurd isDigit (by decide)
  · simp at quote

/-- Where no style starts before a style, none starts before a class attribute. -/
theorem silentIn_gap (found : Fix.inlineStyle.matchAt (between (before ++ u) (hit.chars ++ rest)) = some hit)
    (silent : Fix.inlineStyle.SilentIn before u (hit.chars ++ rest)) (before' rest' : Text) (n : Nat) :
    Fix.inlineStyle.SilentIn before' u (classAttribute n ++ rest') := by
  rw [silentIn_iff matchAt_inlineStyle_eq_none_iff] at silent ⊢
  rintro a b split some ⟨body, r, same, written, absent⟩
  refine silent a b split some ?_
  obtain ⟨w, class'⟩ : ∃ w, classAttribute n ++ rest' = 'c' :: w := ⟨_, rfl⟩
  rw [class'] at same
  have opening : '}' ∉ styleOpening := by decide
  -- the opening ends before the attribute, which starts with none of its characters
  obtain ⟨b, rfl, inner⟩ : ∃ b', b = styleOpening ++ b' ∧
      b' ++ 'c' :: w = body ++ '}' :: '}' :: r := by
    rcases List.append_eq_append_iff.1 same with ⟨v, stem, behind⟩ | ⟨b', stem, behind⟩
    · cases v with
      | nil => exact ⟨[], by simpa using stem.symm, by simpa using behind⟩
      | cons y v =>
        obtain ⟨rfl, -⟩ := List.cons.inj behind
        have among : 'c' ∈ styleOpening := by simp [stem]
        exact absurd among (by decide)
    · exact ⟨b', stem, behind.symm⟩
  by_cases closed : '}' ∈ b
  · obtain ⟨front, back, rfl, absent'⟩ := List.eq_append_cons_of_mem closed
    rw [List.append_assoc, List.cons_append] at inner
    obtain ⟨rfl, behind⟩ := brace_unique inner absent' absent
    cases back with
    | nil => cases (List.cons.inj behind).1
    | cons y back =>
      obtain ⟨rfl, -⟩ := List.cons.inj behind
      exact ⟨front, back ++ (hit.chars ++ rest), by simp, written, absent⟩
  · obtain ⟨chars, written', absent'⟩ := chars_inlineStyle found
    refine ⟨b ++ styleOpening ++ hit.groupChars 1, rest, by rw [chars]; simp, ?_, ?_⟩
    · exact fun none => written' (List.append_eq_nil_iff.1 none).2
    · simp [closed, opening, absent']

/-- No style starts in the code with class attributes in the places of the styles. -/
theorem silentIn_code {gaps : List Text} {hits : List Hit}
    (reading : Fix.inlineStyle.Reading before rest gaps hits) {numbers : List Nat}
    (each : numbers.length = hits.length) (before' : Text) :
    Fix.inlineStyle.SilentIn before' (weave gaps (numbers.map classAttribute)) [] := by
  induction reading generalizing numbers before' with
  | last silent =>
    obtain rfl := List.eq_nil_of_length_eq_zero each
    rw [silentIn_iff matchAt_inlineStyle_eq_none_iff] at silent ⊢
    exact silent
  | next silent found later ih =>
    cases numbers with
    | nil => cases each
    | cons n numbers =>
      rw [List.map_cons, weave]
      refine .append ?_ (.append (silentIn_classAttribute _ _ n) (ih (Nat.succ.inj each) _))
      rw [List.append_nil]
      exact silentIn_gap found silent before' _ n

end

variable {t : Text}

theorem length_classRules (t : Text) : (classRules t).length = (Fix.inlineStyle.findAll t).length := by
  rw [classRules, List.length_zipWith, length_introducedNumbers, List.length_map, Nat.min_self]

theorem not_mem_groupChars_inlineStyle {hit : Hit} (mem : hit ∈ Fix.inlineStyle.findAll t) :
    '}' ∉ hit.groupChars 1 := by
  obtain ⟨_, _, _, -, spelled⟩ := exists_spells_of_mem_findAll mem
  obtain ⟨body, -, -, absent, kept⟩ := spells_inlineStyle.1 spelled
  rw [Hit.groupChars_eq, kept]
  exact absent

/-- A rule has one closing brace, which ends it. -/
theorem exists_of_mem_classRules {rule : Text} (mem : rule ∈ classRules t) :
    ∃ u, rule = u ++ ['}'] ∧ '}' ∉ u := by
  rw [classRules, ← List.map_uncurry_zip_eq_zipWith] at mem
  obtain ⟨⟨n, body⟩, pair, rfl⟩ := List.mem_map.1 mem
  obtain ⟨hit, among, rfl⟩ := List.mem_map.1 (List.of_mem_zip pair).2
  have inner : '}' ∉ (hit.groupChars 1).trim :=
    fun inside => not_mem_groupChars_inlineStyle among (trim_subset _ inside)
  have name : '}' ∉ Fix.styleClass n := by
    rw [styleClass_eq, List.mem_append, not_or]
    refine ⟨by decide, fun digit => ?_⟩
    have isDigit : '}'.isDigit = true := Nat.isDigit_of_mem_toDigits (by decide) (by decide) digit
    exact absurd isDigit (by decide)
  refine ⟨"." ++ Fix.styleClass n ++ " \x7b " ++ (hit.groupChars 1).trim ++ " ", ?_, ?_⟩
  · have ending : " \x7d".toList = " ".toList ++ ['}'] := rfl
    change classRule n (hit.groupChars 1) = _
    unfold classRule
    rw [ending, ← List.append_assoc]
  · simp [name, inner]

theorem extractInlineStyles_of_findAll_eq_nil (none : Fix.inlineStyle.findAll t = []) :
    Fix.extractInlineStyles t = t := by
  rw [Fix.extractInlineStyles, none]
  rfl

/-- The fix leaves no inline style. -/
theorem findAll_extractInlineStyles (t : Text) :
    Fix.inlineStyle.findAll (Fix.extractInlineStyles t) = [] := by
  by_cases none : Fix.inlineStyle.findAll t = []
  · rwa [extractInlineStyles_of_findAll_eq_nil none]
  · have rules : classRules t ≠ [] := by
      rw [ne_eq, ← List.length_eq_zero_iff, length_classRules, List.length_eq_zero_iff]
      exact none
    rw [Fix.extractInlineStyles_eq none]
    refine SilentIn.findAll_eq_nil rfl (.append (.append ?_ ?_) ?_)
    · exact silentIn_rules rules (fun rule => exists_of_mem_classRules) (by decide)
    · exact silentIn_of_isStuckAt rfl
    · exact silentIn_code (reading_findAll rfl t) (length_introducedNumbers t) _

/-- One pass moves all inline styles. Behind it there is none, neither in the code nor in the comment nor
    where the two meet. If there were any, the comment has one rule for each of them with what was
    declared there, and the code has the class attributes where the styles stood, both in the order of
    the styles. -/
theorem inline_styles_finish [Engine] (fileName code : String) :
    Settles .extractInlineStyles fileName code fun fixed =>
      Fix.inlineStyle.findAll fixed = [] ∧
      (Fix.inlineStyle.findAll (Text.of code) = [] ∧ fixed = Text.of code ∨
        Fix.inlineStyle.findAll (Text.of code) ≠ [] ∧
        (classRules (Text.of code)).length = (Fix.inlineStyle.findAll (Text.of code)).length ∧
        (introducedNumbers (Text.of code)).length = (Fix.inlineStyle.findAll (Text.of code)).length ∧
        Text.of code = weave (Fix.inlineStyle.gaps (Text.of code))
          ((Fix.inlineStyle.findAll (Text.of code)).map Hit.chars) ∧
        fixed = stylesHeading ++ Text.unlines (classRules (Text.of code)) ++ "\n*/\n" ++
          weave (Fix.inlineStyle.gaps (Text.of code))
            ((introducedNumbers (Text.of code)).map classAttribute)) := by
  have finished := findAll_extractInlineStyles (Text.of code)
  refine .of_edit Fix.extractInlineStyles (fun _ => rfl) ⟨finished, ?_⟩
    (extractInlineStyles_of_findAll_eq_nil finished)
  by_cases none : Fix.inlineStyle.findAll (Text.of code) = []
  · exact .inl ⟨none, extractInlineStyles_of_findAll_eq_nil none⟩
  · exact .inr ⟨none, length_classRules _, length_introducedNumbers _, (weave_gaps rfl _).symm,
      Fix.extractInlineStyles_eq none⟩

end SourceAudit
