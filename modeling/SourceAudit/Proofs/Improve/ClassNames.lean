/-
Module: SourceAudit.Proofs.Improve.ClassNames
Layer: Proofs
Purpose: The class names that stand for extracted styles. They are read off a text as the digits behind
  each place where their stem starts; this reading goes through a text part by part, since nothing runs
  from one part into the next. The fix keeps all names and adds each new one twice, in its rule and in
  the code. New names are numbered from the number of names on, so they are fresh as long as the numbers
  in use stay below it.
Main exports: HasClass, classDigits, hasClass_iff, count_stem, perm_classDigits_extractInlineStyles,
  NumbersBelow, introduced_classes_fresh_iff, introduced_class_collides
-/
import SourceAudit.Proofs.Improve.Styles
import SourceAudit.Proofs.Text.Trim
import Mathlib.Data.List.Nodup

namespace SourceAudit

open Pattern Cursor

/-- What the generated class names start with. -/
def classStem : Text := Fix.extractedStyleStem.toList

/-- The text has the generated class name with this number: the stem and just this number. -/
def HasClass (t : Text) (n : Nat) : Prop :=
  ∃ before after, t = before ++ (Fix.styleClass n ++ after) ∧ ∀ y ∈ after.head?, y.isDigit = false

/-- The digits behind each place of a text where the stem of the class names starts, with `after` behind
    the text. -/
def classDigits (after : Text) : Text → List Text
  | [] => []
  | x :: u =>
    if classStem.isPrefixOf (x :: (u ++ after)) then
      ((x :: (u ++ after)).drop classStem.length).takeWhile Char.isDigit :: classDigits after u
    else classDigits after u

section

variable {t u v w r after : Text} {n : Nat} {x : Char}

theorem classDigits_append (u v after : Text) :
    classDigits after (u ++ v) = classDigits (v ++ after) u ++ classDigits after v := by
  induction u with
  | nil => rfl
  | cons x u ih =>
    rw [List.cons_append, classDigits, classDigits, ih, List.append_assoc]
    split <;> rfl

/-! ### Where no class name starts -/

theorem classDigits_eq_nil_iff : classDigits after u = [] ↔
    ∀ a b, u = a ++ b → b ≠ [] → ¬ classStem <+: b ++ after := by
  induction u with
  | nil =>
    refine ⟨fun _ a b split some => ?_, fun _ => rfl⟩
    exact absurd (List.append_eq_nil_iff.1 split.symm).2 some
  | cons x u ih =>
    rw [classDigits]
    constructor
    · intro none a b split some
      split at none
      · cases none
      · rename_i absent
        cases a with
        | nil =>
          obtain rfl : x :: u = b := split
          rwa [List.isPrefixOf_iff_prefix] at absent
        | cons y a => exact ih.1 none a b (List.cons.inj split).2 some
    · intro absent
      rw [if_neg, ih]
      · exact fun a b split => absent (x :: a) b (by rw [split]; rfl)
      · rw [List.isPrefixOf_iff_prefix]
        exact absent [] (x :: u) rfl (List.cons_ne_nil _ _)

theorem not_prefix_of_clashes {cs : Text} (clash : clashes (· == ·) cs u = true) :
    ¬ cs <+: u ++ after := by
  induction cs generalizing u with
  | nil => cases clash
  | cons c cs ih =>
    cases u with
    | nil => cases clash
    | cons x u =>
      rw [clashes, Bool.or_eq_true] at clash
      rw [List.cons_append, List.cons_prefix_cons]
      rintro ⟨rfl, part⟩
      exact ih (clash.resolve_left (by simp)) part

/-- In a known text that differs from the stem at each of its places, no class name starts. -/
theorem classDigits_of_clashes
    (stuck : u.tails.all (fun s => s.isEmpty || clashes (· == ·) classStem s) = true) :
    classDigits after u = [] := by
  rw [classDigits_eq_nil_iff]
  intro a b split some
  have here := List.all_eq_true.1 stuck b ((List.mem_tails _ _).2 ⟨a, split.symm⟩)
  have nonempty : b.isEmpty = false := by simpa using some
  rw [nonempty, Bool.false_or] at here
  exact not_prefix_of_clashes here

theorem classDigits_of_not_mem (absent : 'e' ∉ u) : classDigits after u = [] := by
  rw [classDigits_eq_nil_iff]
  rintro a b rfl some part
  obtain ⟨x, b, rfl⟩ := List.exists_cons_of_ne_nil some
  have first : 'e' = x := (List.cons_prefix_cons.1 part).1
  exact absent (List.mem_append_right _ (first ▸ List.mem_cons_self))

/-! ### Parts of a text -/

/-- Nothing runs into the text from before: it starts with no digit and with no end of the stem. -/
def StandsApart (after : Text) : Prop :=
  (∀ y ∈ after.head?, y.isDigit = false) ∧ ∀ c, c <:+ classStem → c ≠ [] → ¬ c <+: after

theorem standsApart_nil : StandsApart [] :=
  ⟨by simp, fun _ _ some part => some (List.prefix_nil.1 part)⟩

theorem standsApart_cons (other : x ∉ classStem) (digit : x.isDigit = false) : StandsApart (x :: r) := by
  refine ⟨by simpa using digit, fun c ends some part => ?_⟩
  obtain ⟨y, c, rfl⟩ := List.exists_cons_of_ne_nil some
  obtain ⟨rfl, -⟩ := List.cons_prefix_cons.1 part
  exact other (ends.subset List.mem_cons_self)

theorem standsApart_of_clashes (digit : w.head?.any Char.isDigit = false) (some : w ≠ [])
    (stuck : classStem.tails.all (fun c => c.isEmpty || clashes (· == ·) c w) = true) :
    StandsApart (w ++ r) := by
  have other : ∀ y ∈ (w ++ r).head?, y.isDigit = false := by
    intro y first
    rw [List.head?_append_of_ne_nil _ some, Option.mem_def] at first
    rwa [first] at digit
  refine ⟨other, fun c ends written => ?_⟩
  have here := List.all_eq_true.1 stuck c ((List.mem_tails _ _).2 ends)
  have nonempty : c.isEmpty = false := by simpa using written
  rw [nonempty, Bool.false_or] at here
  exact not_prefix_of_clashes here

theorem takeWhile_isDigit_append (apart : ∀ y ∈ after.head?, y.isDigit = false) :
    (r ++ after).takeWhile Char.isDigit = r.takeWhile Char.isDigit := by
  induction r with
  | nil =>
    cases after with
    | nil => rfl
    | cons y after => simp [apart y rfl]
  | cons x r ih => rw [List.cons_append, List.takeWhile_cons, List.takeWhile_cons, ih]

theorem StandsApart.prefix_append_iff (apart : StandsApart after) :
    classStem <+: u ++ after ↔ classStem <+: u := by
  refine ⟨fun part => ?_, fun part => part.trans (List.prefix_append u after)⟩
  rcases List.prefix_or_prefix_of_prefix part (List.prefix_append u after) with inside | ⟨c, split⟩
  · exact inside
  · cases c with
    | nil => rw [← split, List.append_nil]
    | cons y c =>
      rw [← split, List.prefix_append_right_inj] at part
      exact absurd part (apart.2 _ ⟨u, split⟩ (List.cons_ne_nil _ _))

/-- What stands apart behind a part does not matter for the class names in it. -/
theorem StandsApart.classDigits (apart : StandsApart after) (u : Text) :
    classDigits after u = SourceAudit.classDigits [] u := by
  induction u with
  | nil => rfl
  | cons x u ih =>
    have same : classStem.isPrefixOf (x :: (u ++ after)) = classStem.isPrefixOf (x :: (u ++ [])) := by
      rw [Bool.eq_iff_iff, List.isPrefixOf_iff_prefix, List.isPrefixOf_iff_prefix, List.append_nil]
      exact apart.prefix_append_iff (u := x :: u)
    rw [SourceAudit.classDigits, SourceAudit.classDigits, same, ih]
    split
    · rename_i starts
      rw [List.isPrefixOf_iff_prefix, List.append_nil] at starts
      obtain ⟨r, split⟩ := starts
      have behind (after : Text) : (x :: (u ++ after)).drop classStem.length = r ++ after := by
        rw [← List.cons_append, ← split, List.append_assoc, List.drop_left]
      rw [behind, behind, takeWhile_isDigit_append apart.1, List.append_nil]
    · rfl

/-- At the stem the digits behind it are read off. -/
theorem classDigits_stem (after : Text) :
    classDigits after classStem = [after.takeWhile Char.isDigit] := by
  have first : classStem = 'e' :: "xtracted-style-".toList := rfl
  have here : classStem.isPrefixOf ('e' :: ("xtracted-style-".toList ++ after)) = true :=
    List.isPrefixOf_iff_prefix.2 (List.prefix_append classStem after)
  have behind : ('e' :: ("xtracted-style-".toList ++ after)).drop classStem.length = after :=
    @List.drop_left _ classStem after
  conv_lhs => rw [first]
  rw [classDigits, if_pos here, behind, classDigits_of_clashes rfl]

/-- A generated class name is read off as its number. -/
theorem classDigits_styleClass (n : Nat) (apart : ∀ y ∈ after.head?, y.isDigit = false) :
    classDigits after (Fix.styleClass n) = [Nat.toDigits 10 n] := by
  have digits : ∀ c ∈ Nat.toDigits 10 n, c.isDigit = true :=
    fun c => Nat.isDigit_of_mem_toDigits (by decide) (by decide)
  have none : 'e' ∉ Nat.toDigits 10 n := fun digit => absurd (digits 'e' digit) (by decide)
  rw [styleClass_eq]
  change classDigits after (classStem ++ _) = _
  rw [classDigits_append, classDigits_stem, takeWhile_isDigit_append apart,
    List.takeWhile_eq_self_iff.2 digits, classDigits_of_not_mem none, List.append_nil]

/-- The text has a class name exactly if its number is among those that are read off. -/
theorem hasClass_iff : HasClass t n ↔ Nat.toDigits 10 n ∈ classDigits [] t := by
  constructor
  · rintro ⟨before, after, rfl, apart⟩
    rw [classDigits_append, classDigits_append, List.append_nil after, classDigits_styleClass n apart]
    simp
  · intro mem
    induction t with
    | nil => cases mem
    | cons x t ih =>
      have later (mem : Nat.toDigits 10 n ∈ classDigits [] t) : HasClass (x :: t) n := by
        obtain ⟨before, after, rfl, apart⟩ := ih mem
        exact ⟨x :: before, after, rfl, apart⟩
      rw [classDigits] at mem
      split at mem
      · rename_i starts
        rcases List.mem_cons.1 mem with here | mem
        · rw [List.isPrefixOf_iff_prefix, List.append_nil] at starts
          obtain ⟨r, split⟩ := starts
          rw [List.append_nil, ← split, List.drop_left] at here
          refine ⟨[], r.dropWhile Char.isDigit, ?_, ?_⟩
          · rw [← split, styleClass_eq, here, List.nil_append, List.append_assoc,
              List.takeWhile_append_dropWhile]
            rfl
          · intro y first
            have other := List.head?_dropWhile_not Char.isDigit r
            rwa [first] at other
        · exact later mem
      · exact later mem

/-! ### How often the stem stands in a text -/

theorem matchAt_text_eq_none_iff (s : String) (before v : Text) :
    (text s).matchAt (between before v) = none ↔ ¬ s.toList <+: v := by
  rw [matchAt_between_eq_none_iff]
  constructor
  · rintro silent ⟨r, rfl⟩
    exact silent _ r [] rfl (spells_text.2 ⟨rfl, rfl⟩)
  · rintro none cs after kept rfl spelled
    obtain ⟨rfl, -⟩ := spells_text.1 spelled
    exact none ⟨after, rfl⟩

theorem length_classDigits_of_reading {before rest : Text} {gaps : List Text} {hits : List Hit}
    (reading : (text Fix.extractedStyleStem).Reading before rest gaps hits) :
    (classDigits [] rest).length = hits.length := by
  induction reading with
  | last silent =>
    rw [silentIn_iff (matchAt_text_eq_none_iff _)] at silent
    rw [classDigits_eq_nil_iff.2 silent]
    rfl
  | @next before u rest hit gaps hits silent found later ih =>
    rw [silentIn_iff (matchAt_text_eq_none_iff _)] at silent
    obtain ⟨_, -, -, spelled⟩ := exists_chars_of_matchAt found
    have stem : hit.chars = classStem := (spells_text.1 spelled).1
    rw [classDigits_append, classDigits_append, List.append_nil, List.append_nil,
      classDigits_eq_nil_iff.2 silent, stem, classDigits_stem, List.nil_append, List.length_append, ih,
      List.length_singleton, List.length_cons, Nat.add_comm]

theorem count_stem (t : Text) :
    (text Fix.extractedStyleStem).count t = (classDigits [] t).length :=
  (length_classDigits_of_reading (reading_findAll rfl t)).symm

/-! ### The parts that the fix writes -/

theorem standsApart_of_isBlank (blank : isBlank x = true) : StandsApart (x :: r) := by
  refine standsApart_cons ?_ ?_
  · intro inside
    have solid : classStem.all (fun c => !isBlank c) = true := rfl
    simpa [blank] using List.all_eq_true.1 solid x inside
  · rw [Bool.eq_false_iff]
    intro digit
    have low : 48 ≤ x.toNat ∧ x.toNat ≤ 57 := by
      simpa [Char.isDigit, UInt32.le_iff_toNat_le] using digit
    rw [isBlank] at blank
    split at blank <;> simp at blank <;> omega

/-- Blanks around a text have nothing to do with its class names. -/
theorem classDigits_trim (t : Text) : classDigits [] t.trim = classDigits [] t := by
  obtain ⟨g, g', parts, blank, blank'⟩ := exists_blanks_trim_blanks t
  have none (g : Text) (blank : ∀ c ∈ g, isBlank c = true) (after : Text) : classDigits after g = [] := by
    refine classDigits_of_not_mem fun inside => ?_
    cases blank 'e' inside
  have apart : StandsApart (g' ++ []) := by
    cases g' with
    | nil => exact standsApart_nil
    | cons x g' => exact standsApart_of_isBlank (blank' x List.mem_cons_self)
  conv_rhs => rw [parts]
  rw [classDigits_append, classDigits_append, none g blank, none g' blank', apart.classDigits,
    List.nil_append, List.append_nil]

/-- A rule names its class, and all classes that its declarations name. -/
theorem classDigits_classRule (n : Nat) (body after : Text) :
    classDigits after (classRule n body) = Nat.toDigits 10 n :: classDigits [] body := by
  have dot (after : Text) : classDigits after ".".toList = [] := classDigits_of_not_mem (by decide)
  have opening (after : Text) : classDigits after " \x7b ".toList = [] :=
    classDigits_of_not_mem (by decide)
  have closing (after : Text) : classDigits after " \x7d".toList = [] :=
    classDigits_of_not_mem (by decide)
  have apart : StandsApart (" \x7d".toList ++ after) := standsApart_cons (by decide) (by decide)
  have name (r : Text) : classDigits (" \x7b ".toList ++ r) (Fix.styleClass n) = [Nat.toDigits 10 n] :=
    classDigits_styleClass n (by simp)
  unfold classRule
  rw [classDigits_append, classDigits_append, classDigits_append, classDigits_append, dot, name, opening,
    apart.classDigits, classDigits_trim, closing]
  simp

theorem classDigits_classAttribute (n : Nat) (after : Text) :
    classDigits after (classAttribute n) = [Nat.toDigits 10 n] := by
  have opening (after : Text) : classDigits after "className=\"".toList = [] :=
    classDigits_of_clashes rfl
  have quote (after : Text) : classDigits after "\"".toList = [] := classDigits_of_not_mem (by decide)
  have name (r : Text) : classDigits ("\"".toList ++ r) (Fix.styleClass n) = [Nat.toDigits 10 n] :=
    classDigits_styleClass n (by simp)
  unfold classAttribute
  rw [classDigits_append, classDigits_append, opening, name, quote]
  rfl

theorem standsApart_classAttribute (n : Nat) (after : Text) : StandsApart (classAttribute n ++ after) := by
  unfold classAttribute
  rw [List.append_assoc, List.append_assoc]
  exact standsApart_of_clashes rfl (by decide) rfl

theorem classDigits_unlines {rules : List Text}
    (each : ∀ rule ∈ rules, ∀ after, classDigits after rule = classDigits [] rule) (after : Text) :
    classDigits after (Text.unlines rules) = rules.flatMap (classDigits []) := by
  induction rules with
  | nil => rfl
  | cons rule rules ih =>
    obtain ⟨here, others⟩ := List.forall_mem_cons.1 each
    cases rules with
    | nil => rw [Text.unlines_singleton, here, List.flatMap_singleton]
    | cons rule' rules =>
      have feed : classDigits (Text.unlines (rule' :: rules) ++ after) ['\n'] = [] :=
        classDigits_of_not_mem (by decide)
      rw [Text.unlines_cons_cons, ← List.singleton_append, classDigits_append, classDigits_append, here,
        feed, ih others, List.nil_append]
      rfl

/-- The class names of a text are those in the gaps between its inline styles and those in what is
    declared in them. -/
theorem perm_classDigits_of_reading {before rest : Text} {gaps : List Text} {hits : List Hit}
    (reading : Fix.inlineStyle.Reading before rest gaps hits) :
    (classDigits [] rest).Perm (gaps.flatMap (classDigits []) ++
      hits.flatMap fun hit => classDigits [] (hit.groupChars 1)) := by
  induction reading with
  | last silent => simp
  | @next before u rest hit gaps hits silent found later ih =>
    obtain ⟨chars, -, -⟩ := chars_inlineStyle found
    have opening (r : Text) : StandsApart (styleOpening ++ r) :=
      standsApart_of_clashes rfl (by decide) rfl
    have closing (r : Text) : StandsApart (['}', '}'] ++ r) :=
      standsApart_cons (by decide) (by decide)
    have opens (after : Text) : classDigits after styleOpening = [] :=
      classDigits_of_clashes rfl
    have closes (after : Text) : classDigits after ['}', '}'] = [] := classDigits_of_not_mem (by decide)
    have style : classDigits rest hit.chars = classDigits [] (hit.groupChars 1) := by
      rw [chars, classDigits_append, classDigits_append, opens, (closing _).classDigits, closes,
        List.nil_append, List.append_nil]
    have parts : classDigits [] (u ++ (hit.chars ++ rest)) =
        classDigits [] u ++ (classDigits [] (hit.groupChars 1) ++ classDigits [] rest) := by
      rw [classDigits_append, classDigits_append, List.append_nil, List.append_nil, style, chars,
        List.append_assoc, (opening _).classDigits]
    rw [parts, List.perm_iff_count]
    intro d
    have later := List.perm_iff_count.1 ih d
    simp only [List.flatMap_cons, List.count_append] at later ⊢
    omega

/-- The class names of the new code are those in the gaps and those of the attributes. -/
theorem perm_classDigits_weave {gaps : List Text} {numbers : List Nat}
    (each : gaps.length = numbers.length + 1) :
    (classDigits [] (weave gaps (numbers.map classAttribute))).Perm
      (gaps.flatMap (classDigits []) ++ numbers.map (Nat.toDigits 10)) := by
  induction numbers generalizing gaps with
  | nil =>
    obtain ⟨gap, rfl⟩ := List.length_eq_one_iff.1 each
    simp [weave]
  | cons n numbers ih =>
    cases gaps with
    | nil => cases each
    | cons gap gaps =>
      rw [List.map_cons, weave, classDigits_append, classDigits_append, List.append_nil, List.append_nil,
        (standsApart_classAttribute n _).classDigits, classDigits_classAttribute, List.perm_iff_count]
      intro d
      have later := List.perm_iff_count.1 (ih (Nat.succ.inj each)) d
      simp only [List.flatMap_cons, List.map_cons, List.count_append, List.count_cons,
        List.count_nil] at later ⊢
      omega

theorem perm_classDigits_rules {numbers : List Nat} {bodies : List Text}
    (each : numbers.length = bodies.length) :
    ((List.zipWith classRule numbers bodies).flatMap (classDigits [])).Perm
      (numbers.map (Nat.toDigits 10) ++ bodies.flatMap (classDigits [])) := by
  induction numbers generalizing bodies with
  | nil =>
    obtain rfl := List.eq_nil_of_length_eq_zero each.symm
    rfl
  | cons n numbers ih =>
    cases bodies with
    | nil => cases each
    | cons body bodies =>
      rw [List.zipWith_cons_cons, List.flatMap_cons, classDigits_classRule, List.perm_iff_count]
      intro d
      have later := List.perm_iff_count.1 (ih (Nat.succ.inj each)) d
      simp only [List.flatMap_cons, List.map_cons, List.count_append, List.count_cons] at later ⊢
      omega

end

/-! ### The class names behind the fix -/

/-- The fix keeps the class names of the text and adds each new one twice, in its rule and in the code. -/
theorem perm_classDigits_extractInlineStyles (t : Text) :
    (classDigits [] (Fix.extractInlineStyles t)).Perm (classDigits [] t ++
      ((introducedNumbers t).map (Nat.toDigits 10) ++ (introducedNumbers t).map (Nat.toDigits 10))) := by
  have lengths := length_introducedNumbers t
  by_cases none : Fix.inlineStyle.findAll t = []
  · rw [none] at lengths
    rw [extractInlineStyles_of_findAll_eq_nil none, List.eq_nil_of_length_eq_zero lengths]
    simp
  · have heading (after : Text) : classDigits after stylesHeading = [] :=
      classDigits_of_clashes rfl
    have ending (after : Text) : classDigits after "\n*/\n".toList = [] :=
      classDigits_of_not_mem (by decide)
    have listed (after : Text) :
        classDigits after (Text.unlines (classRules t)) = (classRules t).flatMap (classDigits []) := by
      refine classDigits_unlines (fun rule mem after => ?_) after
      rw [classRules, ← List.map_uncurry_zip_eq_zipWith] at mem
      obtain ⟨⟨n, body⟩, -, rfl⟩ := List.mem_map.1 mem
      exact (classDigits_classRule n body after).trans (classDigits_classRule n body []).symm
    have reading : Fix.inlineStyle.Reading [] t (Fix.inlineStyle.gaps t) (Fix.inlineStyle.findAll t) :=
      reading_findAll rfl t
    have between : (Fix.inlineStyle.gaps t).length = (introducedNumbers t).length + 1 := by
      rw [lengths, reading.length_gaps]
    have bodies : (introducedNumbers t).length =
        ((Fix.inlineStyle.findAll t).map (·.groupChars 1)).length := by
      rw [lengths, List.length_map]
    have inText := perm_classDigits_of_reading reading
    have inCode := perm_classDigits_weave between
    have inRules := perm_classDigits_rules bodies
    rw [Fix.extractInlineStyles_eq none, classDigits_append, classDigits_append, classDigits_append,
      heading, listed, ending, List.perm_iff_count]
    intro d
    have inText := List.perm_iff_count.1 inText d
    have inCode := List.perm_iff_count.1 inCode d
    have inRules := List.perm_iff_count.1 inRules d
    rw [List.flatMap_map] at inRules
    rw [classRules]
    simp only [List.count_append, List.count_nil] at inText inCode inRules ⊢
    omega

theorem toDigits_injective : Function.Injective (Nat.toDigits 10) :=
  Function.LeftInverse.injective (g := fun digits => Nat.ofDigitChars 10 digits 0) fun _ =>
    Nat.ofDigitChars_ten_toDigits

theorem hasClass_extractInlineStyles_iff {t : Text} {n : Nat} :
    HasClass (Fix.extractInlineStyles t) n ↔ HasClass t n ∨ n ∈ introducedNumbers t := by
  rw [hasClass_iff, (perm_classDigits_extractInlineStyles t).mem_iff, List.mem_append, List.mem_append,
    or_self, List.mem_map_of_injective toDigits_injective, hasClass_iff]

theorem count_stem_extractInlineStyles (t : Text) :
    (text Fix.extractedStyleStem).count (Fix.extractInlineStyles t) =
      (text Fix.extractedStyleStem).count t + 2 * Fix.inlineStyle.count t := by
  have count : (introducedNumbers t).length = Fix.inlineStyle.count t := length_introducedNumbers t
  rw [count_stem, (perm_classDigits_extractInlineStyles t).length_eq, List.length_append,
    List.length_append, List.length_map, count, ← count_stem, Nat.two_mul]

/-- Every number in a class name of the text is less than the number of places where the stem of the
    class names stands. -/
def NumbersBelow (t : Text) : Prop :=
  ∀ n, HasClass t n → n < (text Fix.extractedStyleStem).count t

theorem styleClass_injective : Function.Injective Fix.styleClass := by
  intro m n same
  rw [styleClass_eq, styleClass_eq] at same
  exact toDigits_injective (List.append_cancel_left same)

theorem mem_introducedNumbers {t : Text} {n : Nat} : n ∈ introducedNumbers t ↔
    (text Fix.extractedStyleStem).count t ≤ n ∧
      n < (text Fix.extractedStyleStem).count t + Fix.inlineStyle.count t := List.mem_range'_1

/-- The new class names are different, and they are all that the fix adds to the names of the text. They
    are fresh exactly if the text has none with a number that lies as far above the number of places of
    the stem. So they are fresh if all numbers in the text lie below it, and the fix keeps that so. -/
theorem introduced_classes_fresh_iff (t : Text) :
    ((introducedNumbers t).map Fix.styleClass).Nodup ∧
    (∀ n, HasClass (Fix.extractInlineStyles t) n ↔ HasClass t n ∨ n ∈ introducedNumbers t) ∧
    ((∀ n ∈ introducedNumbers t, ¬ HasClass t n) ↔
      ∀ n, HasClass t n → n < (text Fix.extractedStyleStem).count t ∨
        (text Fix.extractedStyleStem).count t + Fix.inlineStyle.count t ≤ n) ∧
    (NumbersBelow t →
      (∀ n ∈ introducedNumbers t, ¬ HasClass t n) ∧ NumbersBelow (Fix.extractInlineStyles t)) := by
  refine ⟨?_, fun n => hasClass_extractInlineStyles_iff, ?_, ?_⟩
  · exact List.Nodup.map styleClass_injective List.nodup_range'
  · constructor
    · intro fresh n there
      by_contra between
      exact fresh n (mem_introducedNumbers.2 (by omega)) there
    · intro outside n mem there
      have range := mem_introducedNumbers.1 mem
      have := outside n there
      omega
  · intro below
    refine ⟨fun n mem there => ?_, fun n there => ?_⟩
    · have range := mem_introducedNumbers.1 mem
      have := below n there
      omega
    · rw [count_stem_extractInlineStyles]
      rcases hasClass_extractInlineStyles_iff.1 there with old | new
      · have := below n old
        omega
      · have range := mem_introducedNumbers.1 new
        omega

/-- A file that was once worked on and got another style since: the new class is not the one that is
    there. -/
theorem introduced_classes_fresh_again :
    NumbersBelow "<p className=\"extracted-style-0\" style=\x7b\x7b a \x7d\x7d>" ∧
      ∀ n ∈ introducedNumbers "<p className=\"extracted-style-0\" style=\x7b\x7b a \x7d\x7d>",
        ¬ HasClass "<p className=\"extracted-style-0\" style=\x7b\x7b a \x7d\x7d>" n := by
  have below : NumbersBelow "<p className=\"extracted-style-0\" style=\x7b\x7b a \x7d\x7d>" := by
    intro n there
    have digits : classDigits [] "<p className=\"extracted-style-0\" style=\x7b\x7b a \x7d\x7d>" =
        [Nat.toDigits 10 0] := rfl
    rw [hasClass_iff, digits, List.mem_singleton] at there
    rw [count_stem, digits, toDigits_injective there]
    decide
  exact ⟨below, ((introduced_classes_fresh_iff _).2.2.2 below).1⟩

/-- A text in which one class name is left, but not the first: the number of the new one is taken. -/
theorem introduced_class_collides :
    ¬ ∀ t : Text, ((introducedNumbers t).map Fix.styleClass).Nodup ∧
      ∀ n ∈ introducedNumbers t, ¬ HasClass t n := by
  intro claim
  refine (claim ("<p className=\"extracted-style-1\">x</p>\n" ++
    "<div style=\x7b\x7b color: 'red' \x7d\x7d>y</div>")).2 1 (by decide +kernel) ?_
  exact ⟨"<p className=\"", "\">x</p>\n<div style=\x7b\x7b color: 'red' \x7d\x7d>y</div>",
    by decide +kernel, by rintro y ⟨⟩; rfl⟩

end SourceAudit
