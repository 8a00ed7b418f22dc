/-
Module: SourceAudit.Proofs.Improve.Numbers
Layer: Proofs
Purpose: The numbers of a text are those of its words that are made of decimal digits, so they can be
  told word by word. A line that declares the constant for a number holds this number once more and no
  other one: every digit is a word character, and the name of the constant is one word. Declaring
  constants is therefore complete, and a second run finds nothing to declare.
Main exports: isNumber, map_chars_findAll_numberPattern, magicNumbers_eq,
  pairwise_idxOf_keepOnce, Fix.magicNumbers_constantsFront, constants_declared_once
-/
import SourceAudit.Proofs.Improve.Constants
import SourceAudit.Proofs.Improve.Settled
import SourceAudit.Proofs.Pattern.Gaps
import SourceAudit.Proofs.Text.Tokens
import SourceAudit.Proofs.Text.WordChar

namespace SourceAudit

open Pattern Cursor

/-- Whether a word is a number: two decimal digits or more, and nothing else. -/
def isNumber (word : Text) : Bool := 2 ≤ word.length && word.all isDecimalDigit

/-- Whether a word is a number that needs an explanation. -/
def isUnexplained (word : Text) : Bool :=
  isNumber word && !(plainNumbers.map Text.of).contains word

section

variable {w r before a b cs after : Text} {x : Char} {kept : List (Nat × Text)}

theorem isNumber_iff : isNumber w = true ↔ 2 ≤ w.length ∧ ∀ y ∈ w, isDecimalDigit y = true := by
  rw [isNumber, Bool.and_eq_true, decide_eq_true_eq, List.all_eq_true]

theorem letters_of_digits (digits : ∀ y ∈ w, isDecimalDigit y = true) : ∀ y ∈ w, isWordChar y = true :=
  fun y mem => isWordChar_of_isDecimalDigit (digits y mem)

theorem ne_nil_of_isNumber (number : isNumber w = true) : w ≠ [] := by
  rintro rfl
  cases number

/-! ### Numbers among the words -/

theorem edges_of_isNumber (number : isNumber w = true) :
    (Edge.word.holds (between before (w ++ after)) = true ↔ ∀ y ∈ before.getLast?, isWordChar y = false) ∧
      (Edge.word.holds (between (before ++ w) after) = true ↔ ∀ y ∈ after.head?, isWordChar y = false) := by
  have letters := letters_of_digits (isNumber_iff.1 number).2
  obtain ⟨x, xs, rfl⟩ := List.exists_cons_of_ne_nil (ne_nil_of_isNumber number)
  exact ⟨wordStart_holds_iff rfl (letters x List.mem_cons_self), wordEnd_holds_iff (by simp) letters⟩

/-- A number stands between edges of words. -/
theorem spells_numberPattern : numberPattern.Spells before cs after kept ↔
    (isNumber cs = true ∧ (∀ y ∈ before.getLast?, isWordChar y = false) ∧
      ∀ y ∈ after.head?, isWordChar y = false) ∧ kept = [] := by
  constructor
  · rintro ⟨_, _, _, _, rfl, rfl, ⟨_, cs, _, _, rfl, rfl, ⟨⟨starts, rfl⟩, rfl⟩, digits, rfl⟩,
      ⟨ends, rfl⟩, rfl⟩
    have number := isNumber_iff.2 digits
    simp only [List.nil_append, List.append_nil] at starts ends ⊢
    exact ⟨⟨number, (edges_of_isNumber number).1.1 starts, (edges_of_isNumber number).2.1 ends⟩, trivial⟩
  · rintro ⟨⟨number, starts, ends⟩, rfl⟩
    refine ⟨cs, [], [], [], by simp, rfl, ⟨[], cs, [], [], rfl, rfl, ⟨⟨?_, rfl⟩, rfl⟩, ?_⟩, ⟨?_, rfl⟩, rfl⟩
    · exact (edges_of_isNumber number).1.2 starts
    · exact ⟨isNumber_iff.1 number, rfl⟩
    · exact (edges_of_isNumber number).2.2 ends

/-- A number that starts within a word is the whole word. -/
theorem eq_word_of_spells (letters : ∀ y ∈ a ++ b, isWordChar y = true)
    (ends : ∀ y ∈ r.head?, isWordChar y = false) (split : b ++ r = cs ++ after)
    (spelled : numberPattern.Spells (before ++ a) cs after kept) : a = [] ∧ cs = b := by
  obtain ⟨⟨number, starts, ends'⟩, -⟩ := spells_numberPattern.1 spelled
  obtain ⟨first, others⟩ := List.forall_mem_append.1 letters
  constructor
  · cases last : a.getLast? with
    | none => exact List.getLast?_eq_none_iff.1 last
    | some y =>
      have letter := first y (List.mem_of_getLast? last)
      rw [starts y (by rw [List.getLast?_append, last]; rfl)] at letter
      cases letter
  · have letters' := letters_of_digits (isNumber_iff.1 number).2
    exact (letters_unique split others letters' ends ends').1.symm

section

variable (letters : ∀ y ∈ w, isWordChar y = true) (starts : ∀ y ∈ before.getLast?, isWordChar y = false)
  (ends : ∀ y ∈ r.head?, isWordChar y = false)
include letters ends

include starts in
theorem exists_matchAt_number (number : isNumber w = true) :
    ∃ hit, numberPattern.matchAt (between before (w ++ r)) = some hit ∧ hit.chars = w := by
  have spelled : numberPattern.Spells before w r [] :=
    spells_numberPattern.2 ⟨⟨number, starts, ends⟩, rfl⟩
  cases found : numberPattern.matchAt (between before (w ++ r)) with
  | none => exact absurd spelled (matchAt_between_eq_none_iff.1 found w r [] rfl)
  | some hit =>
    obtain ⟨after, split, -, spelled⟩ := exists_chars_of_matchAt found
    rw [← List.append_nil before] at spelled
    exact ⟨hit, rfl, (eq_word_of_spells letters ends split spelled).2⟩

theorem matchAt_within_word (other : isNumber w = false) (split : w = a ++ b) (some : b ≠ []) :
    numberPattern.matchAt (between (before ++ a) (b ++ r)) = none := by
  subst split
  rw [matchAt_between_eq_none_iff]
  intro cs after kept split spelled
  obtain ⟨rfl, rfl⟩ := eq_word_of_spells letters ends split spelled
  rw [List.nil_append, (spells_numberPattern.1 spelled).1.1] at other
  cases other

include starts in
/-- A word is a match or it has none. -/
theorem exists_edits_behind_word {new : Hit → Text} {hits : List Hit}
    (edits : numberPattern.Edits new (between before (w ++ r)) hits after) :
    ∃ hits' after', hits.map Hit.chars = [w].filter isNumber ++ hits'.map Hit.chars ∧
      numberPattern.Edits new (between (before ++ w) r) hits' after' := by
  cases number : isNumber w with
  | true =>
    obtain ⟨hit, found, rfl⟩ := exists_matchAt_number letters starts ends number
    obtain ⟨hits', after', rfl, -, later⟩ := edits.exists_of_found rfl found
    rw [stop_of_matchAt found] at later
    exact ⟨hits', after', by simp [number], later⟩
  | false =>
    obtain ⟨after', -, later⟩ := edits.exists_of_silent fun a b split some =>
      matchAt_within_word letters ends number split some
    exact ⟨hits, after', by simp [number], later⟩

end

theorem matchAt_separator (separator : isWordChar x = false) :
    numberPattern.matchAt (between before (x :: r)) = none := by
  rw [matchAt_between_eq_none_iff]
  intro cs after kept split spelled
  have number := (spells_numberPattern.1 spelled).1.1
  obtain ⟨y, ys, rfl⟩ := List.exists_cons_of_ne_nil (ne_nil_of_isNumber number)
  obtain ⟨rfl, -⟩ := List.cons.inj split
  rw [letters_of_digits (isNumber_iff.1 number).2 x List.mem_cons_self] at separator
  cases separator

/-- Behind a place where no word runs on, the matches are the numbers among the words. -/
theorem map_chars_of_edits_numberPattern {new : Hit → Text} (t : Text) :
    ∀ {before : Text} {hits : List Hit} {after : Text}, (∀ y ∈ before.getLast?, isWordChar y = false) →
      numberPattern.Edits new (between before t) hits after →
        hits.map Hit.chars = t.wordRuns.filter isNumber := by
  -- at the start of each word no other one runs on, which a number asks for
  induction t using Text.word_induction with
  | last w letters =>
    intro before hits after starts edits
    rw [← List.append_nil w] at edits
    obtain ⟨hits', after', read, later⟩ := exists_edits_behind_word letters starts (by simp) edits
    obtain ⟨rfl, -⟩ := later.eq_nil rfl
    rw [read, Text.filter_wordRuns_of_letters letters rfl, List.map_nil, List.append_nil]
  | next w x r letters separator ih =>
    intro before hits after starts edits
    have ends : ∀ y ∈ (x :: r).head?, isWordChar y = false := by
      rintro y ⟨⟩
      exact separator
    obtain ⟨hits', after', read, later⟩ := exists_edits_behind_word letters starts ends edits
    obtain ⟨after'', -, further⟩ := later.exists_of_none (matchAt_separator separator)
    rw [read, ih (by simpa using separator) further, Text.wordRuns_append_cons separator,
      List.filter_append, Text.filter_wordRuns_of_letters letters rfl]

/-- The numbers of a text are found among its words. -/
theorem map_chars_findAll_numberPattern (t : Text) :
    (numberPattern.findAll t).map Hit.chars = t.wordRuns.filter isNumber :=
  map_chars_of_edits_numberPattern t (by simp) (edits_between_replaceAll rfl Hit.chars t)

theorem magicNumbers_eq (t : Text) : magicNumbers t = t.wordRuns.filter isUnexplained := by
  rw [magicNumbers, map_chars_findAll_numberPattern, List.filter_filter]
  exact List.filter_congr fun w _ => Bool.and_comm _ _

/-- Two texts that a separator joins have the numbers of the first and then those of the second. -/
theorem magicNumbers_append_cons (separator : isWordChar x = false) (t t' : Text) :
    magicNumbers (t ++ x :: t') = magicNumbers t ++ magicNumbers t' := by
  rw [magicNumbers_eq, Text.wordRuns_append_cons separator, List.filter_append, ← magicNumbers_eq,
    ← magicNumbers_eq]

theorem magicNumbers_of_letters (letters : ∀ y ∈ w, isWordChar y = true) :
    magicNumbers w = [w].filter isUnexplained := by
  rw [magicNumbers_eq, Text.filter_wordRuns_of_letters letters rfl]

theorem digits_of_isUnexplained (unexplained : isUnexplained w = true) :
    ∀ y ∈ w, isDecimalDigit y = true :=
  (isNumber_iff.1 ((Bool.and_eq_true _ _).mp unexplained).1).2

theorem magicNumbers_of_isUnexplained (unexplained : isUnexplained w = true) : magicNumbers w = [w] := by
  rw [magicNumbers_of_letters (letters_of_digits (digits_of_isUnexplained unexplained)),
    List.filter_cons_of_pos unexplained, List.filter_nil]

theorem magicNumbers_cons (separator : isWordChar x = false) (t : Text) :
    magicNumbers (x :: t) = magicNumbers t :=
  magicNumbers_append_cons separator [] t

theorem magicNumbers_of_digitless {t : Text} (digitless : t.any isDecimalDigit = false) :
    magicNumbers t = [] := by
  rw [magicNumbers_eq, List.filter_eq_nil_iff]
  intro w run unexplained
  obtain ⟨-, u, v, rfl, -⟩ := Text.mem_pieces_iff.1 (List.mem_filter.1 run).1
  obtain ⟨isOne, -⟩ := (Bool.and_eq_true _ _).mp unexplained
  obtain ⟨x, w, rfl⟩ := List.exists_cons_of_ne_nil (ne_nil_of_isNumber isOne)
  have digit := digits_of_isUnexplained unexplained x List.mem_cons_self
  exact List.any_eq_false.1 digitless x (by simp) digit

theorem isUnexplained_of_mem {t number : Text} (mem : number ∈ magicNumbers t) :
    isUnexplained number = true := by
  rw [magicNumbers_eq] at mem
  exact (List.mem_filter.1 mem).2

end

/-! ### The order of first occurrences -/

theorem keepOnce_concat {α : Type} [DecidableEq α] (xs : List α) (z : α) :
    keepOnce (xs ++ [z]) = if z ∈ keepOnce xs then keepOnce xs else keepOnce xs ++ [z] :=
  List.foldl_append

/-- What is kept once is kept in the order of first occurrences. -/
theorem pairwise_idxOf_keepOnce {α : Type} [DecidableEq α] [BEq α] [LawfulBEq α] (xs : List α) :
    (keepOnce xs).Pairwise fun x y => xs.idxOf x < xs.idxOf y := by
  induction xs using List.reverseRecOn with
  | nil => exact .nil
  | append_singleton xs z ih =>
    have earlier {x : α} (mem : x ∈ keepOnce xs) : (xs ++ [z]).idxOf x = xs.idxOf x :=
      List.idxOf_append_of_mem (mem_keepOnce.1 mem)
    have kept : (keepOnce xs).Pairwise fun x y => (xs ++ [z]).idxOf x < (xs ++ [z]).idxOf y :=
      ih.imp_of_mem fun mem mem' less => by rwa [earlier mem, earlier mem']
    rw [keepOnce_concat]
    split
    · exact kept
    · rename_i new
      refine List.pairwise_append.2 ⟨kept, List.pairwise_singleton _ _, ?_⟩
      rintro x mem y only
      obtain rfl := List.mem_singleton.1 only
      rw [earlier mem, List.idxOf_append_of_notMem (mt mem_keepOnce.2 new)]
      have := List.idxOf_lt_length_of_mem (mem_keepOnce.1 mem)
      omega

/-! ### Declarations -/

namespace Fix

theorem magicNumbers_constantsHeading (python : Bool) : magicNumbers (constantsHeading python) = [] :=
  magicNumbers_of_digitless (by cases python <;> rfl)

/-- The name of a constant is one word, and no number. -/
theorem magicNumbers_constantName {number : Text} (digits : ∀ y ∈ number, isDecimalDigit y = true) :
    magicNumbers (constantName number) = [] := by
  have stem : "CONSTANT_".toList.all isWordChar = true := by decide
  have letters : ∀ y ∈ constantName number, isWordChar y = true := by
    intro y mem
    rcases List.mem_append.1 (show y ∈ "CONSTANT_".toList ++ number from mem) with mem | mem
    · exact List.all_eq_true.1 stem y mem
    · exact isWordChar_of_isDecimalDigit (digits y mem)
  have other : isNumber (constantName number) = false := by
    cases number : isNumber (constantName number) with
    | false => rfl
    | true =>
      have first := (isNumber_iff.1 number).2 'C' List.mem_cons_self
      revert first
      decide
  rw [magicNumbers_of_letters letters]
  simp [isUnexplained, other]

/-- A declaration holds its number, once and alone. -/
theorem magicNumbers_constantLine (python : Bool) {number : Text}
    (unexplained : isUnexplained number = true) : magicNumbers (constantLine python number) = [number] := by
  obtain ⟨space, equals, semicolon⟩ :
      isWordChar ' ' = false ∧ isWordChar '=' = false ∧ isWordChar ';' = false := by decide
  have value := magicNumbers_of_isUnexplained unexplained
  have assigned (ending : Text) :
      magicNumbers (constantName number ++ ' ' :: '=' :: ' ' :: (number ++ ending)) =
        magicNumbers (number ++ ending) := by
    rw [magicNumbers_append_cons space, magicNumbers_constantName (digits_of_isUnexplained unexplained),
      magicNumbers_cons equals, magicNumbers_cons space, List.nil_append]
  cases python with
  | true =>
    have line : constantLine true number =
        constantName number ++ ' ' :: '=' :: ' ' :: (number ++ []) := by
      simp [constantLine]
    rw [line, assigned, List.append_nil, value]
  | false =>
    have keyword : magicNumbers "const".toList = [] := magicNumbers_of_digitless rfl
    have line : constantLine false number =
        "const".toList ++ ' ' :: (constantName number ++ ' ' :: '=' :: ' ' :: (number ++ ';' :: [])) := by
      simp [constantLine]
    rw [line, magicNumbers_append_cons space, keyword, assigned, magicNumbers_append_cons semicolon, value]
    rfl

/-- The declarations bring their numbers, in order, and leave those of the text behind them. -/
theorem magicNumbers_constantsFront (python : Bool) {numbers : List Text}
    (unexplained : ∀ number ∈ numbers, isUnexplained number = true) (t : Text) :
    magicNumbers (constantsFront python numbers ++ t) = numbers ++ magicNumbers t := by
  have feed : isWordChar '\n' = false := by decide
  have lines : magicNumbers
      (numbers.flatMap (fun number => constantLine python number ++ ['\n']) ++ '\n' :: t) =
        numbers ++ magicNumbers t := by
    induction numbers with
    | nil => exact magicNumbers_cons feed t
    | cons number numbers ih =>
      obtain ⟨first, others⟩ := List.forall_mem_cons.1 unexplained
      rw [List.flatMap_cons, List.append_assoc, List.append_assoc, List.singleton_append,
        magicNumbers_append_cons feed, magicNumbers_constantLine python first, ih others]
      rfl
  rw [constantsFront, List.append_assoc, List.cons_append, List.append_assoc, List.singleton_append,
    magicNumbers_append_cons feed, magicNumbers_constantsHeading, List.nil_append, lines]

/-- Each constant is declared in its line. -/
theorem includes_constantName_constantsFront {python : Bool} {numbers : List Text} {number : Text}
    (mem : number ∈ numbers) (t : Text) :
    (constantsFront python numbers ++ t).includes (constantName number ++ " =") = true := by
  rw [Text.includes_iff]
  have inLine : constantName number ++ " =".toList <:+: constantLine python number :=
    ⟨if python then [] else "const ".toList, ' ' :: (number ++ if python then [] else ";".toList), by
      cases python <;> simp [constantLine]⟩
  obtain ⟨before, after, rfl⟩ := List.append_of_mem mem
  refine inLine.trans ⟨constantsHeading python ++ '\n' ::
    before.flatMap (fun number => constantLine python number ++ ['\n']),
    '\n' :: (after.flatMap (fun number => constantLine python number ++ ['\n']) ++ '\n' :: t), ?_⟩
  simp [constantsFront]

end Fix

/-- What is declared and what the constants look like: the numbers of a text that have no constant in it,
    each once, in the order in which they first occur. -/
structure AreUndeclared (t : Text) (numbers : List Text) : Prop where
  mem_iff : ∀ number, number ∈ numbers ↔
    number ∈ magicNumbers t ∧ t.includes (Fix.constantName number ++ " =") = false
  once : numbers.Nodup
  ordered : numbers.Pairwise fun a b => (magicNumbers t).idxOf a < (magicNumbers t).idxOf b

theorem areUndeclared_undeclaredNumbers (t : Text) : AreUndeclared t (Fix.undeclaredNumbers t) where
  mem_iff number := by
    rw [Fix.undeclaredNumbers, List.mem_filter, mem_keepOnce, Bool.not_eq_true']
  once := (nodup_keepOnce _).filter _
  ordered := (pairwise_idxOf_keepOnce _).filter _

/-- Every number of the edited text has its constant. -/
theorem includes_extractMagicNumbers {fileName : String} {t number : Text}
    (mem : number ∈ magicNumbers (Fix.extractMagicNumbers fileName t)) :
    (Fix.extractMagicNumbers fileName t).includes (Fix.constantName number ++ " =") = true := by
  have undeclared := areUndeclared_undeclaredNumbers t
  rw [Fix.extractMagicNumbers_eq] at mem ⊢
  split at mem
  · rename_i none
    rw [if_pos none]
    cases declared : t.includes (Fix.constantName number ++ " =") with
    | true => rfl
    | false =>
      have left := (undeclared.mem_iff number).2 ⟨mem, declared⟩
      rw [List.isEmpty_iff.1 none] at left
      cases left
  · rename_i some
    rw [if_neg some]
    rw [Fix.magicNumbers_constantsFront _ fun other mem =>
      isUnexplained_of_mem ((undeclared.mem_iff other).1 mem).1] at mem
    cases declared : t.includes (Fix.constantName number ++ " =") with
    | true =>
      rw [Text.includes_iff] at declared ⊢
      exact List.infix_append_of_infix_right declared
    | false =>
      have left : number ∈ Fix.undeclaredNumbers t := by
        rcases List.mem_append.1 mem with mem | mem
        · exact mem
        · exact (undeclared.mem_iff number).2 ⟨mem, declared⟩
      exact Fix.includes_constantName_constantsFront left t

/-- Where every number has its constant, nothing is declared. -/
theorem extractMagicNumbers_eq_self {t : Text} (fileName : String)
    (declared : ∀ number ∈ magicNumbers t, t.includes (Fix.constantName number ++ " =") = true) :
    Fix.extractMagicNumbers fileName t = t := by
  have none : Fix.undeclaredNumbers t = [] := by
    rw [List.eq_nil_iff_forall_not_mem]
    intro number mem
    obtain ⟨found, absent⟩ := ((areUndeclared_undeclaredNumbers t).mem_iff number).1 mem
    rw [declared number found] at absent
    cases absent
  rw [Fix.extractMagicNumbers_eq, none]
  rfl

/-- The fix for unexplained numbers leaves the code as it is, or puts in front of it a comment, one line
    for each number that has no constant yet and an empty line. Then every number that the rule finds has
    its constant, and a second run changes nothing. -/
theorem constants_declared_once [Engine] (fileName code : String) :
    Settles .extractMagicNumbers fileName code fun fixed =>
      (∃ numbers, AreUndeclared (Text.of code) numbers ∧
        (numbers = [] ∧ fixed = Text.of code ∨
          numbers ≠ [] ∧ fixed =
            Fix.constantsHeading (Family.ofName fileName = .python) ++ '\n' ::
              (numbers.flatMap (fun number =>
                Fix.constantLine (Family.ofName fileName = .python) number ++ ['\n']) ++
                  '\n' :: Text.of code))) ∧
      ∀ number ∈ magicNumbers fixed, fixed.includes (Fix.constantName number ++ " =") = true := by
  apply Settles.of_edit (Fix.extractMagicNumbers fileName) fun _ => rfl
  · refine ⟨⟨_, areUndeclared_undeclaredNumbers (Text.of code), ?_⟩, fun number mem =>
      includes_extractMagicNumbers mem⟩
    rw [Fix.extractMagicNumbers_eq]
    split
    · rename_i none
      exact .inl ⟨List.isEmpty_iff.1 none, rfl⟩
    · rename_i some
      refine .inr ⟨by simpa using some, ?_⟩
      rw [Fix.constantsFront, List.append_assoc, List.cons_append, List.append_assoc]
      rfl
  · exact extractMagicNumbers_eq_self fileName fun number mem => includes_extractMagicNumbers mem

end SourceAudit
