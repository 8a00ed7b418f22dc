/-
Module: SourceAudit.Proofs.Imports.Matches
Layer: Proofs
Purpose: Where the patterns for imports match in an import line. A line has two quotes and at most one
  list, so that a match has to lie along the line's own parts: its quotes are those around the specifier,
  its blanks those between the words, and what it takes up is the list or the default name.
Main exports: IsTaken, spells_importStatement, spells_importClause, spells_namedImport,
  spells_namedClause, ImportLine.eq_front_of_quotes, ImportLine.eq_front_of_quote,
  ImportLine.eq_of_clause, eq_default_of_name, eq_named_of_list
-/
import SourceAudit.Proofs.Imports.Line
import SourceAudit.Proofs.Pattern.Spelling

namespace SourceAudit

open Pattern

/-! ### What the patterns spell -/

theorem forall_noneOf_iff {s : String} {x : Char} (one : s.toList = [x]) {t : Text} :
    (∀ c ∈ t, noneOf s c = true) ↔ x ∉ t := by
  simp only [noneOf, one, List.contains_cons, List.contains_nil, Bool.or_false, Bool.not_eq_true',
    beq_eq_false_iff_ne]
  exact ⟨fun apart mem => apart x mem rfl, fun absent c mem same => absent (same ▸ mem)⟩

theorem forall_noneOf_brace {t : Text} : (∀ c ∈ t, noneOf "\x7d" c = true) ↔ '}' ∉ t :=
  forall_noneOf_iff rfl

theorem forall_noneOf_feed {t : Text} : (∀ c ∈ t, noneOf "\n" c = true) ↔ '\n' ∉ t :=
  forall_noneOf_iff rfl

/-- What an import statement takes up: a list in braces or a name, and what is kept of it. -/
inductive IsTaken : (x : Text) → (kept : List (Nat × Text)) → Prop where
  | list {list : Text} (some : list ≠ []) (closed : '}' ∉ list) :
      IsTaken ('{' :: (list ++ ['}'])) [(1, list)]
  | name {name : Text} (some : name ≠ []) (word : ∀ c ∈ name, isWordChar c = true) :
      IsTaken name [(2, name)]

/-- What is taken up ends in its brace or in a name. -/
theorem IsTaken.solid_last {x : Text} {kept : List (Nat × Text)} (taken : IsTaken x kept) :
    x ≠ [] ∧ ∀ c ∈ x.getLast?, isBlank c = false := by
  cases taken with
  | @list list some closed =>
    refine ⟨List.cons_ne_nil _ _, ?_⟩
    rw [← List.cons_append]
    exact solid_last_concat _ (by decide)
  | name some word =>
    exact ⟨some, fun c mem => isBlank_of_isWordChar (word c (List.mem_of_mem_getLast? mem))⟩

theorem spells_importStatement {before cs after : Text} {kept : List (Nat × Text)} :
    importStatement.Spells before cs after kept ↔ ∃ g x g' g'' q source q' taken,
      cs = "import".toList ++ (g ++ (x ++ (g' ++ ("from".toList ++ g'')))) ++ q :: (source ++ [q']) ∧
      kept = taken ++ [(3, source)] ∧ IsGap g ∧ IsTaken x taken ∧ IsGap g' ∧ IsGap g'' ∧
      oneOf "'\"" q = true ∧ source ≠ [] ∧ (∀ c ∈ source, noneOf "'\"" c = true) ∧
      oneOf "'\"" q' = true := by
  simp only [importStatement, spells_append, spells_or, spells_group, spells_text, spells_gap, name,
    quote, many1, spells_most_one, spells_one, exists_and_left, and_assoc, ↓existsAndEq, true_and,
    List.append_nil, List.nil_append, exists_eq_left', forall_noneOf_brace]
  constructor
  · rintro ⟨q', source, taken, q, g'', g', x, g, rfl, rfl, gap, clause, gap', gap'', quoted, some,
      unquoted, quoted', -⟩
    refine ⟨g, x, g', g'', q, source, q', by simp, taken, rfl, gap, ?_, gap', gap'', quoted, some,
      unquoted, quoted'⟩
    rcases clause with ⟨list, rfl, rfl, some, closed, -⟩ | ⟨some, word, rfl⟩
    · exact .list some closed
    · exact .name some word
  · rintro ⟨g, x, g', g'', q, source, q', rfl, taken, rfl, gap, clause, gap', gap'', quoted, some,
      unquoted, quoted'⟩
    refine ⟨q', source, taken, q, g'', g', x, g, by simp, rfl, gap, ?_, gap', gap'', quoted, some,
      unquoted, quoted', trivial⟩
    cases clause with
    | list some closed => exact .inl ⟨_, rfl, rfl, some, closed, trivial⟩
    | name some word => exact .inr ⟨some, word, rfl⟩

theorem spells_importClause {before cs after : Text} {kept : List (Nat × Text)} :
    Fix.importClause.Spells before cs after kept ↔ ∃ lead g mark body g' g'' q,
      cs = lead ++ ("import".toList ++ (g ++ (mark ++ (body ++ (g' ++ ("from".toList ++ g'')))))) ++ [q] ∧
      kept = [(1, body)] ∧ before = [] ∧ (∀ c ∈ lead, isBlank c = true) ∧ IsGap g ∧
      (mark = [] ∨ ∃ g, mark = "type".toList ++ g ∧ IsGap g) ∧
      body ≠ [] ∧ '\n' ∉ body ∧ IsGap g' ∧ IsGap g'' ∧ oneOf "'\"" q = true := by
  simp only [Fix.importClause, spells_append, spells_textStart, spells_blanks, spells_text, spells_gap,
    spells_perhaps, spells_group, spells_fewest_one, quote, spells_one, exists_and_left, and_assoc,
    ↓existsAndEq, true_and, List.append_nil, List.nil_append, exists_eq_left', forall_noneOf_feed]
  constructor
  · rintro ⟨q, g'', g', body, kept', mark, g, lead, rfl, rfl, start, blank, gap, marked, some, inline,
      gap', gap'', quoted, -⟩
    refine ⟨lead, g, mark, body, g', g'', q, by simp, ?_, start, blank, gap, ?_, some, inline, gap', gap'',
      quoted⟩
    · rcases marked with ⟨g, -, rfl, -⟩ | ⟨-, rfl⟩ <;> rfl
    · rcases marked with ⟨g, rfl, -, gap, -⟩ | ⟨rfl, -⟩
      · exact .inr ⟨g, rfl, gap⟩
      · exact .inl rfl
  · rintro ⟨lead, g, mark, body, g', g'', q, rfl, rfl, start, blank, gap, marked, some, inline, gap',
      gap'', quoted⟩
    refine ⟨q, g'', g', body, [], mark, g, lead, by simp, rfl, start, blank, gap, ?_, some, inline, gap',
      gap'', quoted, trivial⟩
    rcases marked with rfl | ⟨g, rfl, gap⟩
    · exact .inr ⟨rfl, rfl⟩
    · exact .inl ⟨g, rfl, rfl, gap, trivial⟩

theorem spells_namedImport {before cs after : Text} {kept : List (Nat × Text)} :
    Script.namedImport.Spells before cs after kept ↔ ∃ g list g',
      cs = "import".toList ++ (g ++ '{' :: (list ++ '}' :: (g' ++ "from".toList))) ∧
      kept = [(1, list)] ∧ IsGap g ∧ list ≠ [] ∧ '}' ∉ list ∧ IsGap g' := by
  simp only [Script.namedImport, spells_append, spells_text, spells_gap, spells_group, many1,
    spells_most_one, exists_and_left, and_assoc, ↓existsAndEq, true_and, List.append_nil,
    List.nil_append, forall_noneOf_brace]
  constructor
  · rintro ⟨g', list, g, rfl, rfl, gap, some, closed, gap', -⟩
    exact ⟨g, list, g', by simp, rfl, gap, some, closed, gap'⟩
  · rintro ⟨g, list, g', rfl, rfl, gap, some, closed, gap'⟩
    exact ⟨g', list, g, by simp, rfl, gap, some, closed, gap', trivial⟩

theorem spells_namedClause {before cs after : Text} {kept : List (Nat × Text)} :
    Fix.namedClause.Spells before cs after kept ↔ ∃ list,
      cs = '{' :: (list ++ ['}']) ∧ kept = [(1, list)] ∧ '}' ∉ list := by
  simp only [Fix.namedClause, spells_append, spells_text, spells_group, spells_many, exists_and_left,
    and_assoc, ↓existsAndEq, true_and, List.append_nil, List.nil_append, forall_noneOf_brace]
  simp

/-! ### Where the patterns match -/

theorem oneOf_quotes_iff {c : Char} : oneOf "'\"" c = true ↔ c = '\'' ∨ c = '"' := by
  simp [oneOf]

theorem oneOf_quotes_eq_false {c : Char}
    (other : isBlank c = true ∨ isWordChar c = true ∨ c ∈ ['$', ',', '{', '}', ';']) :
    oneOf "'\"" c = false := by
  rw [Bool.eq_false_iff]
  intro quoted
  rcases oneOf_quotes_iff.1 quoted with rfl | rfl
  · exact absurd other (by decide)
  · exact absurd other (by decide)

namespace ImportLine

variable (line : ImportLine)

theorem isQuote_quote : oneOf "'\"" line.quote = true := oneOf_quotes_iff.2 line.isQuote

theorem unquoted_front : ∀ c ∈ line.front, oneOf "'\"" c = false := fun _ mem =>
  oneOf_quotes_eq_false <| line.mem_front mem |>.imp_right
    (·.imp_right fun here => List.mem_append_left [';'] here)

theorem unquoted_source : ∀ c ∈ line.source.chars, oneOf "'\"" c = false := by
  intro c mem
  rw [Bool.eq_false_iff, ne_eq, oneOf_quotes_iff, not_or]
  exact ⟨(line.source.unquoted c mem).1, (line.source.unquoted c mem).2.1⟩

theorem unquoted_tail : ∀ c ∈ line.tail, oneOf "'\"" c = false := fun _ mem =>
  oneOf_quotes_eq_false <| (line.ending _ mem).1.imp_right fun same => .inr (by simp [same])

theorem quote_not_mem {t : Text}
    (plain : ∀ c ∈ t, isBlank c = true ∨ isWordChar c = true ∨ c ∈ ['$', ',', '{', '}', ';']) :
    line.quote ∉ t := by
  intro mem
  have other := oneOf_quotes_eq_false (plain _ mem)
  rw [line.isQuote_quote] at other
  cases other

variable {line} {u v source after : Text} {q q' : Char}

/-- Two quotes with a text between them are those around the specifier. -/
theorem eq_front_of_quotes (same : u ++ q :: (source ++ q' :: after) = line.text)
    (quoted : oneOf "'\"" q = true) (quoted' : oneOf "'\"" q' = true)
    (unquoted : ∀ c ∈ source, oneOf "'\"" c = false) : u = line.front ∧ source = line.source.chars := by
  obtain ⟨rfl, -, rest⟩ | ⟨v, -, rest⟩ :=
    Text.seam_or_later (oneOf "'\"") same quoted line.unquoted_front
  · obtain ⟨rfl, -, -⟩ := Text.split_unique (oneOf "'\"") rest unquoted line.unquoted_source quoted'
      line.isQuote_quote
    exact ⟨rfl, rfl⟩
  · obtain ⟨-, -, back⟩ := Text.seam_unique (oneOf "'\"") rest.symm quoted line.unquoted_source
      line.unquoted_tail
    have quoteless := line.unquoted_tail q' (by simp [← back])
    rw [quoted'] at quoteless
    cases quoteless

/-- A quote behind a blank and the word that leads to a specifier is the first one. -/
theorem eq_front_of_quote {b : Char} {g : Text} (blank : isBlank b = true)
    (blanks : ∀ c ∈ g, isBlank c = true)
    (same : (u ++ b :: ("from".toList ++ g)) ++ q :: after = line.text)
    (quoted : oneOf "'\"" q = true) : u ++ b :: ("from".toList ++ g) = line.front := by
  obtain ⟨only, -, -⟩ | ⟨v, split, rest⟩ :=
    Text.seam_or_later (oneOf "'\"") same quoted line.unquoted_front
  · exact only
  · obtain ⟨rfl, -, -⟩ := Text.seam_unique (oneOf "'\"") rest.symm quoted line.unquoted_source
      line.unquoted_tail
    have absent : line.quote ∉ b :: ("from".toList ++ g) := by
      refine line.quote_not_mem
        (List.forall_mem_cons.2 ⟨.inl blank, List.forall_mem_append.2 ⟨?_, ?_⟩⟩)
      · exact fun c mem => .inr (.inl (isWordChar_of_mem (by decide) mem))
      · exact fun c mem => .inl (blanks c mem)
    obtain ⟨front, whole⟩ := suffix_behind split absent
    exact absurd ⟨front, g, by rw [← whole]; simp⟩ (line.source.leads b blank)

/-- What stands before the word that leads to the specifier, and what behind it. -/
theorem eq_of_from {g : Text} (blanks : ∀ c ∈ g, isBlank c = true)
    (same : u ++ ("from".toList ++ g) = line.front) :
    u = line.head ++ (line.clause.text ++ line.gap'.chars) ∧ g = line.gap''.chars := by
  have apart : (u ++ "from".toList) ++ g =
      ((line.head ++ (line.clause.text ++ line.gap'.chars)) ++ "from".toList) ++ line.gap''.chars := by
    rw [List.append_assoc, same, front]
    simp only [List.append_assoc]
  have last (w : Text) : ∀ c ∈ (w ++ "from".toList).getLast?, isBlank c = false :=
    letters_last_append w (by decide) (by decide)
  obtain ⟨front, behind⟩ := gap_unique_back apart blanks line.gap''.blank (last u) (last _)
  exact ⟨List.append_cancel_right front, behind⟩

/-- A clause that does not end in a blank, and the blanks around it. -/
theorem eq_of_clause {g g' : Text} (blanks : ∀ c ∈ g, isBlank c = true)
    (blanks' : ∀ c ∈ g', isBlank c = true) (last : ∀ c ∈ u.getLast?, isBlank c = false)
    (same : u ++ (g ++ ("from".toList ++ g')) = line.front) :
    u = line.head ++ line.clause.text ∧ g = line.gap'.chars ∧ g' = line.gap''.chars := by
  rw [← List.append_assoc] at same
  obtain ⟨front, behind⟩ := eq_of_from blanks' same
  rw [← List.append_assoc] at front
  obtain ⟨clause, amid⟩ := gap_unique_back front blanks line.gap'.blank last
    (solid_last_append _ line.clause.text_ne_nil line.clause.solid_last)
  exact ⟨clause, amid, behind⟩

theorem eq_of_head {g : Text} (blanks : ∀ c ∈ g, isBlank c = true)
    (same : u ++ ("import".toList ++ g) = line.head) : g = line.gap.chars := by
  have last (w : Text) : ∀ c ∈ (w ++ "import".toList).getLast?, isBlank c = false :=
    letters_last_append w (by decide) (by decide)
  rw [head, ← List.append_assoc, ← List.append_assoc] at same
  exact (gap_unique_back same blanks line.gap.blank (last u) (last _)).2

theorem mem_head {c : Char} (mem : c ∈ line.head) : isBlank c = true ∨ isWordChar c = true := by
  rw [head, List.mem_append, List.mem_append] at mem
  rcases mem with mem | mem | mem
  · exact .inl (line.lead.blank c mem)
  · exact .inr (isWordChar_of_mem (by decide) mem)
  · exact .inl (line.gap.blank c mem)

end ImportLine

/-- A name that stands between the two words of an import is its default name. -/
theorem eq_default_of_name {line : ImportLine} {before g x : Text} (gap : IsGap g) (some : x ≠ [])
    (word : ∀ c ∈ x, isWordChar c = true)
    (same : before ++ ("import".toList ++ (g ++ x)) = line.head ++ line.clause.text) :
    line.gap.chars ≠ [] ∧ ∃ name, line.clause = .default name ∧ name.chars = x := by
  have solid : ∀ c ∈ x, isBlank c = false := fun c mem => isBlank_of_isWordChar (word c mem)
  rcases line.clause.eq_default_or_closed with ⟨name, isDefault⟩ | ⟨u, closed⟩
  · rw [isDefault, ImportClause.text] at same
    have words : blankWords (before ++ ("import".toList ++ (g ++ x))) =
        blankWords (before ++ "import".toList) ++ [x] := by
      obtain ⟨b, bs, rfl⟩ := List.exists_cons_of_ne_nil gap.1
      obtain ⟨first, others⟩ := List.forall_mem_cons.1 gap.2
      rw [← List.append_assoc, List.cons_append, blankWords_append_cons first,
        blankWords_blanks_append others, blankWords_solid some solid]
    rw [same, ImportLine.head, List.append_assoc, blankWords_blanks_append line.lead.blank,
      List.append_assoc] at words
    by_cases glued : line.gap.chars = []
    · have joined : ∀ c ∈ "import".toList ++ name.chars, isBlank c = false :=
        List.forall_mem_append.2 ⟨solid_of_letters (by decide), name.solid⟩
      rw [glued, List.nil_append, blankWords_solid (by simp) joined] at words
      have none : blankWords (before ++ "import".toList) = [] := by
        have count := congrArg List.length words
        simp only [List.length_append, List.length_singleton] at count
        exact List.eq_nil_of_length_eq_zero (by omega)
      exact absurd (blankWords_eq_nil_iff.1 none 'i' (by simp)) (by decide)
    · rw [blankWords_word_append (by decide) (solid_of_letters (by decide)) glued line.gap.blank,
        blankWords_solid name.some name.solid] at words
      have last := congrArg List.getLast? words
      rw [List.getLast?_concat] at last
      exact ⟨glued, name, isDefault, by simpa using last⟩
  · have last : '}' ∈ x.getLast? := by
      have ends := congrArg List.getLast? same
      rw [closed, ← List.append_assoc, ← List.append_assoc, ← List.append_assoc,
        List.getLast?_append_of_ne_nil _ some,
        List.getLast?_append_of_ne_nil _ (List.cons_ne_nil _ _)] at ends
      rw [ends]
      rfl
    exact absurd (word '}' (List.mem_of_mem_getLast? last)) (by decide)

/-- A list that stands between the two words of an import is its only one. -/
theorem eq_named_of_list {line : ImportLine} {before g list : Text} (gap : IsGap g)
    (same : before ++ ("import".toList ++ (g ++ '{' :: (list ++ ['}']))) =
      line.head ++ line.clause.text) :
    line.gap.chars ≠ [] ∧ ∃ slots, line.clause = .named slots ∧ listText slots = list := by
  have unbraced {slots : List ImportSlot} : '{' ∉ listText slots ++ ['}'] := by
    intro mem
    rcases List.mem_append.1 mem with mem | mem
    · exact absurd (mem_listText mem) (by decide)
    · exact absurd mem (by decide)
  have headless : '{' ∉ line.head := fun mem => absurd (line.mem_head mem) (by decide)
  rw [← List.append_assoc, ← List.append_assoc] at same
  cases clause : line.clause with
  | default name =>
    have inside : '}' ∈ line.head ++ name.chars := by
      have whole : line.clause.text = name.chars := by rw [clause, ImportClause.text]
      rw [← whole, ← same]
      simp
    rcases List.mem_append.1 inside with mem | mem
    · exact absurd (line.mem_head mem) (by decide)
    · exact absurd (name.letters _ mem) (by decide)
  | named slots =>
    rw [clause, ImportClause.text] at same
    obtain ⟨front, -, back⟩ := Text.seam_unique (· == '{') same (by decide)
      (Text.beq_eq_false_of_not_mem headless) (Text.beq_eq_false_of_not_mem unbraced)
    rw [List.append_assoc] at front
    have amid := ImportLine.eq_of_head gap.2 front
    exact ⟨amid ▸ gap.1, slots, rfl, (List.append_cancel_right back).symm⟩
  | both name before' after slots =>
    -- What stands before the list ends in a comma and not in the first word.
    have parts : (before ++ "import".toList ++ g) ++ '{' :: (list ++ ['}']) =
        ((line.head ++ name.chars ++ before'.chars ++ [',']) ++ after.chars) ++
          '{' :: (listText slots ++ ['}']) := by
      rw [same, clause, ImportClause.text]
      simp
    have headless' : '{' ∉ (line.head ++ name.chars ++ before'.chars ++ [',']) ++ after.chars := by
      intro mem
      simp only [List.mem_append, List.mem_singleton] at mem
      rcases mem with (((mem | mem) | mem) | mem) | mem
      · exact headless mem
      · exact absurd (name.letters _ mem) (by decide)
      · exact absurd (before'.blank _ mem) (by decide)
      · exact absurd mem (by decide)
      · exact absurd (after.blank _ mem) (by decide)
    obtain ⟨front, -, -⟩ := Text.seam_unique (· == '{') parts (by decide)
      (Text.beq_eq_false_of_not_mem headless') (Text.beq_eq_false_of_not_mem unbraced)
    have last := letters_last_append (w := "import".toList) before (by decide) (by decide)
    have last' := solid_last_concat (line.head ++ name.chars ++ before'.chars) (x := ',') (by decide)
    have ends := congrArg List.getLast? (gap_unique_back front gap.2 after.blank last last').1
    rw [List.getLast?_append_of_ne_nil _ (by decide),
      List.getLast?_append_of_ne_nil _ (by decide)] at ends
    exact absurd ends (by decide)

end SourceAudit
