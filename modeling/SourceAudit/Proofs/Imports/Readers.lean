/-
Module: SourceAudit.Proofs.Imports.Readers
Layer: Proofs
Purpose: The three readers of import lines compared: the fix that drops unused imports, the import graph,
  and the rule for unused imports. What each of them reads off a line is told by the parts of the line;
  from this follows on which lines they agree.
Main exports: ImportLine.IsSpaced, mem_localBindings_iff, mem_importBindings_iff, mem_importedNames_iff,
  ImportLine.ReadersAgree, ImportLine.IsReadAlike, ImportLine.readersAgree_iff, imports_read_differently
-/
import SourceAudit.Proofs.Imports.Matches
import SourceAudit.Proofs.Pattern.Edits

namespace SourceAudit

open Pattern

/-! ### The imports of a text -/

/-- The words of a line are set apart by blanks. -/
def ImportLine.IsSpaced (line : ImportLine) : Prop :=
  line.gap.chars ≠ [] ∧ line.gap'.chars ≠ [] ∧ line.gap''.chars ≠ []

/-- The names that an import statement is read to bind: all entries of a list, with the marks of types
    on them, or a default name of word characters; but nothing of a clause with both. -/
def ImportClause.taken : ImportClause → List Text
  | default name => if name.chars.all isWordChar then [name.chars] else []
  | named slots => (entriesOf slots).map ImportEntry.shown
  | both _ _ _ _ => []

theorem localBindings_ofHit (hit : Hit) : (ImportSpec.ofHit hit).localBindings =
    ((keptTexts hit.groups).lookup 2).toList ++
      (importEntries (((keptTexts hit.groups).lookup 1).getD [])).map
        fun entry => localBinding (Text.of entry) := by
  rw [ImportSpec.localBindings, ImportSpec.ofHit, hit.groupChars_eq, ← hit.map_chars_group? 2]
  cases hit.group? 2 <;> simp [Text.of, Text.str]

theorem localBindings_of_mem {line : ImportLine} {hit : Hit}
    (mem : hit ∈ importStatement.findAll line.text) :
    line.IsSpaced ∧ line.source.chars ≠ [] ∧
      (ImportSpec.ofHit hit).localBindings = line.clause.taken := by
  obtain ⟨before, cs, after, whole, spelled⟩ := exists_spells_of_mem_findAll mem
  obtain ⟨g, x, g', g'', q, source, q', taken, rfl, kept, gap, clause, gap', gap'', quoted, some,
    unquoted, quoted'⟩ := spells_importStatement.1 spelled
  have seams : (before ++ ("import".toList ++ (g ++ (x ++ (g' ++ ("from".toList ++ g'')))))) ++
      q :: (source ++ q' :: after) = line.text := by
    rw [whole]
    simp
  obtain ⟨front, rfl⟩ := ImportLine.eq_front_of_quotes seams quoted quoted' fun c mem => by
    simpa [noneOf, oneOf] using unquoted c mem
  have last : ∀ c ∈ (before ++ ("import".toList ++ (g ++ x))).getLast?, isBlank c = false := by
    rw [← List.append_assoc, ← List.append_assoc]
    exact solid_last_append _ clause.solid_last.1 clause.solid_last.2
  obtain ⟨same, rfl, rfl⟩ := ImportLine.eq_of_clause gap'.2 gap''.2 last (by rw [← front]; simp)
  rw [localBindings_ofHit, kept]
  cases clause with
  | @list list nonempty closed =>
    obtain ⟨first, slots, isNamed, rfl⟩ := eq_named_of_list gap same
    refine ⟨⟨first, gap'.1, gap''.1⟩, some, ?_⟩
    rw [isNamed]
    exact importEntries_listed slots
  | name nonempty word =>
    obtain ⟨first, name, isDefault, rfl⟩ := eq_default_of_name gap nonempty word same
    refine ⟨⟨first, gap'.1, gap''.1⟩, some, ?_⟩
    rw [isDefault, ImportClause.taken, if_pos (List.all_eq_true.2 word)]
    rfl

/-- The import that a line makes is read off it. -/
theorem occurs_importStatement {line : ImportLine} (spaced : line.IsSpaced)
    (some : line.source.chars ≠ []) (names : line.clause.taken ≠ []) :
    importStatement.occurs line.text = true := by
  have unquoted : ∀ c ∈ line.source.chars, noneOf "'\"" c = true := fun c mem => by
    simpa [noneOf, oneOf] using line.unquoted_source c mem
  have written (taken : List (Nat × Text)) (clause : IsTaken line.clause.text taken) :
      importStatement.occurs line.text = true := by
    refine (occurs_iff_spells rfl).2 ⟨line.lead.chars, _, line.tail, _, ?_, spells_importStatement.2
      ⟨line.gap.chars, line.clause.text, line.gap'.chars, line.gap''.chars, line.quote,
        line.source.chars, line.quote, taken, rfl, rfl, ⟨spaced.1, line.gap.blank⟩, clause,
        ⟨spaced.2.1, line.gap'.blank⟩, ⟨spaced.2.2, line.gap''.blank⟩, line.isQuote_quote, some,
        unquoted, line.isQuote_quote⟩⟩
    simp [ImportLine.text, ImportLine.front, ImportLine.head]
  cases clause : line.clause with
  | default name =>
    rw [clause, ImportClause.taken] at names
    split at names
    · rename_i word
      refine written [(2, name.chars)] ?_
      rw [clause]
      exact .name name.some (List.all_eq_true.1 word)
    · exact absurd rfl names
  | named slots =>
    rw [clause, ImportClause.taken] at names
    refine written [(1, listText slots)] ?_
    rw [clause]
    exact .list (listText_ne_nil names) fun mem => absurd (mem_listText mem) (by decide)
  | both name before after slots =>
    rw [clause, ImportClause.taken] at names
    exact absurd rfl names

theorem mem_localBindings_iff (line : ImportLine) (name : Text) :
    name ∈ (importStatements line.text).flatMap ImportSpec.localBindings ↔
      line.IsSpaced ∧ line.source.chars ≠ [] ∧ name ∈ line.clause.taken := by
  simp only [importStatements, List.mem_flatMap, List.mem_map]
  constructor
  · rintro ⟨i, ⟨hit, mem, rfl⟩, bound⟩
    obtain ⟨spaced, some, all⟩ := localBindings_of_mem mem
    exact ⟨spaced, some, all ▸ bound⟩
  · rintro ⟨spaced, some, bound⟩
    obtain ⟨hit, mem⟩ := List.exists_mem_of_ne_nil _ <| (findAll_ne_nil_iff _ _).2 <|
      occurs_importStatement spaced some (List.ne_nil_of_mem bound)
    exact ⟨_, ⟨hit, mem, rfl⟩, (localBindings_of_mem mem).2.2 ▸ bound⟩

/-! ### The names of a fix -/

/-- The names that a clause binds, those of its list first. -/
def ImportClause.bound : ImportClause → List Text
  | default name => [name.chars]
  | named slots => (entriesOf slots).map ImportEntry.bound
  | both name _ _ slots => (entriesOf slots).map ImportEntry.bound ++ [name.chars]

theorem plainBindings_blank {t : Text} (blank : ∀ c ∈ t, isBlank c = true) :
    Fix.plainBindings t = [] := by
  have whole : ',' ∉ t := fun mem => absurd (blank _ mem) (by decide)
  rw [Fix.plainBindings, Text.pieces_eq_singleton (Text.beq_eq_false_of_not_mem whole),
    List.map_singleton, trim_eq_nil_iff.2 blank]
  rfl

theorem plainBindings_name {t : Text} (name : ImportName) (padded : IsPadded t name.chars) :
    Fix.plainBindings t = [name.chars] := by
  have trimmed := (trim_eq_iff_isPadded name.some name.solid).2 padded
  obtain ⟨a, z, rfl, before, after⟩ := padded
  have whole : ',' ∉ a ++ (name.chars ++ z) := by
    intro mem
    rcases List.mem_append.1 mem with mem | mem
    · exact absurd (before _ mem) (by decide)
    · rcases List.mem_append.1 mem with mem | mem
      · exact absurd (name.letters _ mem) (by decide)
      · exact absurd (after _ mem) (by decide)
  have alone := localBinding_entry (.plain name) ⟨[], by simp, by simp⟩ ⟨[], by simp, by simp⟩
  rw [List.nil_append, List.append_nil] at alone
  rw [Fix.plainBindings, Text.pieces_eq_singleton (Text.beq_eq_false_of_not_mem whole),
    List.map_singleton, trimmed,
    show name.chars = (ImportEntry.plain name).text from rfl, alone]
  simp [ImportEntry.shown, ImportEntry.bound, name.some, ImportEntry.text]

theorem plainBindings_append (t t' : Text) :
    Fix.plainBindings (t ++ ',' :: t') = Fix.plainBindings t ++ Fix.plainBindings t' := by
  rw [Fix.plainBindings, Text.pieces_append (by decide), List.map_append, List.filter_append]
  rfl

/-- The names of a clause, with or without a list. -/
def Fix.clauseBindings (clause : Text) : List Text :=
  match Fix.namedClause.find clause with
  | some named =>
    Fix.namedBindings (named.groupChars 1) ++ Fix.plainBindings (splice clause 0 [(named, [])])
  | none => Fix.plainBindings clause

theorem importBindings?_eq (line : Text) : Fix.importBindings? line =
    (Fix.importClause.find line).map fun hit => Fix.clauseBindings (hit.groupChars 1) := by
  rw [Fix.importBindings?]
  cases Fix.importClause.find line with
  | none => rfl
  | some hit =>
    simp only [Option.map_some, Fix.clauseBindings]
    cases Fix.namedClause.find (hit.groupChars 1) <;> rfl

theorem clauseBindings_of_no_list {clause : Text} (none : '{' ∉ clause) :
    Fix.clauseBindings clause = Fix.plainBindings clause := by
  rw [Fix.clauseBindings]
  cases found : Fix.namedClause.find clause with
  | none => rfl
  | some named =>
    obtain ⟨before, cs, after, rfl, -, spelled⟩ := exists_spells_of_find found
    obtain ⟨list, rfl, -⟩ := spells_namedClause.1 spelled
    simp at none

theorem clauseBindings_of_list {u list z : Text} (before : '{' ∉ u) (unopened : '{' ∉ list)
    (closed : '}' ∉ list) (after : '{' ∉ z) :
    Fix.clauseBindings (u ++ '{' :: (list ++ '}' :: z)) =
      Fix.namedBindings list ++ Fix.plainBindings (u ++ z) := by
  have occurs : Fix.namedClause.occurs (u ++ '{' :: (list ++ '}' :: z)) = true :=
    (occurs_iff_spells rfl).2 ⟨u, _, z, _, by simp, spells_namedClause.2 ⟨list, rfl, rfl, closed⟩⟩
  obtain ⟨named, found⟩ := Option.isSome_iff_exists.1 occurs
  obtain ⟨u', cs, z', whole, place, spelled⟩ := exists_spells_of_find found
  obtain ⟨list', rfl, kept, closed'⟩ := spells_namedClause.1 spelled
  rw [Fix.clauseBindings, found]
  have other {t : Text} {x : Char} (absent : x ∉ t) : ∀ c ∈ t, (c == x) = false :=
    Text.beq_eq_false_of_not_mem absent
  have seams : u' ++ '{' :: (list' ++ '}' :: z') = u ++ '{' :: (list ++ '}' :: z) := by
    rw [whole]
    simp
  obtain ⟨rfl, -, rest⟩ := Text.seam_unique (· == '{') seams (by decide) (other before)
    (other (by simp [unopened, after]))
  obtain ⟨rfl, -, rfl⟩ := Text.split_unique (· == '}') rest (other closed') (other closed) (by decide)
    (by decide)
  have list : named.groupChars 1 = list' := by
    rw [named.groupChars_eq, kept]
    rfl
  have outside : splice (u' ++ '{' :: (list' ++ '}' :: z')) 0 [(named, [])] = u' ++ z' := by
    simp [splice, Hit.offset, place, Cursor.between]
  simp only [list, outside]

/-- The names of a clause are read off it with blanks around it. -/
theorem clauseBindings_of_padded {clause : ImportClause} {body : Text}
    (padded : IsPadded body clause.text) : Fix.clauseBindings body = clause.bound := by
  obtain ⟨a, z, rfl, before, after⟩ := padded
  have unopened {t : Text} (blank : ∀ c ∈ t, isBlank c = true) : '{' ∉ t :=
    fun mem => absurd (blank _ mem) (by decide)
  have unnamed (name : ImportName) : '{' ∉ name.chars :=
    fun mem => absurd (name.letters _ mem) (by decide)
  have listed {x : Char}
      (foreign : ¬ ((isBlank x = true ∧ x ≠ '\n') ∨ isWordChar x = true ∨ x = '$' ∨ x = ','))
      (slots : List ImportSlot) : x ∉ listText slots := fun mem => foreign (mem_listText mem)
  cases clause with
  | default name =>
    have plain : '{' ∉ a ++ (name.chars ++ z) := by
      simp [unopened before, unopened after, unnamed name.toImportName]
    rw [ImportClause.text, clauseBindings_of_no_list plain]
    exact plainBindings_name name.toImportName ⟨a, z, rfl, before, after⟩
  | named slots =>
    have parts : a ++ ((ImportClause.named slots).text ++ z) =
        a ++ '{' :: (listText slots ++ '}' :: z) := by
      simp [ImportClause.text]
    rw [parts, clauseBindings_of_list (unopened before) (listed (by decide) slots)
      (listed (by decide) slots) (unopened after), namedBindings_listed,
      plainBindings_blank (List.forall_mem_append.2 ⟨before, after⟩), List.append_nil]
    rfl
  | both name gap gap' slots =>
    have parts : a ++ ((ImportClause.both name gap gap' slots).text ++ z) =
        (a ++ (name.chars ++ gap.chars) ++ ',' :: gap'.chars) ++
          '{' :: (listText slots ++ '}' :: z) := by
      simp [ImportClause.text]
    have front : '{' ∉ a ++ (name.chars ++ gap.chars) ++ ',' :: gap'.chars := by
      simp [unopened before, unopened gap.blank, unopened gap'.blank, unnamed name.toImportName]
    rw [parts, clauseBindings_of_list front (listed (by decide) slots) (listed (by decide) slots)
      (unopened after), namedBindings_listed, List.append_assoc, List.cons_append,
      plainBindings_append, plainBindings_name name.toImportName ⟨a, gap.chars, rfl, before, gap.blank⟩,
      plainBindings_blank (List.forall_mem_append.2 ⟨gap'.blank, after⟩)]
    rfl

/-- A name before something that is none of its characters is known from the whole. -/
theorem ImportName.eq_of_append (name : ImportName) {w r r' : Text} {x : Char}
    (letters : w.all isWordChar = true) (stop : (isWordChar x || x == '$') = false)
    (stop' : ∀ c ∈ r'.head?, (isWordChar c || c == '$') = false) (some : r' ≠ [])
    (same : w ++ x :: r = name.chars ++ r') : w = name.chars := by
  obtain ⟨y, r', rfl⟩ := List.exists_cons_of_ne_nil some
  refine (Text.split_unique (fun c => !(isWordChar c || c == '$')) same ?_ ?_ ?_ ?_).1
  · exact fun c mem => by simp [List.all_eq_true.1 letters c mem]
  · intro c mem
    rcases name.letters c mem with word | rfl
    · simp [word]
    · decide
  · simp [stop]
  · simp [stop' y rfl]

/-- The word that marks types does not stand before a clause. -/
theorem ImportClause.unmarked (clause : ImportClause) {g r r' : Text} (gap : IsGap g)
    (follows : r ≠ [] ∧ ∀ c ∈ r.head?, isBlank c = true) :
    "type".toList ++ (g ++ r') ≠ clause.text ++ r := by
  intro same
  obtain ⟨b, bs, rfl⟩ := List.exists_cons_of_ne_nil gap.1
  have soft {c : Char} (blank : isBlank c = true) : (isWordChar c || c == '$') = false := by
    rw [isWordChar_of_isBlank blank, Bool.false_or, beq_eq_false_iff_ne]
    rintro rfl
    exact absurd blank (by decide)
  have stop := soft (gap.2 b List.mem_cons_self)
  cases clause with
  | default name =>
    exact name.unmarked (name.eq_of_append (by decide) stop (fun c mem => soft (follows.2 c mem))
      follows.1 same).symm
  | named slots => exact absurd (List.cons.inj same).1 (by decide)
  | both name before after slots =>
    rw [text, List.append_assoc] at same
    refine name.unmarked (name.eq_of_append (by decide) stop ?_ (by simp) same).symm
    intro c mem
    cases front : before.chars with
    | nil =>
      rw [front] at mem
      obtain rfl : c = ',' := by simpa using mem.symm
      decide
    | cons x xs =>
      rw [front] at mem
      obtain rfl : c = x := by simpa using mem.symm
      exact soft (before.blank c (by simp [front]))

/-- Blanks around something that begins and ends with none, where there are some in another reading. -/
theorem gaps_ne_nil {g g' a z mark body core : Text} (gap : IsGap g) (gap' : IsGap g') (some : core ≠ [])
    (first : ∀ c ∈ core.head?, isBlank c = false) (last : ∀ c ∈ core.getLast?, isBlank c = false)
    (same : g ++ (mark ++ (body ++ g')) = a ++ (core ++ z)) : a ≠ [] ∧ z ≠ [] := by
  constructor
  · rintro rfl
    obtain ⟨b, bs, rfl⟩ := List.exists_cons_of_ne_nil gap.1
    have solid := solid_first_append z some first b (by
      rw [← List.nil_append (core ++ z), ← same]
      rfl)
    rw [gap.2 b List.mem_cons_self] at solid
    cases solid
  · rintro rfl
    obtain ⟨bs, b, rfl⟩ : ∃ bs b, g' = bs ++ [b] :=
      ⟨_, _, (List.dropLast_concat_getLast gap'.1).symm⟩
    rw [List.append_nil, ← List.append_assoc, ← List.append_assoc, ← List.append_assoc] at same
    have solid := solid_last_append a some last b (by
      rw [← same, List.getLast?_concat]
      rfl)
    rw [gap'.2 b (by simp)] at solid
    cases solid

/-- A match of the fix's pattern covers the line up to its first quote and keeps the clause with some of
    the blanks around it. -/
theorem isPadded_of_find {line : ImportLine} {hit : Hit}
    (found : Fix.importClause.find line.text = some hit) :
    line.IsSpaced ∧ IsPadded (hit.groupChars 1) line.clause.text := by
  obtain ⟨before, cs, after, whole, -, spelled⟩ := exists_spells_of_find found
  obtain ⟨lead, g, mark, body, g', g'', q, rfl, kept, rfl, blank, gap, marked, -, -, gap', gap'',
    quoted⟩ := spells_importClause.1 spelled
  have isBody : hit.groupChars 1 = body := by
    rw [hit.groupChars_eq, kept]
    rfl
  rw [isBody]
  have front : lead ++ ("import".toList ++ (g ++ (mark ++ (body ++ g')))) ++ ("from".toList ++ g'') =
      line.front := by
    obtain ⟨gs, b, rfl⟩ : ∃ gs b, g' = gs ++ [b] :=
      ⟨_, _, (List.dropLast_concat_getLast gap'.1).symm⟩
    have seam : (lead ++ ("import".toList ++ (g ++ (mark ++ (body ++ gs)))) ++
        b :: ("from".toList ++ g'')) ++ q :: after = line.text := by
      rw [whole]
      simp
    rw [← ImportLine.eq_front_of_quote (gap'.2 b (by simp)) gap''.2 seam quoted]
    simp
  obtain ⟨same, rfl⟩ := ImportLine.eq_of_from gap''.2 front
  have inner : g ++ (mark ++ (body ++ g')) = line.gap.chars ++ (line.clause.text ++ line.gap'.chars) := by
    have word (w : Text) : ∀ c ∈ ("import".toList ++ w).head?, isBlank c = false :=
      letters_first_append w (by decide) (by decide)
    rw [ImportLine.head, List.append_assoc, List.append_assoc] at same
    exact List.append_cancel_left (gap_unique_front same blank line.lead.blank (word _) (word _)).2
  obtain ⟨first, last⟩ := gaps_ne_nil gap gap' line.clause.text_ne_nil
    line.clause.solid_first line.clause.solid_last inner
  refine ⟨⟨first, last, gap''.1⟩, ?_⟩
  rcases marked with rfl | ⟨between, rfl, gapped⟩
  · exact isPadded_of_gaps inner gap.2 gap'.2 line.gap.blank line.gap'.blank line.clause.text_ne_nil
      line.clause.solid_first line.clause.solid_last
  · rw [List.append_assoc] at inner
    have begins := solid_first_append line.gap'.chars line.clause.text_ne_nil line.clause.solid_first
    have word := letters_first_append (w := "type".toList) (between ++ (body ++ g')) (by decide)
      (by decide)
    refine absurd (gap_unique_front inner gap.2 line.gap.blank word begins).2
      (line.clause.unmarked gapped ⟨last, ?_⟩)
    exact fun c mem => line.gap'.blank c (List.mem_of_mem_head? mem)

/-- The names that a fix reads off a line. -/
theorem mem_importBindings_iff (line : ImportLine) (name : Text) :
    name ∈ (Fix.importBindings? line.text).getD [] ↔ line.IsSpaced ∧ name ∈ line.clause.bound := by
  rw [importBindings?_eq]
  cases found : Fix.importClause.find line.text with
  | some hit =>
    obtain ⟨spaced, padded⟩ := isPadded_of_find found
    simp [clauseBindings_of_padded padded, spaced]
  | none =>
    simp only [Option.map_none, Option.getD_none, List.not_mem_nil, false_iff, not_and]
    intro spaced
    have occurs : Fix.importClause.occurs line.text = true := by
      refine (occurs_iff_spells rfl).2 ⟨[], _, line.source.chars ++ line.quote :: line.tail, _, ?_,
        spells_importClause.2 ⟨line.lead.chars, line.gap.chars, [], line.clause.text, line.gap'.chars,
          line.gap''.chars, line.quote, rfl, rfl, rfl, line.lead.blank, ⟨spaced.1, line.gap.blank⟩,
          .inl rfl, line.clause.text_ne_nil, ?_, ⟨spaced.2.1, line.gap'.blank⟩,
          ⟨spaced.2.2, line.gap''.blank⟩, line.isQuote_quote⟩⟩
      · simp [ImportLine.text, ImportLine.front, ImportLine.head]
      · exact fun mem => absurd (line.clause.mem_text mem) (by decide)
    rw [Pattern.occurs, found] at occurs
    cases occurs

/-! ### The names of the rule for imports -/

/-- No list for an import stands behind the clause of a line: it could only be in the specifier. -/
theorem no_list_behind {line : ImportLine} {slots : List ImportSlot} {v g r : Text} (gap : IsGap g)
    (same : listText slots ++ '}' :: (line.gap'.chars ++ ("from".toList ++ (line.gap''.chars ++
        line.quote :: (line.source.chars ++ line.quote :: line.tail)))) =
      (v ++ ("import".toList ++ g)) ++ '{' :: r) : False := by
  have unquoted : line.quote ∉ "import".toList ++ (g ++ ['{']) := by
    refine line.quote_not_mem (List.forall_mem_append.2 ⟨?_, List.forall_mem_append.2 ⟨?_, ?_⟩⟩)
    · exact fun c mem => .inr (.inl (isWordChar_of_mem (by decide) mem))
    · exact fun c mem => .inl (gap.2 c mem)
    · exact List.forall_mem_singleton.2 (.inr (.inr (by decide)))
  have needle : "import".toList ++ (g ++ ['{']) <:+:
      (listText slots ++ '}' :: (line.gap'.chars ++ ("from".toList ++ line.gap''.chars))) ++
        line.quote :: (line.source.chars ++ line.quote :: line.tail) := by
    refine ⟨v, r, ?_⟩
    simp only [List.append_assoc, List.cons_append, List.nil_append] at same ⊢
    exact same.symm
  have brace {t : Text} (inside : "import".toList ++ (g ++ ['{']) <:+: t) : '{' ∈ t :=
    inside.subset (by simp)
  rw [Text.infix_append_cons unquoted, Text.infix_append_cons unquoted] at needle
  rcases needle with amid | inside | behind
  · have mem := brace amid
    simp only [List.mem_append, List.mem_cons] at mem
    rcases mem with mem | mem | mem | mem | mem
    · exact absurd (mem_listText mem) (by decide)
    · exact absurd mem (by decide)
    · exact absurd (line.gap'.blank _ mem) (by decide)
    · exact absurd mem (by decide)
    · exact absurd (line.gap''.blank _ mem) (by decide)
  · obtain ⟨b, bs, rfl⟩ := List.exists_cons_of_ne_nil gap.1
    refine line.source.starts b (gap.2 b List.mem_cons_self) (List.IsInfix.trans ?_ inside)
    exact ⟨[], bs ++ ['{'], by simp⟩
  · exact absurd (line.ending '{' (brace behind)).1 (by decide)

theorem importedNames_of_mem {line : ImportLine} {slots : List ImportSlot}
    (isNamed : line.clause = .named slots) {hit : Hit}
    (mem : hit ∈ Script.namedImport.findAll line.text) :
    line.gap.chars ≠ [] ∧ line.gap'.chars ≠ [] ∧ hit.groupChars 1 = listText slots := by
  obtain ⟨before, cs, after, whole, spelled⟩ := exists_spells_of_mem_findAll mem
  obtain ⟨g, list, g', rfl, kept, gap, some, closed, gap'⟩ := spells_namedImport.1 spelled
  have isList : hit.groupChars 1 = list := by
    rw [hit.groupChars_eq, kept]
    rfl
  -- The text from the first word to the opening brace.
  have seams : (before ++ ("import".toList ++ g)) ++
      '{' :: (list ++ '}' :: (g' ++ ("from".toList ++ after))) =
      line.head ++ '{' :: (listText slots ++ '}' :: (line.gap'.chars ++ ("from".toList ++
        (line.gap''.chars ++ line.quote :: (line.source.chars ++ line.quote :: line.tail))))) := by
    have written : line.text = line.head ++ '{' :: (listText slots ++ '}' :: (line.gap'.chars ++
        ("from".toList ++ (line.gap''.chars ++
          line.quote :: (line.source.chars ++ line.quote :: line.tail))))) := by
      simp [ImportLine.text, ImportLine.front, isNamed, ImportClause.text]
    rw [← written, whole]
    simp
  have unopened : '{' ∉ line.head := fun mem => absurd (line.mem_head mem) (by decide)
  have unclosed : '}' ∉ listText slots := fun mem => absurd (mem_listText mem) (by decide)
  rw [isList]
  obtain ⟨front, -, rest⟩ | ⟨v, split, rest⟩ :=
    Text.seam_or_later (· == '{') seams (by decide) (Text.beq_eq_false_of_not_mem unopened)
  · obtain ⟨rfl, -, behind⟩ := Text.split_unique (· == '}') rest (Text.beq_eq_false_of_not_mem closed)
      (Text.beq_eq_false_of_not_mem unclosed) (by decide) (by decide)
    have word (w : Text) : ∀ c ∈ ("from".toList ++ w).head?, isBlank c = false :=
      letters_first_append w (by decide) (by decide)
    obtain ⟨same, -⟩ := gap_unique_front behind gap'.2 line.gap'.blank (word _) (word _)
    exact ⟨ImportLine.eq_of_head gap.2 front ▸ gap.1, same ▸ gap'.1, rfl⟩
  · have absent : '{' ∉ "import".toList ++ g := by
      intro mem
      rcases List.mem_append.1 mem with mem | mem
      · exact absurd mem (by decide)
      · exact absurd (gap.2 _ mem) (by decide)
    obtain ⟨v, rfl⟩ := suffix_behind split absent
    exact (no_list_behind gap rest).elim

theorem mem_importedNames_iff {line : ImportLine} {slots : List ImportSlot}
    (isNamed : line.clause = .named slots) (name : Text) :
    name ∈ Script.importedNames line.text ↔ line.gap.chars ≠ [] ∧ line.gap'.chars ≠ [] ∧
      name ∈ (entriesOf slots).map ImportEntry.shown := by
  rw [Script.importedNames, List.filter_flatMap, List.mem_flatMap]
  constructor
  · rintro ⟨hit, mem, bound⟩
    obtain ⟨first, second, isList⟩ := importedNames_of_mem isNamed mem
    rw [isList, localBindings_listed] at bound
    exact ⟨first, second, bound⟩
  · rintro ⟨first, second, bound⟩
    have some := listText_ne_nil (List.ne_nil_of_mem bound)
    have closed : '}' ∉ listText slots := fun mem => absurd (mem_listText mem) (by decide)
    have occurs : Script.namedImport.occurs line.text = true := by
      refine (occurs_iff_spells rfl).2 ⟨line.lead.chars, _,
        line.gap''.chars ++ line.quote :: (line.source.chars ++ line.quote :: line.tail), _, ?_,
        spells_namedImport.2 ⟨line.gap.chars, listText slots, line.gap'.chars, rfl, rfl,
          ⟨first, line.gap.blank⟩, some, closed, ⟨second, line.gap'.blank⟩⟩⟩
      simp [ImportLine.text, ImportLine.front, ImportLine.head, isNamed, ImportClause.text]
    obtain ⟨hit, mem⟩ := List.exists_mem_of_ne_nil _ ((findAll_ne_nil_iff _ _).2 occurs)
    refine ⟨hit, mem, ?_⟩
    rw [(importedNames_of_mem isNamed mem).2.2, localBindings_listed]
    exact bound

/-! ### Agreement -/

/-- The same names, in any order and number. -/
def SameNames (names names' : List Text) : Prop := ∀ name, name ∈ names ↔ name ∈ names'

namespace ImportLine

/-- The readers give the same local names: the fix the same as the import graph and, for a list, as the
    rule for unused imports. -/
def ReadersAgree (line : ImportLine) : Prop :=
  SameNames ((Fix.importBindings? line.text).getD [])
    ((importStatements line.text).flatMap ImportSpec.localBindings) ∧
  ∀ slots, line.clause = .named slots →
    SameNames ((Fix.importBindings? line.text).getD []) (Script.importedNames line.text)

/-- What keeps the readers together. A default name is to consist of word characters and to come from
    somewhere; a list is to hold no mark of a type, unless it is empty or no reader takes it for one; and
    a clause with both is read alike only where it is not read at all. -/
def IsReadAlike (line : ImportLine) : Prop :=
  match line.clause with
  | .default name => line.IsSpaced → line.source.chars ≠ [] ∧ name.chars.all isWordChar = true
  | .named slots => entriesOf slots = [] ∨ line.gap.chars = [] ∨ line.gap'.chars = [] ∨
      line.gap''.chars ≠ [] ∧ line.source.chars ≠ [] ∧ ∀ entry ∈ entriesOf slots, entry.isTyped = false
  | .both _ _ _ _ => ¬ line.IsSpaced

variable {line : ImportLine}

/-- A default name is read alike if it can be matched where the words are set apart. -/
theorem readersAgree_default {name : DefaultName} (isDefault : line.clause = .default name) :
    line.ReadersAgree ↔
      (line.IsSpaced → line.source.chars ≠ [] ∧ name.chars.all isWordChar = true) := by
  simp only [ReadersAgree, SameNames, mem_importBindings_iff, mem_localBindings_iff, isDefault,
    ImportClause.bound, ImportClause.taken, List.mem_singleton]
  constructor
  · rintro ⟨same, -⟩ spaced
    obtain ⟨-, some, taken⟩ := (same name.chars).1 ⟨spaced, rfl⟩
    split at taken
    · exact ⟨some, ‹_›⟩
    · cases taken
  · intro alike
    refine ⟨fun n => ?_, nofun⟩
    constructor
    · rintro ⟨spaced, rfl⟩
      obtain ⟨some, word⟩ := alike spaced
      exact ⟨spaced, some, by simp [word]⟩
    · rintro ⟨spaced, some, taken⟩
      rw [if_pos (alike spaced).2, List.mem_singleton] at taken
      exact ⟨spaced, taken⟩

/-- A list is read alike if it has no mark of a type where some reader takes it for one. -/
theorem readersAgree_named {slots : List ImportSlot} (isNamed : line.clause = .named slots) :
    line.ReadersAgree ↔
      entriesOf slots = [] ∨ line.gap.chars = [] ∨ line.gap'.chars = [] ∨
        line.gap''.chars ≠ [] ∧ line.source.chars ≠ [] ∧
          ∀ entry ∈ entriesOf slots, entry.isTyped = false := by
  have agree : line.ReadersAgree ↔
      (∀ n, line.IsSpaced ∧ n ∈ (entriesOf slots).map ImportEntry.bound ↔
        line.IsSpaced ∧ line.source.chars ≠ [] ∧ n ∈ (entriesOf slots).map ImportEntry.shown) ∧
      ∀ n, line.IsSpaced ∧ n ∈ (entriesOf slots).map ImportEntry.bound ↔
        line.gap.chars ≠ [] ∧ line.gap'.chars ≠ [] ∧
          n ∈ (entriesOf slots).map ImportEntry.shown := by
    simp only [ReadersAgree, SameNames, mem_importBindings_iff, mem_localBindings_iff,
      mem_importedNames_iff isNamed, isNamed, ImportClause.bound, ImportClause.taken,
      ImportClause.named.injEq, forall_eq']
  rw [agree]
  constructor
  · rintro ⟨same, listed⟩
    by_cases first : line.gap.chars = []
    · exact .inr (.inl first)
    by_cases second : line.gap'.chars = []
    · exact .inr (.inr (.inl second))
    cases entries : entriesOf slots with
    | nil => exact .inl rfl
    | cons entry others =>
      rw [← entries]
      have mem : entry ∈ entriesOf slots := by simp [entries]
      -- The rule reads the entry, so the fix does, and then the import graph.
      obtain ⟨spaced, -⟩ := (listed entry.shown).2 ⟨first, second, List.mem_map_of_mem mem⟩
      obtain ⟨-, some, -⟩ := (same entry.bound).1 ⟨spaced, List.mem_map_of_mem mem⟩
      refine .inr (.inr (.inr ⟨spaced.2.2, some, (mem_bound_iff_mem_shown _).1 fun n => ?_⟩))
      simpa [spaced, first, second] using listed n
  · rintro (empty | glued | glued | ⟨third, some, unmarked⟩)
    · simp [empty]
    · simp [IsSpaced, glued]
    · simp [IsSpaced, glued]
    · have same := (mem_bound_iff_mem_shown _).2 unmarked
      simp [IsSpaced, third, some, same, and_assoc]

/-- A default name beside a list is read by the fix alone. -/
theorem readersAgree_both {name : DefaultName} {before after : Blanks} {slots : List ImportSlot}
    (isBoth : line.clause = .both name before after slots) :
    line.ReadersAgree ↔ ¬ line.IsSpaced := by
  simp only [ReadersAgree, SameNames, mem_importBindings_iff, mem_localBindings_iff, isBoth,
    ImportClause.bound, ImportClause.taken, List.not_mem_nil, and_false, iff_false]
  constructor
  · rintro ⟨same, -⟩ spaced
    exact same name.chars ⟨spaced, by simp⟩
  · intro glued
    exact ⟨fun n bound => glued bound.1, nofun⟩

/-- The readers of imports agree on a line exactly if it has no mark of a type, no default name beside a
    list and no default name with a dollar sign. -/
theorem readersAgree_iff (line : ImportLine) : line.ReadersAgree ↔ line.IsReadAlike := by
  rw [IsReadAlike]
  cases clause : line.clause with
  | default name => exact readersAgree_default clause
  | named slots => exact readersAgree_named clause
  | both name before after slots => exact readersAgree_both clause

end ImportLine

/-- A mark of a type, a default name beside a list and a dollar sign, each read in more than one way. -/
theorem imports_read_differently :
    (Fix.importBindings? "import \x7b type A \x7d from './a';" = some ["A".toList] ∧
      (importStatements "import \x7b type A \x7d from './a';").flatMap ImportSpec.localBindings =
        ["type A".toList] ∧
      Script.importedNames "import \x7b type A \x7d from './a';" = ["type A".toList]) ∧
    (Fix.importBindings? "import React, \x7b useState \x7d from 'react';" =
        some ["useState".toList, "React".toList] ∧
      (importStatements "import React, \x7b useState \x7d from 'react';").flatMap
        ImportSpec.localBindings = []) ∧
    (Fix.importBindings? "import $ from 'jquery';" = some ["$".toList] ∧
      (importStatements "import $ from 'jquery';").flatMap ImportSpec.localBindings = []) := by
  decide +kernel

end SourceAudit
