/-
Module: SourceAudit.Proofs.Imports.Line
Layer: Proofs
Purpose: Import lines as they are written, and how their lists are read. A line binds a default name, a
  list of entries in braces, or both. All readers cut a list at the commas and take the alias of an
  entry, if it has one, for its name. Only the fix goes on to drop the word that marks a type.
Main exports: Blanks, ImportName, ImportEntry, ImportSlot, ImportClause, Specifier, ImportLine,
  ImportEntry.bound, ImportEntry.shown, localBinding_slot, namedBindings_listed, importEntries_listed,
  localBindings_listed, mem_bound_iff_mem_shown
-/
import SourceAudit.Fix.Imports
import SourceAudit.Imports.Statement
import SourceAudit.Proofs.Text.Words

namespace SourceAudit

/-! ### What is written -/

/-- Blanks within a line. -/
structure Blanks where
  chars : Text
  blank : ∀ c ∈ chars, isBlank c = true
  inline : '\n' ∉ chars

theorem Blanks.apart {blanks : Blanks} {c : Char} (mem : c ∈ blanks.chars) :
    isBlank c = true ∧ c ≠ '\n' :=
  ⟨blanks.blank c mem, fun feed => blanks.inline (feed ▸ mem)⟩

/-- A name of word characters and dollar signs, other than the word that leads to an alias. -/
structure ImportName where
  chars : Text
  some : chars ≠ []
  letters : ∀ c ∈ chars, isWordChar c = true ∨ c = '$'
  free : chars ≠ "as".toList

/-- A name that can stand first behind the word that starts an import: it is not the word that marks
    types. -/
structure DefaultName extends ImportName where
  unmarked : chars ≠ "type".toList

/-- An entry of a list: a name, a name with an alias, or a name that is marked as a type. Words are
    set apart by spaces, of which there may be more than one. -/
inductive ImportEntry where
  | plain (name : ImportName)
  | renamed (name : ImportName) (before after : Nat) (newName : ImportName)
  | typed (between : Nat) (name : ImportName)

/-- What stands between two commas of a list: an entry between blanks, or blanks only. -/
structure ImportSlot where
  before : Blanks
  entry : Option ImportEntry
  after : Blanks

/-- What an import binds. -/
inductive ImportClause where
  | default (name : DefaultName)
  | named (slots : List ImportSlot)
  | both (name : DefaultName) (before after : Blanks) (slots : List ImportSlot)

/-- What is imported from: a text in a line without quotes. A blank neither follows the word that
    starts an import nor stands before the word that leads to a specifier. -/
structure Specifier where
  chars : Text
  unquoted : ∀ c ∈ chars, c ≠ '\'' ∧ c ≠ '"' ∧ c ≠ '\n'
  starts : ∀ b, isBlank b = true → ¬ "import".toList ++ [b] <:+: chars
  leads : ∀ b, isBlank b = true → ¬ b :: "from".toList <:+: chars

/-- A line with one import. Between its words there may be no blanks; where this joins two words the
    line is no import, and none of the readers takes it for one. -/
structure ImportLine where
  lead : Blanks
  /-- What stands behind the first word. -/
  gap : Blanks
  clause : ImportClause
  /-- What stands behind the clause. -/
  gap' : Blanks
  /-- What stands behind the word that leads to the specifier. -/
  gap'' : Blanks
  quote : Char
  isQuote : quote = '\'' ∨ quote = '"'
  source : Specifier
  tail : Text
  ending : ∀ c ∈ tail, (isBlank c = true ∨ c = ';') ∧ c ≠ '\n'

namespace ImportEntry

/-- One space more than a number. -/
def spaces (n : Nat) : Text := List.replicate (n + 1) ' '

/-- The entry as it is written. -/
def text : ImportEntry → Text
  | plain name => name.chars
  | renamed name before after newName =>
    name.chars ++ spaces before ++ "as".toList ++ spaces after ++ newName.chars
  | typed between name => "type".toList ++ spaces between ++ name.chars

/-- The local name that the entry binds. -/
def bound : ImportEntry → Text
  | plain name => name.chars
  | renamed _ _ _ newName => newName.chars
  | typed _ name => name.chars

/-- The local name with the mark of a type left on it. -/
def shown : ImportEntry → Text
  | typed between name => "type".toList ++ spaces between ++ name.chars
  | entry => entry.bound

/-- Whether the entry is marked as a type. -/
def isTyped : ImportEntry → Bool
  | typed _ _ => true
  | _ => false

end ImportEntry

/-- The slot as it is written. -/
def ImportSlot.text (slot : ImportSlot) : Text :=
  slot.before.chars ++ ((slot.entry.map ImportEntry.text).getD [] ++ slot.after.chars)

/-- A list as it is written. -/
def listText (slots : List ImportSlot) : Text := List.intercalate [','] (slots.map ImportSlot.text)

/-- The entries of a list. -/
def entriesOf (slots : List ImportSlot) : List ImportEntry := slots.filterMap ImportSlot.entry

/-- The clause as it is written. -/
def ImportClause.text : ImportClause → Text
  | default name => name.chars
  | named slots => '{' :: (listText slots ++ ['}'])
  | both name before after slots =>
    name.chars ++ (before.chars ++ ',' :: (after.chars ++ '{' :: (listText slots ++ ['}'])))

namespace ImportLine

/-- What stands before the clause. -/
def head (line : ImportLine) : Text := line.lead.chars ++ ("import".toList ++ line.gap.chars)

/-- What stands before the specifier. -/
def front (line : ImportLine) : Text :=
  line.head ++ (line.clause.text ++ (line.gap'.chars ++ ("from".toList ++ line.gap''.chars)))

/-- The line as it is written. -/
def text (line : ImportLine) : Text :=
  line.front ++ line.quote :: (line.source.chars ++ line.quote :: line.tail)

end ImportLine

/-! ### How entries are read -/

theorem solid_of_letter {c : Char} (letter : isWordChar c = true ∨ c = '$') : isBlank c = false := by
  rcases letter with word | rfl
  · exact isBlank_of_isWordChar word
  · decide

theorem ImportName.solid (name : ImportName) : ∀ c ∈ name.chars, isBlank c = false :=
  fun c mem => solid_of_letter (name.letters c mem)

theorem ImportName.solid_first (name : ImportName) : ∀ c ∈ name.chars.head?, isBlank c = false :=
  fun c mem => name.solid c (List.mem_of_mem_head? mem)

theorem ImportName.solid_last (name : ImportName) : ∀ c ∈ name.chars.getLast?, isBlank c = false :=
  fun c mem => name.solid c (List.mem_of_mem_getLast? mem)

theorem isBlank_of_mem_spaces {n : Nat} {c : Char} (mem : c ∈ ImportEntry.spaces n) :
    isBlank c = true := by
  rw [List.eq_of_mem_replicate mem]
  decide

namespace ImportEntry

theorem bound_ne_nil (entry : ImportEntry) : entry.bound ≠ [] := by
  cases entry with
  | plain name => exact name.some
  | renamed name before after newName => exact newName.some
  | typed between name => exact name.some

theorem shown_ne_nil (entry : ImportEntry) : entry.shown ≠ [] := by
  cases entry with
  | plain name => exact name.some
  | renamed name before after newName => exact newName.some
  | typed between name => simp [shown]

theorem text_ne_nil (entry : ImportEntry) : entry.text ≠ [] := by
  cases entry with
  | plain name => exact name.some
  | renamed name before after newName => simp [text]
  | typed between name => simp [text]

theorem solid_bound (entry : ImportEntry) : ∀ c ∈ entry.bound, isBlank c = false := by
  cases entry with
  | plain name => exact name.solid
  | renamed name before after newName => exact newName.solid
  | typed between name => exact name.solid

/-- An entry begins and ends with a name or a word. -/
theorem solid_ends (entry : ImportEntry) :
    (∀ c ∈ entry.text.head?, isBlank c = false) ∧ ∀ c ∈ entry.text.getLast?, isBlank c = false := by
  cases entry with
  | plain name => exact ⟨name.solid_first, name.solid_last⟩
  | renamed name before after newName =>
    simp only [text, List.append_assoc]
    refine ⟨solid_first_append _ name.some name.solid_first, ?_⟩
    simp only [← List.append_assoc]
    exact solid_last_append _ newName.some newName.solid_last
  | typed between name =>
    refine ⟨?_, solid_last_append _ name.some name.solid_last⟩
    rw [text, List.append_assoc]
    exact letters_first_append _ (by decide) (by decide)

theorem mem_text {entry : ImportEntry} {c : Char} (mem : c ∈ entry.text) :
    c = ' ' ∨ isWordChar c = true ∨ c = '$' := by
  have word {w : Text} (letters : w.all isWordChar = true) (here : c ∈ w) :
      c = ' ' ∨ isWordChar c = true ∨ c = '$' := .inr (.inl (isWordChar_of_mem letters here))
  cases entry with
  | plain name => exact .inr (name.letters c mem)
  | renamed name m n newName =>
    simp only [text, List.mem_append] at mem
    rcases mem with (((mem | mem) | mem) | mem) | mem
    · exact .inr (name.letters c mem)
    · exact .inl (List.eq_of_mem_replicate mem)
    · exact word (by decide) mem
    · exact .inl (List.eq_of_mem_replicate mem)
    · exact .inr (newName.letters c mem)
  | typed n name =>
    simp only [text, List.mem_append] at mem
    rcases mem with (mem | mem) | mem
    · exact word (by decide) mem
    · exact .inl (List.eq_of_mem_replicate mem)
    · exact .inr (name.letters c mem)

/-- The words of an entry between blanks. -/
theorem blankWords_slot (entry : ImportEntry) (before after : Blanks) :
    blankWords (before.chars ++ (entry.text ++ after.chars)) =
      match entry with
      | plain name => [name.chars]
      | renamed name _ _ newName => [name.chars, "as".toList, newName.chars]
      | typed _ name => ["type".toList, name.chars] := by
  have ending (name : ImportName) : blankWords (name.chars ++ after.chars) = [name.chars] := by
    cases stop : after.chars with
    | nil => rw [List.append_nil, blankWords_solid name.some name.solid]
    | cons b bs =>
      have blank := after.blank
      rw [stop] at blank
      obtain ⟨first, others⟩ := List.forall_mem_cons.1 blank
      rw [blankWords_append_cons first, blankWords_solid name.some name.solid,
        blankWords_eq_nil_iff.2 others, List.append_nil]
  rw [blankWords_blanks_append before.blank]
  cases entry with
  | plain name => exact ending name
  | renamed name m n newName =>
    simp only [text, List.append_assoc]
    rw [blankWords_word_append name.some name.solid (by simp [spaces]) fun c => isBlank_of_mem_spaces,
      blankWords_word_append (by decide) (solid_of_letters (by decide)) (by simp [spaces])
        fun c => isBlank_of_mem_spaces,
      ending newName]
  | typed n name =>
    simp only [text, List.append_assoc]
    rw [blankWords_word_append (by decide) (solid_of_letters (by decide)) (by simp [spaces])
        fun c => isBlank_of_mem_spaces,
      ending name]

end ImportEntry

/-- An entry between blanks is read as its alias or else as it is written. -/
theorem localBinding_entry (entry : ImportEntry) (before after : Blanks) :
    localBinding (before.chars ++ (entry.text ++ after.chars)) = entry.shown := by
  have whole := entry.blankWords_slot before after
  have trimmed := trim_of_solid_ends before.blank after.blank entry.solid_ends.1 entry.solid_ends.2
  rw [localBinding]
  cases cut : Text.cut? (before.chars ++ (entry.text ++ after.chars)) " as " with
  | none =>
    cases entry with
    | plain name => exact trimmed
    | typed between name => exact trimmed
    | renamed name m n newName =>
      refine absurd ?_ (Text.not_infix_of_cut? cut)
      refine ⟨before.chars ++ name.chars ++ List.replicate m ' ',
        List.replicate n ' ' ++ newName.chars ++ after.chars, ?_⟩
      simp [ImportEntry.text, ImportEntry.spaces, List.replicate_succ' (n := m),
        List.replicate_succ (n := n)]
  | some parts =>
    obtain ⟨front, back⟩ := parts
    rw [blankWords_of_cut? (w := "as".toList) (by decide) (solid_of_letters (by decide)) cut] at whole
    have mem : "as".toList ∈ blankWords front ++ "as".toList :: blankWords back := by simp
    cases entry with
    | plain name =>
      rw [whole, List.mem_singleton] at mem
      exact absurd mem.symm name.free
    | typed between name =>
      rw [whole, List.mem_cons, List.mem_singleton] at mem
      rcases mem with same | same
      · exact absurd same (by decide)
      · exact absurd same.symm name.free
    | renamed name m n newName =>
      have last : blankWords back = [newName.chars] := by
        -- Only the middle one of the three words is the one that was cut at.
        rcases first : blankWords front with _ | ⟨w, _ | ⟨w', ws⟩⟩ <;> rw [first] at whole
        · exact absurd (List.cons.inj whole).1.symm name.free
        · exact (List.cons.inj (List.cons.inj whole).2).2
        · have others : ws ++ "as".toList :: blankWords back = [newName.chars] :=
            (List.cons.inj (List.cons.inj whole).2).2
          have mem : "as".toList ∈ ws ++ "as".toList :: blankWords back := by simp
          rw [others, List.mem_singleton] at mem
          exact absurd mem.symm newName.free
      exact (trim_eq_iff_isPadded newName.some newName.solid).2 (isPadded_of_blankWords last)

/-- Nothing but blanks is read as nothing. -/
theorem localBinding_blank {t : Text} (blank : ∀ c ∈ t, isBlank c = true) :
    localBinding t = [] := by
  rw [localBinding]
  cases cut : t.cut? " as " with
  | none => exact trim_eq_nil_iff.2 blank
  | some parts =>
    have words := blankWords_of_cut? (w := "as".toList) (by decide) (solid_of_letters (by decide)) cut
    rw [blankWords_eq_nil_iff.2 blank] at words
    simp at words

theorem localBinding_slot (slot : ImportSlot) :
    localBinding slot.text = (slot.entry.map ImportEntry.shown).getD [] := by
  obtain ⟨before, entry, after⟩ := slot
  cases entry with
  | none => exact localBinding_blank (List.forall_mem_append.2 ⟨before.blank, after.blank⟩)
  | some entry => exact localBinding_entry entry before after

theorem trim_slot (slot : ImportSlot) :
    slot.text.trim = (slot.entry.map ImportEntry.text).getD [] := by
  obtain ⟨before, entry, after⟩ := slot
  cases entry with
  | none => exact trim_eq_nil_iff.2 (List.forall_mem_append.2 ⟨before.blank, after.blank⟩)
  | some entry =>
    exact trim_of_solid_ends before.blank after.blank entry.solid_ends.1 entry.solid_ends.2

theorem stripLeading_eq_self {start t : Text} (other : ¬ start <+: t) (fuel : Nat) :
    Fix.stripLeading start fuel t = t := by
  cases fuel with
  | zero => rfl
  | succ fuel =>
    have without : ¬ t.startsWith start = true := by
      rwa [Text.startsWith, List.isPrefixOf_iff_prefix]
    rw [Fix.stripLeading, if_neg without]

/-- A fix drops the mark of a type. -/
theorem trim_stripLeading_shown (entry : ImportEntry) :
    (Fix.stripLeading "type " entry.shown.length entry.shown).trim = entry.bound := by
  have unmarked (n : Nat) (name : ImportName) :
      ¬ "type ".toList <+: List.replicate n ' ' ++ name.chars := by
    intro start
    cases n with
    | zero => exact absurd (name.solid ' ' (start.subset (by simp))) (by decide)
    | succ n => exact absurd (List.cons_prefix_cons.1 start).1 (by decide)
  have named (name : ImportName) (fuel : Nat) :
      (Fix.stripLeading "type " fuel name.chars).trim = name.chars := by
    rw [stripLeading_eq_self (t := name.chars) (unmarked 0 name)]
    exact (trim_eq_iff_isPadded name.some name.solid).2 ⟨[], [], by simp, by simp, by simp⟩
  cases entry with
  | plain name => exact named name _
  | renamed name before after newName => exact named newName _
  | typed n name =>
    have marked : (ImportEntry.typed n name).shown =
        "type ".toList ++ (List.replicate n ' ' ++ name.chars) := by
      simp [ImportEntry.shown, ImportEntry.spaces, List.replicate_succ]
    have start :
        Text.startsWith ("type ".toList ++ (List.replicate n ' ' ++ name.chars)) "type " = true := by
      simp [Text.startsWith]
    rw [marked, List.length_append, Nat.add_comm, show "type ".toList.length = 4 + 1 from rfl,
      ← Nat.add_assoc, Fix.stripLeading, if_pos start, List.drop_left,
      stripLeading_eq_self (unmarked n name)]
    exact (trim_eq_iff_isPadded name.some name.solid).2
      ⟨List.replicate n ' ', [], by simp, fun c mem => by
        rw [List.eq_of_mem_replicate mem]
        decide, by simp⟩

/-! ### How lists are read -/

/-- A list holds blanks, characters of names and commas. -/
theorem ImportSlot.mem_text {slot : ImportSlot} {c : Char} (mem : c ∈ slot.text) :
    (isBlank c = true ∧ c ≠ '\n') ∨ isWordChar c = true ∨ c = '$' := by
  obtain ⟨before, entry, after⟩ := slot
  rw [ImportSlot.text, List.mem_append, List.mem_append] at mem
  rcases mem with mem | mem | mem
  · exact .inl (before.apart mem)
  · cases entry with
    | none => cases mem
    | some entry =>
      refine (ImportEntry.mem_text mem).imp_left fun same => ?_
      subst same
      decide
  · exact .inl (after.apart mem)

theorem mem_listText {slots : List ImportSlot} {c : Char} (mem : c ∈ listText slots) :
    (isBlank c = true ∧ c ≠ '\n') ∨ isWordChar c = true ∨ c = '$' ∨ c = ',' := by
  have inSlot {slot : ImportSlot} (mem : c ∈ slot.text) :
      (isBlank c = true ∧ c ≠ '\n') ∨ isWordChar c = true ∨ c = '$' ∨ c = ',' :=
    slot.mem_text mem |>.imp_right (·.imp_right .inl)
  induction slots with
  | nil => cases mem
  | cons slot slots ih =>
    cases slots with
    | nil =>
      rw [listText, List.map_singleton, List.intercalate_singleton] at mem
      exact inSlot mem
    | cons slot' slots =>
      rw [listText, List.map_cons, List.map_cons, List.intercalate_cons_cons, List.mem_append,
        List.mem_append, List.mem_singleton] at mem
      rcases mem with (mem | rfl) | mem
      · exact inSlot mem
      · exact .inr (.inr (.inr rfl))
      · exact ih mem

/-- A list is cut at its commas. -/
theorem pieces_listText {slots : List ImportSlot} (some : slots ≠ []) :
    (listText slots).pieces (· == ',') = slots.map ImportSlot.text := by
  refine Text.pieces_intercalate (by decide) (by simpa using some) ?_
  intro t mem c here
  obtain ⟨slot, -, rfl⟩ := List.mem_map.1 mem
  rw [beq_eq_false_iff_ne]
  rintro rfl
  exact absurd (slot.mem_text here) (by decide)

/-- What is read off the pieces of a list, if a slot is read as its entry. -/
theorem readings_listed {read : Text → Text} {of : ImportEntry → Text}
    (slotted : ∀ slot : ImportSlot, read slot.text = (slot.entry.map of).getD [])
    (some : ∀ entry, of entry ≠ []) (slots : List ImportSlot) :
    (((listText slots).pieces (· == ',')).map read).filter (fun t => !t.isEmpty) =
      (entriesOf slots).map of := by
  cases slots with
  | nil =>
    have nothing : read [] = [] := slotted ⟨⟨[], by simp, by simp⟩, none, ⟨[], by simp, by simp⟩⟩
    simp [listText, Text.pieces, entriesOf, nothing]
  | cons slot slots =>
    rw [pieces_listText (List.cons_ne_nil slot slots), entriesOf]
    induction slot :: slots with
    | nil => rfl
    | cons slot slots ih =>
      rw [List.map_cons, List.map_cons, List.filter_cons, ih, slotted, List.filterMap_cons]
      cases slot.entry with
      | none => rfl
      | some entry => simp [some entry]

theorem namedBindings_listed (slots : List ImportSlot) :
    Fix.namedBindings (listText slots) = (entriesOf slots).map ImportEntry.bound := by
  refine readings_listed (fun slot => ?_) ImportEntry.bound_ne_nil slots
  simp only [localBinding_slot]
  cases slot.entry with
  | none => rfl
  | some entry => exact trim_stripLeading_shown entry

theorem localBindings_listed (slots : List ImportSlot) :
    (((listText slots).pieces (· == ',')).map localBinding).filter (fun name => !name.isEmpty) =
      (entriesOf slots).map ImportEntry.shown :=
  readings_listed localBinding_slot ImportEntry.shown_ne_nil slots

theorem listText_ne_nil {slots : List ImportSlot}
    (some : (entriesOf slots).map ImportEntry.shown ≠ []) : listText slots ≠ [] := by
  intro empty
  rw [← localBindings_listed, empty] at some
  exact some rfl

theorem importEntries_listed (slots : List ImportSlot) :
    (importEntries (listText slots)).map (fun entry => localBinding (Text.of entry)) =
      (entriesOf slots).map ImportEntry.shown := by
  rw [importEntries, readings_listed trim_slot ImportEntry.text_ne_nil slots, List.map_map,
    List.map_map]
  refine List.map_congr_left fun entry _ => ?_
  have alone := localBinding_entry entry ⟨[], by simp, by simp⟩ ⟨[], by simp, by simp⟩
  rw [List.nil_append, List.append_nil] at alone
  simpa [Text.of, Text.str] using alone

/-- The names with and without the marks of types are the same ones only if nothing is marked. -/
theorem mem_bound_iff_mem_shown (entries : List ImportEntry) :
    (∀ name, name ∈ entries.map ImportEntry.bound ↔ name ∈ entries.map ImportEntry.shown) ↔
      ∀ entry ∈ entries, entry.isTyped = false := by
  constructor
  · intro same entry mem
    cases entry with
    | plain | renamed => rfl
    | typed n name =>
      obtain ⟨other, -, marked⟩ := List.mem_map.1 ((same _).2 (List.mem_map_of_mem mem))
      have space : ' ' ∈ (ImportEntry.typed n name).shown := by
        simp [ImportEntry.shown, ImportEntry.spaces]
      rw [← marked] at space
      exact absurd (other.solid_bound ' ' space) (by decide)
  · intro unmarked name
    have alike : entries.map ImportEntry.bound = entries.map ImportEntry.shown := by
      refine List.map_congr_left fun entry mem => ?_
      cases entry with
      | plain | renamed => rfl
      | typed n name => exact absurd (unmarked _ mem) (by simp [ImportEntry.isTyped])
    rw [alike]

/-! ### What a line is made of -/

theorem ImportClause.mem_text {clause : ImportClause} {c : Char} (mem : c ∈ clause.text) :
    (isBlank c = true ∧ c ≠ '\n') ∨ isWordChar c = true ∨ c ∈ ['$', ',', '{', '}'] := by
  have named {name : ImportName} (here : c ∈ name.chars) :
      (isBlank c = true ∧ c ≠ '\n') ∨ isWordChar c = true ∨ c ∈ ['$', ',', '{', '}'] :=
    .inr ((name.letters c here).imp_right fun same => by simp [same])
  have listed {slots : List ImportSlot} (here : c ∈ '{' :: (listText slots ++ ['}'])) :
      (isBlank c = true ∧ c ≠ '\n') ∨ isWordChar c = true ∨ c ∈ ['$', ',', '{', '}'] := by
    rw [List.mem_cons, List.mem_append, List.mem_singleton] at here
    rcases here with rfl | here | rfl
    · decide
    · rcases mem_listText here with blank | word | rfl | rfl
      · exact .inl blank
      · exact .inr (.inl word)
      · decide
      · decide
    · decide
  cases clause with
  | default name => exact named mem
  | named slots => exact listed mem
  | both name before after slots =>
    rw [text, List.mem_append, List.mem_append, List.mem_cons, List.mem_append] at mem
    rcases mem with mem | mem | rfl | mem | mem
    · exact named mem
    · exact .inl (before.apart mem)
    · decide
    · exact .inl (after.apart mem)
    · exact listed mem

theorem ImportLine.mem_front {line : ImportLine} {c : Char} (mem : c ∈ line.front) :
    isBlank c = true ∨ isWordChar c = true ∨ c ∈ ['$', ',', '{', '}'] := by
  have word {w : Text} (letters : w.all isWordChar = true) (here : c ∈ w) :
      isBlank c = true ∨ isWordChar c = true ∨ c ∈ ['$', ',', '{', '}'] :=
    .inr (.inl (isWordChar_of_mem letters here))
  simp only [front, head, List.mem_append] at mem
  rcases mem with (mem | mem | mem) | mem | mem | mem | mem
  · exact .inl (line.lead.blank c mem)
  · exact word (by decide) mem
  · exact .inl (line.gap.blank c mem)
  · exact line.clause.mem_text mem |>.imp_left And.left
  · exact .inl (line.gap'.blank c mem)
  · exact word (by decide) mem
  · exact .inl (line.gap''.blank c mem)

/-- A clause with a list ends in its brace. -/
theorem ImportClause.eq_default_or_closed (clause : ImportClause) :
    (∃ name, clause = .default name) ∨ ∃ u, clause.text = u ++ ['}'] := by
  cases clause with
  | default name => exact .inl ⟨name, rfl⟩
  | named slots => exact .inr ⟨'{' :: listText slots, rfl⟩
  | both name before after slots =>
    exact .inr ⟨name.chars ++ (before.chars ++ ',' :: (after.chars ++ '{' :: listText slots)),
      by simp [text]⟩

namespace ImportClause

theorem text_ne_nil (clause : ImportClause) : clause.text ≠ [] := by
  cases clause with
  | default name => exact name.some
  | named slots => exact List.cons_ne_nil _ _
  | both name before after slots => simp [text]

theorem solid_first (clause : ImportClause) : ∀ c ∈ clause.text.head?, isBlank c = false := by
  cases clause with
  | default name => exact name.solid_first
  | named slots => exact fun c mem => Option.some.inj mem ▸ by decide
  | both name before after slots => exact solid_first_append _ name.some name.solid_first

theorem solid_last (clause : ImportClause) : ∀ c ∈ clause.text.getLast?, isBlank c = false := by
  rcases clause.eq_default_or_closed with ⟨name, rfl⟩ | ⟨u, closed⟩
  · exact name.solid_last
  · rw [closed]
    exact solid_last_concat u (by decide)

end ImportClause

end SourceAudit
