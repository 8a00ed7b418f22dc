/-
Module: SourceAudit.Proofs.Improve.Keys
Layer: Proofs
Purpose: Brackets around the keys of rendered lists. How far the opening brackets of a kind outnumber
  the closing ones adds up along a text, so an edit changes it by what it puts in less what it takes
  out. All that a keyed callback has more than the one it replaces, apart from pairs of brackets, is the
  key itself. The key is what stands behind the first comma of the parameters, and where that comma
  lies inside a pattern of the only parameter, it is a torn piece of the pattern.
Main exports: Bracket, excess, mismatch_eq_nil_iff, excess_weave, callbackKey, insertedKeys,
  exists_callback_parts, excess_addMissingKeys, brackets_kept_iff_keys_cancel,
  destructured_parameter_torn
-/
import SourceAudit.Deep.Semantics
import SourceAudit.Fix.Apply
import SourceAudit.Proofs.Pattern.Gaps
import SourceAudit.Proofs.Text.Trim
import SourceAudit.Proofs.Text.WholeWord

namespace SourceAudit

open Pattern Cursor

/-! ### The excess of opening brackets -/

/-- The kinds of brackets whose balance is checked. -/
inductive Bracket where
  | curly | round
deriving DecidableEq, Repr

namespace Bracket

/-- The opening bracket. -/
def opening : Bracket → Char
  | .curly => '{'
  | .round => '('

/-- The closing bracket. -/
def closing : Bracket → Char
  | .curly => '}'
  | .round => ')'

/-- The name of both in a report. -/
def label : Bracket → String
  | .curly => "curly braces"
  | .round => "parentheses"

end Bracket

/-- By how many the opening brackets of a text outnumber the closing ones. -/
def excess (b : Bracket) (t : Text) : Int := (t.count b.opening : Int) - t.count b.closing

section

variable {b : Bracket} {t u v : Text}

theorem syntaxErrors_eq (t : Text) : syntaxErrors t =
    mismatch t Bracket.curly.opening Bracket.curly.closing Bracket.curly.label ++
      mismatch t Bracket.round.opening Bracket.round.closing Bracket.round.label := rfl

/-- Brackets are reported exactly if one sort outnumbers the other. -/
theorem mismatch_eq_nil_iff : mismatch t b.opening b.closing b.label = [] ↔ excess b t = 0 := by
  rw [mismatch, excess]
  split
  · rename_i same
    exact ⟨fun _ => by omega, fun _ => rfl⟩
  · rename_i different
    constructor
    · intro none
      cases none
    · intro equal
      exact absurd (by omega) different

theorem syntaxErrors_eq_nil_iff : syntaxErrors t = [] ↔ ∀ b, excess b t = 0 := by
  rw [syntaxErrors_eq, List.append_eq_nil_iff, mismatch_eq_nil_iff, mismatch_eq_nil_iff]
  constructor
  · rintro ⟨curly, round⟩ (_ | _)
    · exact curly
    · exact round
  · intro all
    exact ⟨all .curly, all .round⟩

theorem excess_append (b : Bracket) (u v : Text) : excess b (u ++ v) = excess b u + excess b v := by
  simp only [excess, List.count_append]
  omega

theorem excess_of_not_mem (opening : b.opening ∉ t) (closing : b.closing ∉ t) : excess b t = 0 := by
  rw [excess, List.count_eq_zero.2 opening, List.count_eq_zero.2 closing]
  rfl

theorem excess_of_blank (blank : ∀ c ∈ t, isBlank c = true) : excess b t = 0 := by
  apply excess_of_not_mem
  · intro mem
    have := blank _ mem
    cases b <;> cases this
  · intro mem
    have := blank _ mem
    cases b <;> cases this

/-- Trimming takes no brackets off. -/
theorem excess_trim (b : Bracket) (t : Text) : excess b t.trim = excess b t := by
  obtain ⟨g, g', parts, blank, blank'⟩ := exists_blanks_trim_blanks t
  have whole := congrArg (excess b) parts
  rw [excess_append, excess_append, excess_of_blank blank, excess_of_blank blank'] at whole
  omega

/-- Pieces that have more in the same gaps change the excess by all that they have more. -/
theorem excess_weave {gaps : List Text} {hits : List Hit} {new old more : Hit → Text}
    (around : gaps.length = hits.length + 1)
    (each : ∀ hit ∈ hits, excess b (new hit) = excess b (old hit) + excess b (more hit)) :
    excess b (weave gaps (hits.map new)) =
      excess b (weave gaps (hits.map old)) + excess b (hits.map more).flatten := by
  induction hits generalizing gaps with
  | nil => exact (Int.add_zero _).symm
  | cons hit hits ih =>
    obtain ⟨here, others⟩ := List.forall_mem_cons.1 each
    cases gaps with
    | nil => cases around
    | cons gap gaps =>
      have rest := ih (Nat.succ.inj around) others
      simp only [List.map_cons, weave, List.flatten_cons, excess_append]
      omega

end

/-! ### Keyed callbacks -/

/-- The key for the parameters of a callback as they are written: what stands between the first comma
    and the second one or the end, or else the name of an index. -/
def callbackKey (written : Text) : Text :=
  match (written.pieces (· == ',')).map Text.trim with
  | _ :: second :: _ => if second.isEmpty then "index" else second
  | _ => "index"

/-- The parameters of a keyed callback: an index behind a single one. -/
def callbackParameters (written : Text) : Text :=
  if ((written.pieces (· == ',')).map Text.trim).length < 2 && !written.isBlankText then
    written.trim ++ ", index"
  else written

/-- The keys that are put into a text, from left to right. -/
def insertedKeys (t : Text) : List Text :=
  ((Fix.mapCallback.findAll t).filter fun hit => !Fix.hasKey hit).map fun hit =>
    callbackKey (hit.groupChars 1)

section

variable {t : Text} {hit : Hit} {before cs after : Text} {kept : List (Nat × Text)}

theorem keyedCallback_eq {params : Span} (found : hit.group? 1 = some params) :
    Fix.keyedCallback hit = Span.chars ⟨hit.whole.start, params.start⟩ ++
      callbackParameters params.chars ++ Span.chars ⟨params.stop, hit.whole.stop⟩ ++ " key=\x7b" ++
      callbackKey params.chars ++ "\x7d" := by
  rw [Fix.keyedCallback, found]
  rfl

/-- A callback keeps its parameters and the tag of its element. The parameters end at the first
    closing parenthesis. -/
theorem kept_of_spells_mapCallback (spelled : Fix.mapCallback.Spells before cs after kept) :
    ∃ params tag, kept = [(1, params), (2, tag)] ∧ ')' ∉ params := by
  simp only [Fix.mapCallback, spells_append, spells_group, spells_text, spells_blanks, spells_many,
    spells_one, spells_perhaps, exists_and_left, and_assoc, ↓existsAndEq, true_and, List.append_nil,
    List.nil_append] at spelled
  obtain ⟨_, _, mark, _, _, params, _, name, letter, -, rfl, -, inside, -, -, marked, -⟩ := spelled
  refine ⟨params, [letter] ++ name, ?_, ?_⟩
  · rcases marked with ⟨-, rfl⟩ | ⟨-, rfl⟩ <;> rfl
  · intro mem
    exact absurd (inside _ mem) (by decide)

/-- The parameters divide a callback in three, and its keyed form keeps what stands around them. -/
theorem exists_callback_parts (mem : hit ∈ Fix.mapCallback.findAll t) :
    ∃ front back, hit.chars = front ++ (hit.groupChars 1 ++ back) ∧ ')' ∉ hit.groupChars 1 ∧
      Fix.keyedCallback hit = front ++ callbackParameters (hit.groupChars 1) ++ back ++
        " key=\x7b" ++ callbackKey (hit.groupChars 1) ++ "\x7d" := by
  obtain ⟨way, place⟩ := Fix.mapCallback.keeps_of_mem_findAll mem
  obtain ⟨_, _, _, -, spelled⟩ := exists_spells_of_mem_findAll mem
  obtain ⟨params, tag, kept, closed⟩ := kept_of_spells_mapCallback spelled
  have looked : (hit.group? 1).map Span.chars = some params := by
    rw [hit.map_chars_group?, kept]
    rfl
  obtain ⟨s, found, rfl⟩ := Option.map_eq_some_iff.1 looked
  obtain ⟨front, inner, back, start, within, stop⟩ :=
    way.exists_moves place (Hit.mem_groups_of_group? found)
  obtain rfl : s.chars = inner := within.chars
  have group : hit.groupChars 1 = s.chars := by rw [Hit.groupChars, found]
  refine ⟨front, back, ?_, group ▸ closed, ?_⟩
  · rw [group]
    exact (start.trans (within.trans stop)).chars
  · rw [keyedCallback_eq found, start.chars, stop.chars, group]

/-- The key is made of the parameters, unless it is the name of an index. -/
theorem mem_of_mem_callbackKey {written : Text} {c : Char} (mem : c ∈ callbackKey written) :
    c ∈ Text.of "index" ∨ c ∈ written := by
  rw [callbackKey] at mem
  split at mem
  · rename_i first second rest parameters
    split at mem
    · exact .inl mem
    · have among : second ∈ (written.pieces (· == ',')).map Text.trim := by
        rw [parameters]
        exact List.mem_cons_of_mem _ List.mem_cons_self
      obtain ⟨piece, pieced, rfl⟩ := List.mem_map.1 among
      obtain ⟨-, u, v, rfl, -, -⟩ := Text.mem_pieces_iff.1 pieced
      exact .inr (List.mem_append_right _ (List.mem_append_left _ (trim_subset piece mem)))
  · exact .inl mem

theorem excess_callbackParameters (b : Bracket) (written : Text) :
    excess b (callbackParameters written) = excess b written := by
  rw [callbackParameters]
  split
  · have index : excess b (", index" : Text) = 0 := by cases b <;> rfl
    rw [excess_append, excess_trim, index, Int.add_zero]
  · rfl

/-- A keyed callback has the key more than the callback, and the braces around it. -/
theorem excess_keyedCallback (b : Bracket) (mem : hit ∈ Fix.mapCallback.findAll t) :
    excess b (Fix.keyedCallback hit) =
      excess b hit.chars + excess b (callbackKey (hit.groupChars 1)) := by
  obtain ⟨front, back, written, -, keyed⟩ := exists_callback_parts mem
  have braces : excess b (" key=\x7b" : Text) + excess b ("\x7d" : Text) = 0 := by cases b <;> rfl
  rw [written, keyed]
  simp only [excess_append, excess_callbackParameters]
  omega

theorem flatten_insertedKeys (t : Text) : (insertedKeys t).flatten =
    ((Fix.mapCallback.findAll t).map fun hit =>
      if !Fix.hasKey hit then callbackKey (hit.groupChars 1) else []).flatten := by
  rw [insertedKeys]
  induction Fix.mapCallback.findAll t with
  | nil => rfl
  | cons hit hits ih =>
    rw [List.map_cons, List.flatten_cons, ← ih, List.filter_cons]
    split <;> rfl

/-- Keys add their own brackets to those of the text, and nothing else does. -/
theorem excess_addMissingKeys (b : Bracket) (t : Text) :
    excess b (Fix.addMissingKeys t) = excess b t + excess b (insertedKeys t).flatten := by
  have moves : Fix.mapCallback.isSkippable = false := rfl
  have each : ∀ hit ∈ Fix.mapCallback.findAll t,
      excess b (if !Fix.hasKey hit then Fix.keyedCallback hit else hit.chars) = excess b hit.chars +
        excess b (if !Fix.hasKey hit then callbackKey (hit.groupChars 1) else []) := by
    intro hit mem
    split
    · exact excess_keyedCallback b mem
    · exact (Int.add_zero _).symm
  rw [Fix.addMissingKeys, splice_filter_findAll moves,
    excess_weave (reading_findAll moves t).length_gaps each, weave_gaps moves, flatten_insertedKeys]

/-- The parameters end before the first closing parenthesis, so a key has none. -/
theorem closing_not_mem_insertedKeys {key : Text} (mem : key ∈ insertedKeys t) : ')' ∉ key := by
  obtain ⟨hit, among, rfl⟩ := List.mem_map.1 mem
  obtain ⟨-, -, -, closed, -⟩ := exists_callback_parts (List.mem_of_mem_filter among)
  intro mem
  rcases mem_of_mem_callbackKey mem with index | written
  · exact absurd index (by decide)
  · exact closed written

/-- So what a key opens with a parenthesis stays open. -/
theorem excess_round_insertedKeys : excess .round (insertedKeys t).flatten = 0 ↔
    ∀ key ∈ insertedKeys t, '(' ∉ key := by
  have closed : ')' ∉ (insertedKeys t).flatten := by
    intro mem
    obtain ⟨key, among, mem⟩ := List.mem_flatten.1 mem
    exact closing_not_mem_insertedKeys among mem
  rw [excess, Bracket.opening, Bracket.closing, List.count_eq_zero.2 closed]
  constructor
  · intro none key among mem
    have absent : (insertedKeys t).flatten.count '(' = 0 := by omega
    exact List.count_eq_zero.1 absent (List.mem_flatten.2 ⟨key, among, mem⟩)
  · intro none
    have absent : '(' ∉ (insertedKeys t).flatten := by
      intro mem
      obtain ⟨key, among, mem⟩ := List.mem_flatten.1 mem
      exact none key among mem
    rw [List.count_eq_zero.2 absent]
    rfl

end

/-- The brackets of all keys together are what the fix changes in the balance of a text. It keeps the
    balance exactly if the braces of the keys cancel and no key has a parenthesis. Where the brackets of
    a kind cancel, they are reported after the fix exactly if they were before; and a text without a
    report stays without one exactly if those of both kinds cancel. -/
theorem brackets_kept_iff_keys_cancel (t : Text) :
    (∀ b, excess b (Fix.addMissingKeys t) = excess b t + excess b (insertedKeys t).flatten) ∧
    ((∀ b, excess b (Fix.addMissingKeys t) = excess b t) ↔
      excess .curly (insertedKeys t).flatten = 0 ∧ ∀ key ∈ insertedKeys t, '(' ∉ key) ∧
    (∀ b, excess b (insertedKeys t).flatten = 0 →
      (mismatch (Fix.addMissingKeys t) b.opening b.closing b.label = [] ↔
        mismatch t b.opening b.closing b.label = [])) ∧
    (syntaxErrors t = [] → (syntaxErrors (Fix.addMissingKeys t) = [] ↔
      excess .curly (insertedKeys t).flatten = 0 ∧ ∀ key ∈ insertedKeys t, '(' ∉ key)) := by
  have adds := fun b => excess_addMissingKeys b t
  have cancel : (∀ b, excess b (insertedKeys t).flatten = 0) ↔
      excess .curly (insertedKeys t).flatten = 0 ∧ ∀ key ∈ insertedKeys t, '(' ∉ key := by
    rw [← excess_round_insertedKeys]
    constructor
    · intro all
      exact ⟨all .curly, all .round⟩
    · rintro ⟨curly, round⟩ (_ | _)
      · exact curly
      · exact round
  refine ⟨adds, ?_, ?_, ?_⟩
  · rw [← cancel]
    apply forall_congr'
    intro b
    rw [adds]
    constructor <;> intro same <;> omega
  · intro b none
    rw [mismatch_eq_nil_iff, mismatch_eq_nil_iff, adds, none, Int.add_zero]
  · intro balanced
    rw [← cancel, syntaxErrors_eq_nil_iff]
    apply forall_congr'
    intro b
    rw [adds, syntaxErrors_eq_nil_iff.1 balanced b, Int.zero_add]

/-- A list whose elements get the index that the callback has. -/
theorem brackets_kept_beside_index :
    (∀ b, excess b (insertedKeys "xs.map((x, i) => <li>\x7bx\x7d</li>)").flatten = 0) ∧
      syntaxErrors "xs.map((x, i) => <li>\x7bx\x7d</li>)" = [] ∧
      (∀ b : Bracket, mismatch (Fix.addMissingKeys "xs.map((x, i) => <li>\x7bx\x7d</li>)")
          b.opening b.closing b.label = []) ∧
      syntaxErrors (Fix.addMissingKeys "xs.map((x, i) => <li>\x7bx\x7d</li>)") = [] := by
  have key : insertedKeys "xs.map((x, i) => <li>\x7bx\x7d</li>)" = [['i']] := by decide +kernel
  have none : ∀ b, excess b (insertedKeys "xs.map((x, i) => <li>\x7bx\x7d</li>)").flatten = 0 := by
    rw [key]
    rintro (_ | _) <;> rfl
  have balanced : syntaxErrors "xs.map((x, i) => <li>\x7bx\x7d</li>)" = [] := by decide +kernel
  obtain ⟨-, -, kept, whole⟩ := brackets_kept_iff_keys_cancel "xs.map((x, i) => <li>\x7bx\x7d</li>)"
  refine ⟨none, balanced, ?_, ?_⟩
  · intro b
    rw [kept b (none b), mismatch_eq_nil_iff]
    exact syntaxErrors_eq_nil_iff.1 balanced b
  · apply (whole balanced).2
    rw [key]
    decide

/-- The only parameter is a pattern with a comma in it. What stands behind the comma is not another
    parameter, but it becomes the key, with the brace that closes the pattern. -/
theorem destructured_parameter_torn :
    ¬ ∀ t : Text, (∀ b, excess b (Fix.addMissingKeys t) = excess b t) ∧
      (syntaxErrors (Fix.addMissingKeys t) = [] ↔ syntaxErrors t = []) := by
  intro claim
  have before : syntaxErrors "items.map((\x7b id, name \x7d) => <li>\x7bname\x7d</li>)" = [] := by
    decide +kernel
  have after : Fix.addMissingKeys "items.map((\x7b id, name \x7d) => <li>\x7bname\x7d</li>)" =
      "items.map((\x7b id, name \x7d) => <li key=\x7bname \x7d\x7d>\x7bname\x7d</li>)" := by
    decide +kernel
  have reported := (claim "items.map((\x7b id, name \x7d) => <li>\x7bname\x7d</li>)").2.2 before
  rw [after] at reported
  exact absurd reported (by decide +kernel)

end SourceAudit
