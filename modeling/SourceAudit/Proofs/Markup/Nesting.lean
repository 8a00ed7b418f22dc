/-
Module: SourceAudit.Proofs.Markup.Nesting
Layer: Proofs
Purpose: Documents whose elements are closed and nested in one another, and what the check of their
  balance finds in them. Its patterns only ever match whole tags. An opening tag is counted for the
  letters that its name starts with, but a closing tag for its whole name.
Main exports: StartTag, StartTag.stem, Document, Document.text, Document.parts, openingOf, closingOf,
  IsTagName, SameName, isTagName_lower, SpellsTags, SpellsTags.forall₂_findAll, opensAs_iff,
  closesAs_iff, count_openingOf, count_closingOf, groupChars_anyOpenTag, forall₂_anyOpenTag
-/
import SourceAudit.Proofs.Markup.Tags
import SourceAudit.Proofs.Pattern.First
import SourceAudit.Proofs.Text.LowerCase

namespace SourceAudit.Markup

open Pattern Cursor

/-! ### Documents -/

/-- What separates a tag name from the attributes. -/
def attributeSigns : List Char := ['\t', '\n', '\x0c', '\r', ' ', '/']

/-- An opening tag. Its name starts with a letter and goes on with letters or hyphens, where digits are
    letters too; the attributes hold no angle brackets. -/
structure StartTag where
  name : Text
  attrs : Text
  begins : ∃ x xs, name = x :: xs ∧ isWordChar x = true
  letters : ∀ y ∈ name, isWordChar y = true ∨ y = '-'
  plain : '<' ∉ attrs ∧ '>' ∉ attrs
  apart : ∀ y ∈ attrs.head?, y ∈ attributeSigns

namespace StartTag

/-- The characters of the tag. -/
def opening (o : StartTag) : Text := '<' :: (o.name ++ (o.attrs ++ ['>']))

/-- The characters of the tag that closes it. -/
def closing (o : StartTag) : Text := '<' :: '/' :: (o.name ++ ['>'])

/-- The name up to its first hyphen. -/
def stem (o : StartTag) : Text := o.name.takeWhile isWordChar

/-- What stands between the stem and the closing bracket. -/
def tail (o : StartTag) : Text := o.name.dropWhile isWordChar ++ o.attrs

end StartTag

/-- A document of text, void elements without closing tags, and elements that are closed and nested in
    one another. -/
inductive Document where
  | done
  | words (u : Text) (plain : '<' ∉ u ∧ '>' ∉ u) (rest : Document)
  | void (o : StartTag) (isVoid : NameLike voidTags o.name) (rest : Document)
  | element (o : StartTag) (content rest : Document)

/-- The characters of a document. -/
def Document.text : Document → Text
  | done => []
  | words u _ rest => u ++ rest.text
  | void o _ rest => o.opening ++ rest.text
  | element o content rest => o.opening ++ (content.text ++ (o.closing ++ rest.text))

/-- A part of a document: text, or a tag. -/
inductive Part where
  | words (u : Text) (plain : '<' ∉ u ∧ '>' ∉ u)
  | start (o : StartTag)
  | stop (o : StartTag)

/-- The characters of a part. -/
def Part.text : Part → Text
  | words u _ => u
  | start o => o.opening
  | stop o => o.closing

/-- The parts of a document, one after the other. -/
def Document.parts : Document → List Part
  | done => []
  | words u plain rest => .words u plain :: rest.parts
  | void o _ rest => .start o :: rest.parts
  | element o content rest => .start o :: (content.parts ++ .stop o :: rest.parts)

theorem Document.flatMap_parts (doc : Document) : doc.parts.flatMap Part.text = doc.text := by
  induction doc with
  | done => rfl
  | words u plain rest ih => simp [parts, text, Part.text, ih]
  | void o isVoid rest ih => simp [parts, text, Part.text, ih]
  | element o content rest ih ih' => simp [parts, text, Part.text, ih, ih']

/-! ### Names -/

/-- What can stand behind the stem of a tag name. -/
def stemEnds : List Char := '-' :: '>' :: attributeSigns

theorem stemEnds_low : ∀ x ∈ stemEnds, isWordChar x = false ∧ x ≠ '\x00' ∧ x.toNat < 65 := by
  have all : stemEnds.all (fun x =>
      isWordChar x = false ∧ x ≠ '\x00' ∧ x.toNat < 65) = true := by decide
  exact fun x mem => of_decide_eq_true (List.all_eq_true.1 all x mem)

theorem not_mem_stemEnds {w : Text} (letters : ∀ y ∈ w, isWordChar y = true) :
    ∀ y ∈ w, y ∉ stemEnds := by
  intro y mem sign
  have letter := letters y mem
  rw [(stemEnds_low y sign).1] at letter
  cases letter

/-- The text has a character, and nothing in it ends the stem of a name. -/
structure IsTagName (tag : Text) : Prop where
  some : tag ≠ []
  whole : ∀ x ∈ tag, x ∉ stemEnds

/-- A name is that of a tag, up to case. -/
def SameName (tag n : Text) : Prop := List.Forall₂ (fun x y => sameFold x y = true) tag n

instance (tag n : Text) : Decidable (SameName tag n) :=
  inferInstanceAs (Decidable (List.Forall₂ _ tag n))

/-- Lower case makes no letter one of the characters that end a stem. -/
theorem isTagName_lower {s : Text} (some : s ≠ []) (letters : ∀ y ∈ s, isWordChar y = true) :
    IsTagName s.lower where
  some := by
    obtain ⟨c, s, rfl⟩ := List.exists_cons_of_ne_nil some
    obtain ⟨x, xs, lowered, -⟩ := exists_lower_eq s (letters c List.mem_cons_self)
    rw [lowered]
    exact List.cons_ne_nil x xs
  whole x mem sign := by
    obtain ⟨other, null, low⟩ := stemEnds_low x sign
    have letter := letters x (mem_of_mem_lower null (by omega) mem)
    rw [other] at letter
    cases letter

section

variable {tag n : Text}

theorem SameName.whole (same : SameName tag n) (isName : IsTagName tag) : ∀ y ∈ n, y ∉ stemEnds := by
  intro y mem sign
  obtain ⟨-, null, low⟩ := stemEnds_low y sign
  obtain ⟨x, inside, like⟩ := exists_partner_of_mem same mem
  obtain rfl := eq_of_sameFold null low like
  exact isName.whole x inside sign

theorem SameName.ne_nil (same : SameName tag n) (isName : IsTagName tag) : n ≠ [] := by
  rintro rfl
  exact isName.some (List.forall₂_nil_right_iff.1 same)

end

namespace StartTag

variable (o : StartTag)

theorem letters_stem : ∀ y ∈ o.stem, isWordChar y = true := fun _ mem => List.mem_takeWhile_imp mem

theorem stem_ne_nil : o.stem ≠ [] := by
  obtain ⟨x, xs, named, letter⟩ := o.begins
  rw [stem, named, List.takeWhile_cons_of_pos letter]
  exact List.cons_ne_nil _ _

theorem stem_append_tail : o.stem ++ o.tail = o.name ++ o.attrs := by
  rw [stem, tail, ← List.append_assoc, List.takeWhile_append_dropWhile]

theorem stem_eq_name (plain : '-' ∉ o.name) : o.stem = o.name := by
  refine List.takeWhile_eq_self_iff.2 fun y mem => (o.letters y mem).resolve_right ?_
  rintro rfl
  exact plain mem

theorem opening_eq : o.opening = '<' :: (o.stem ++ (o.tail ++ ['>'])) := by
  rw [opening, ← List.append_assoc, ← List.append_assoc, stem_append_tail]

theorem plain_name : '<' ∉ o.name ∧ '>' ∉ o.name := by
  have other : ∀ y, isWordChar y = true ∨ y = '-' → y ≠ '<' ∧ y ≠ '>' := by
    rintro y (letter | rfl)
    · constructor
      all_goals
        rintro rfl
        revert letter
        decide
    · decide
  exact ⟨fun mem => (other _ (o.letters _ mem)).1 rfl, fun mem => (other _ (o.letters _ mem)).2 rfl⟩

theorem plain_body : '<' ∉ o.name ++ o.attrs ∧ '>' ∉ o.name ++ o.attrs :=
  ⟨List.not_mem_append o.plain_name.1 o.plain.1, List.not_mem_append o.plain_name.2 o.plain.2⟩

theorem plain_tail : '>' ∉ o.tail := by
  intro mem
  apply o.plain_body.2
  rw [← stem_append_tail]
  exact List.mem_append_right _ mem

/-- The stem of a name ends before a hyphen, the attributes or the closing bracket. -/
theorem exists_tail_eq (w : Text) : ∃ x r, o.tail ++ '>' :: w = x :: r ∧ x ∈ stemEnds := by
  rw [tail]
  cases later : o.name.dropWhile isWordChar with
  | cons x r =>
    refine ⟨x, r ++ o.attrs ++ '>' :: w, rfl, ?_⟩
    have mem : x ∈ o.name := (List.dropWhile_sublist isWordChar).subset (later ▸ List.mem_cons_self)
    have first := List.head?_dropWhile_not isWordChar o.name
    rw [later] at first
    obtain rfl := (o.letters x mem).resolve_left (by simpa using first)
    decide
  | nil =>
    cases attrs : o.attrs with
    | nil => exact ⟨'>', w, rfl, by decide⟩
    | cons x r =>
      have sign := o.apart x (by rw [attrs]; rfl)
      exact ⟨x, r ++ '>' :: w, rfl, List.mem_cons_of_mem _ (List.mem_cons_of_mem _ sign)⟩

/-- What the tag starts with is the stem of its name, unless a letter of the stem follows. -/
theorem stem_eq_or_exists {n r w : Text} (inner : ∀ y ∈ n, y ∉ stemEnds)
    (split : o.stem ++ (o.tail ++ '>' :: w) = n ++ r) : n = o.stem ∨
      ∃ y ys, o.stem = n ++ y :: ys ∧ r = y :: ys ++ (o.tail ++ '>' :: w) := by
  obtain ⟨as, longer, rest⟩ | ⟨bs, shorter, rest⟩ := List.append_eq_append_iff.1 split
  · cases as with
    | nil => exact .inl (by rw [longer, List.append_nil])
    | cons y as =>
      -- the name would go on with a sign behind the stem
      obtain ⟨x, r', ahead, sign⟩ := o.exists_tail_eq w
      obtain ⟨rfl, -⟩ := List.cons.inj (ahead.symm.trans rest)
      exact absurd sign (inner x (by simp [longer]))
  · cases bs with
    | nil => exact .inl (by rw [shorter, List.append_nil])
    | cons y ys => exact .inr ⟨y, ys, shorter, rest⟩

end StartTag

/-! ### The patterns -/

/-- An opening tag with a name, as it is counted. -/
def openingOf (tag : Text) : Pattern :=
  Pattern.text "<" ++ charsAnyCase tag ++ wordEdge ++ many (noneOf ">") ++ Pattern.text ">"

/-- A closing tag with a name, as it is counted. -/
def closingOf (tag : Text) : Pattern :=
  Pattern.text "</" ++ charsAnyCase tag ++ blanks ++ Pattern.text ">"

section

variable {tag before cs after : Text} {kept : List (Nat × Text)}

theorem spells_charsAnyCase : (charsAnyCase tag).Spells before cs after kept ↔
    SameName tag cs ∧ kept = [] := Iff.rfl

/-- Anything up to the closing bracket, and the bracket. -/
theorem spells_upToBracket :
    (many (noneOf ">") ++ Pattern.text ">").Spells before cs after kept ↔
      ∃ r, cs = r ++ ['>'] ∧ '>' ∉ r ∧ kept = [] := by
  constructor
  · rintro ⟨r, _, _, _, rfl, rfl, inner, bracket⟩
    obtain ⟨others, rfl⟩ := spells_many.1 inner
    obtain ⟨rfl, rfl⟩ := spells_text.1 bracket
    exact ⟨r, rfl, forall_noneOf_bracket.1 others, rfl⟩
  · rintro ⟨r, rfl, absent, rfl⟩
    exact ⟨r, ['>'], [], [], rfl, rfl, spells_many.2 ⟨forall_noneOf_bracket.2 absent, rfl⟩,
      spells_text.2 ⟨rfl, rfl⟩⟩

theorem spells_openingOf : (openingOf tag).Spells before cs after kept ↔
    ∃ n r, cs = '<' :: (n ++ (r ++ ['>'])) ∧ SameName tag n ∧ '>' ∉ r ∧
      Edge.word.holds (between (before ++ '<' :: n) (r ++ '>' :: after)) = true ∧ kept = [] := by
  constructor
  · rintro ⟨_, _, _, _, rfl, rfl, ⟨_, r, _, _, rfl, rfl, ⟨_, _, _, _, rfl, rfl, ⟨_, n, _, _, rfl, rfl,
      bracket, name⟩, ⟨edge, rfl⟩, rfl⟩, inner⟩, closing⟩
    obtain ⟨rfl, rfl⟩ := spells_text.1 bracket
    obtain ⟨same, rfl⟩ := spells_charsAnyCase.1 name
    obtain ⟨others, rfl⟩ := spells_many.1 inner
    obtain ⟨rfl, rfl⟩ := spells_text.1 closing
    exact ⟨n, r, by simp, same, forall_noneOf_bracket.1 others, by simpa using edge, rfl⟩
  · rintro ⟨n, r, rfl, same, absent, edge, rfl⟩
    refine ⟨'<' :: (n ++ r), ['>'], [], [], by simp, rfl, ?_, spells_text.2 ⟨rfl, rfl⟩⟩
    refine ⟨'<' :: n, r, [], [], by simp, rfl, ?_,
      spells_many.2 ⟨forall_noneOf_bracket.2 absent, rfl⟩⟩
    refine ⟨'<' :: n, [], [], [], by simp, rfl, ?_, ⟨by simpa using edge, rfl⟩, rfl⟩
    exact ⟨['<'], n, [], [], rfl, rfl, spells_text.2 ⟨rfl, rfl⟩, spells_charsAnyCase.2 ⟨same, rfl⟩⟩

theorem spells_closingOf : (closingOf tag).Spells before cs after kept ↔
    ∃ n g, cs = '<' :: '/' :: (n ++ (g ++ ['>'])) ∧ SameName tag n ∧ (∀ y ∈ g, isBlank y = true) ∧
      kept = [] := by
  constructor
  · rintro ⟨_, _, _, _, rfl, rfl, ⟨_, g, _, _, rfl, rfl, ⟨_, n, _, _, rfl, rfl, bracket, name⟩, gap⟩,
      closing⟩
    obtain ⟨rfl, rfl⟩ := spells_text.1 bracket
    obtain ⟨same, rfl⟩ := spells_charsAnyCase.1 name
    obtain ⟨blank, rfl⟩ := spells_blanks.1 gap
    obtain ⟨rfl, rfl⟩ := spells_text.1 closing
    exact ⟨n, g, by simp, same, blank, rfl⟩
  · rintro ⟨n, g, rfl, same, blank, rfl⟩
    refine ⟨'<' :: '/' :: (n ++ g), ['>'], [], [], by simp, rfl, ?_, spells_text.2 ⟨rfl, rfl⟩⟩
    refine ⟨'<' :: '/' :: n, g, [], [], by simp, rfl, ?_, spells_blanks.2 ⟨blank, rfl⟩⟩
    exact ⟨['<', '/'], n, [], [], rfl, rfl, spells_text.2 ⟨rfl, rfl⟩, spells_charsAnyCase.2 ⟨same, rfl⟩⟩

theorem spells_anyOpenTag : anyOpenTag.Spells before cs after kept ↔
    ∃ w r, cs = '<' :: (w ++ (r ++ ['>'])) ∧ w ≠ [] ∧ (∀ y ∈ w, isWordChar y = true) ∧ '>' ∉ r ∧
      kept = [(1, w)] := by
  constructor
  · rintro ⟨_, _, _, _, rfl, rfl, ⟨_, r, _, _, rfl, rfl, ⟨_, w, _, _, rfl, rfl, bracket, ⟨_, name, rfl⟩⟩,
      inner⟩, closing⟩
    obtain ⟨rfl, rfl⟩ := spells_text.1 bracket
    obtain ⟨⟨some, letters⟩, rfl⟩ := spells_most_one.1 name
    obtain ⟨others, rfl⟩ := spells_many.1 inner
    obtain ⟨rfl, rfl⟩ := spells_text.1 closing
    exact ⟨w, r, by simp, some, letters, forall_noneOf_bracket.1 others, rfl⟩
  · rintro ⟨w, r, rfl, some, letters, absent, rfl⟩
    refine ⟨'<' :: (w ++ r), ['>'], _, [], by simp, (List.append_nil _).symm, ?_,
      spells_text.2 ⟨rfl, rfl⟩⟩
    refine ⟨'<' :: w, r, _, [], by simp, (List.append_nil _).symm, ?_,
      spells_many.2 ⟨forall_noneOf_bracket.2 absent, rfl⟩⟩
    exact ⟨['<'], w, [], _, rfl, rfl, spells_text.2 ⟨rfl, rfl⟩,
      [], spells_most_one.2 ⟨⟨some, letters⟩, rfl⟩, rfl⟩

end

/-! ### Whole tags -/

/-- What the pattern spells goes from an opening bracket to the next closing one. -/
def SpellsTags (p : Pattern) : Prop :=
  ∀ before cs after kept, p.Spells before cs after kept →
    ∃ body, cs = '<' :: (body ++ ['>']) ∧ '>' ∉ body

theorem spellsTags_openingOf {tag : Text} (isName : IsTagName tag) : SpellsTags (openingOf tag) := by
  intro before cs after kept spelled
  obtain ⟨n, r, rfl, same, absent, -, -⟩ := spells_openingOf.1 spelled
  refine ⟨n ++ r, by simp, List.not_mem_append (fun mem => ?_) absent⟩
  exact same.whole isName '>' mem (by decide)

theorem spellsTags_closingOf {tag : Text} (isName : IsTagName tag) : SpellsTags (closingOf tag) := by
  intro before cs after kept spelled
  obtain ⟨n, g, rfl, same, blank, -⟩ := spells_closingOf.1 spelled
  refine ⟨'/' :: (n ++ g), by simp, List.not_mem_cons_of_ne_of_not_mem (by decide) ?_⟩
  exact List.not_mem_append (fun mem => same.whole isName '>' mem (by decide)) (not_mem_blanks blank)

theorem spellsTags_anyOpenTag : SpellsTags anyOpenTag := by
  intro before cs after kept spelled
  obtain ⟨w, r, rfl, -, letters, absent, -⟩ := spells_anyOpenTag.1 spelled
  exact ⟨w ++ r, by simp, List.not_mem_append (not_mem_of_isWordChar letters (by decide)) absent⟩

/-- A part is text, or goes from an opening bracket to the next closing one. -/
theorem Part.text_cases (part : Part) : '<' ∉ part.text ∨
    ∃ body, part.text = '<' :: (body ++ ['>']) ∧ '<' ∉ body ∧ '>' ∉ body := by
  cases part with
  | words u plain => exact .inl plain.1
  | start o => exact .inr ⟨o.name ++ o.attrs, by simp [text, StartTag.opening], o.plain_body⟩
  | stop o =>
    refine .inr ⟨'/' :: o.name, by simp [text, StartTag.closing], ?_, ?_⟩
    · exact List.not_mem_cons_of_ne_of_not_mem (by decide) o.plain_name.1
    · exact List.not_mem_cons_of_ne_of_not_mem (by decide) o.plain_name.2

section

variable {p : Pattern} {before cs after after' : Text} {kept : List (Nat × Text)}

/-- What is spelled at the start of a tag is the tag. -/
theorem SpellsTags.unique (tags : SpellsTags p) {body : Text} (absent : '>' ∉ body)
    (spelled : p.Spells before cs after' kept) (same : '<' :: (body ++ ['>']) ++ after = cs ++ after') :
    cs = '<' :: (body ++ ['>']) ∧ after' = after := by
  obtain ⟨body', rfl, absent'⟩ := tags _ _ _ _ spelled
  have behind : body ++ '>' :: after = body' ++ '>' :: after' := by simpa using same
  obtain ⟨rfl, rfl⟩ := closing_unique behind absent absent'
  exact ⟨rfl, rfl⟩

/-- A pattern for whole tags, in a row of parts: its matches are the parts that it spells. -/
theorem SpellsTags.forall₂_findAll (tags : SpellsTags p) (moves : p.isSkippable = false)
    {isMatched : Part → Bool} {Q : Part → Hit → Prop}
    (told : ∀ part before after,
      isMatched part = true ↔ ∃ kept, p.Spells before part.text after kept)
    (holds : ∀ part before after hit, isMatched part = true →
      p.matchAt (between before (part.text ++ after)) = some hit → Q part hit) (parts : List Part) :
    List.Forall₂ Q (parts.filter isMatched) (p.findAll (parts.flatMap Part.text)) := by
  apply forall₂_findAll_flatMap moves
  · intro part before after kind
    obtain ⟨kept, spelled⟩ := (told part before after).1 kind
    cases found : p.matchAt (between before (part.text ++ after)) with
    | none => exact absurd spelled (matchAt_between_eq_none_iff.1 found _ _ kept rfl)
    | some hit =>
      refine ⟨hit, rfl, ?_, holds part before after hit kind found⟩
      obtain ⟨after', split, stop, spelled'⟩ := exists_chars_of_matchAt found
      obtain ⟨body, whole, absent⟩ := tags _ _ _ _ spelled
      rw [whole] at split
      obtain ⟨chars, rfl⟩ := tags.unique absent spelled' split
      rw [stop, chars, whole]
  · intro part before u v after other split some
    rw [matchAt_between_eq_none_iff]
    intro cs after' kept same spelled
    obtain ⟨x, v, rfl⟩ := List.exists_cons_of_ne_nil some
    obtain ⟨body', rfl, -⟩ := tags _ _ _ _ spelled
    obtain ⟨rfl, -⟩ := List.cons.inj same
    rcases part.text_cases with absent | ⟨body, whole, absent, closed⟩
    · exact absent (split ▸ List.mem_append_right u List.mem_cons_self)
    · rw [whole] at split
      cases u with
      | nil =>
        rw [List.nil_append] at split
        rw [← split] at same
        obtain ⟨rest, rfl⟩ := tags.unique closed spelled same
        rw [rest, ← whole, List.append_nil] at spelled
        rw [(told part before after').2 ⟨kept, spelled⟩] at other
        cases other
      | cons y u =>
        obtain ⟨-, inner⟩ := List.cons.inj split
        have inside : '<' ∈ body ++ ['>'] := inner ▸ List.mem_append_right u List.mem_cons_self
        simp [absent] at inside

end

/-! ### Which tags are matched -/

/-- Whether the part is an opening tag that is counted for the name. -/
def Part.opensAs (tag : Text) : Part → Bool
  | start o => decide (SameName tag o.stem)
  | _ => false

/-- Whether the part is a closing tag that is counted for the name. -/
def Part.closesAs (tag : Text) : Part → Bool
  | stop o => decide (SameName tag o.name)
  | _ => false

/-- Whether the part is an opening tag. -/
def Part.isStart : Part → Bool
  | start _ => true
  | _ => false

theorem SpellsTags.not_spells_words {p : Pattern} (tags : SpellsTags p) {before u after : Text}
    {kept : List (Nat × Text)} (plain : '<' ∉ u) : ¬ p.Spells before u after kept := by
  intro spelled
  obtain ⟨body, rfl, -⟩ := tags _ _ _ _ spelled
  exact plain List.mem_cons_self

section

variable {tag before after : Text} (isName : IsTagName tag)
include isName

/-- An opening tag has the name as far as the first characters of its own name go that are letters. -/
theorem exists_spells_opening_iff (o : StartTag) :
    (∃ kept, (openingOf tag).Spells before o.opening after kept) ↔ SameName tag o.stem := by
  constructor
  · rintro ⟨kept, spelled⟩
    obtain ⟨n, r, whole, same, -, edge, -⟩ := spells_openingOf.1 spelled
    rw [o.opening_eq] at whole
    obtain rfl | ⟨y, ys, longer, rest⟩ := o.stem_eq_or_exists (same.whole isName) (List.cons.inj whole).2
    · exact same
    · -- the stem goes on with a letter, so no word ends here
      have letters := List.forall_mem_append.1 (longer ▸ o.letters_stem)
      have ahead : r ++ '>' :: after = y :: (ys ++ (o.tail ++ ['>']) ++ after) := by
        rw [← List.singleton_append, ← List.append_assoc, rest]
        rfl
      rw [← List.singleton_append, ← List.append_assoc, wordEnd_holds_iff (same.ne_nil isName) letters.1,
        ahead] at edge
      have letter := letters.2 y List.mem_cons_self
      rw [edge y rfl] at letter
      cases letter
  · intro same
    refine ⟨[], spells_openingOf.2 ⟨o.stem, o.tail, o.opening_eq, same, o.plain_tail, ?_, rfl⟩⟩
    obtain ⟨y, r, ahead, sign⟩ := o.exists_tail_eq after
    rw [← List.singleton_append, ← List.append_assoc, wordEnd_holds_iff o.stem_ne_nil o.letters_stem,
      ahead]
    rintro _ ⟨⟩
    exact (stemEnds_low y sign).1

theorem not_spells_openingOf_closing (o : StartTag) {kept : List (Nat × Text)} :
    ¬ (openingOf tag).Spells before o.closing after kept := by
  intro spelled
  obtain ⟨n, r, whole, same, -⟩ := spells_openingOf.1 spelled
  obtain ⟨y, n, rfl⟩ := List.exists_cons_of_ne_nil (same.ne_nil isName)
  obtain ⟨rfl, -⟩ := List.cons.inj (List.cons.inj whole).2
  exact same.whole isName '/' List.mem_cons_self (by decide)

/-- A closing tag has the name with all the characters of its own. -/
theorem exists_spells_closing_iff (o : StartTag) :
    (∃ kept, (closingOf tag).Spells before o.closing after kept) ↔ SameName tag o.name := by
  constructor
  · rintro ⟨kept, spelled⟩
    obtain ⟨n, g, whole, same, blank, -⟩ := spells_closingOf.1 spelled
    have names : o.name ++ '>' :: [] = (n ++ g) ++ '>' :: [] := by
      simpa [StartTag.closing] using whole
    obtain ⟨split, -⟩ := closing_unique names o.plain_name.2
      (List.not_mem_append (fun mem => same.whole isName '>' mem (by decide)) (not_mem_blanks blank))
    have none : g = [] := by
      cases g with
      | nil => rfl
      | cons y g =>
        have letter := o.letters y (split ▸ List.mem_append_right n List.mem_cons_self)
        have blank := blank y List.mem_cons_self
        rcases letter with letter | rfl
        · rw [isBlank_of_isWordChar letter] at blank
          cases blank
        · exact absurd blank (by decide)
    rwa [split, none, List.append_nil]
  · intro same
    exact ⟨[], spells_closingOf.2 ⟨o.name, [], rfl, same, by simp, rfl⟩⟩

omit isName in
theorem not_spells_closingOf_opening (o : StartTag) {kept : List (Nat × Text)} :
    ¬ (closingOf tag).Spells before o.opening after kept := by
  intro spelled
  obtain ⟨n, g, whole, -⟩ := spells_closingOf.1 spelled
  obtain ⟨x, xs, named, letter⟩ := o.begins
  rw [StartTag.opening, named] at whole
  obtain ⟨rfl, -⟩ := List.cons.inj (List.cons.inj whole).2
  revert letter
  decide

theorem opensAs_iff (part : Part) : part.opensAs tag = true ↔
    ∃ kept, (openingOf tag).Spells before part.text after kept := by
  cases part with
  | words u plain =>
    exact iff_of_false Bool.false_ne_true fun ⟨_, spelled⟩ =>
      (spellsTags_openingOf isName).not_spells_words plain.1 spelled
  | start o => rw [Part.opensAs, decide_eq_true_eq]; exact (exists_spells_opening_iff isName o).symm
  | stop o =>
    exact iff_of_false Bool.false_ne_true fun ⟨_, spelled⟩ =>
      not_spells_openingOf_closing isName o spelled

theorem closesAs_iff (part : Part) : part.closesAs tag = true ↔
    ∃ kept, (closingOf tag).Spells before part.text after kept := by
  cases part with
  | words u plain =>
    exact iff_of_false Bool.false_ne_true fun ⟨_, spelled⟩ =>
      (spellsTags_closingOf isName).not_spells_words plain.1 spelled
  | start o =>
    exact iff_of_false Bool.false_ne_true fun ⟨_, spelled⟩ => not_spells_closingOf_opening o spelled
  | stop o => rw [Part.closesAs, decide_eq_true_eq]; exact (exists_spells_closing_iff isName o).symm

theorem count_openingOf (doc : Document) :
    (openingOf tag).count doc.text = doc.parts.countP (Part.opensAs tag) := by
  have hits := (spellsTags_openingOf isName).forall₂_findAll rfl (Q := fun _ _ => True)
    (fun part _ _ => opensAs_iff isName part) (fun _ _ _ _ _ _ => trivial) doc.parts
  rw [doc.flatMap_parts] at hits
  rw [count, ← hits.length_eq, List.countP_eq_length_filter]

theorem count_closingOf (doc : Document) :
    (closingOf tag).count doc.text = doc.parts.countP (Part.closesAs tag) := by
  have hits := (spellsTags_closingOf isName).forall₂_findAll rfl (Q := fun _ _ => True)
    (fun part _ _ => closesAs_iff isName part) (fun _ _ _ _ _ _ => trivial) doc.parts
  rw [doc.flatMap_parts] at hits
  rw [count, ← hits.length_eq, List.countP_eq_length_filter]

end

/-! ### The names of opening tags -/

/-- The name that is read off an opening tag is the stem of its name. -/
theorem groupChars_anyOpenTag (o : StartTag) {before after : Text} {hit : Hit}
    (found : anyOpenTag.matchAt (between before (o.opening ++ after)) = some hit) :
    hit.groupChars 1 = o.stem := by
  have regrouped : (Pattern.text "<" ++ group 1 (.most isWordChar 1) ++
      (many (noneOf ">") ++ Pattern.text ">")).matchAt (between before (o.opening ++ after)) =
        some hit := found
  obtain ⟨xs, w, ys, after', first, last, split, bracket, letters, -, kept, longest⟩ :=
    exists_spells_of_matchAt_longest regrouped
  obtain ⟨rfl, rfl⟩ := spells_text.1 bracket
  have chars : hit.groupChars 1 = w := by
    rw [hit.groupChars_eq, kept]
    rfl
  rw [o.opening_eq] at split
  have names : o.stem ++ (o.tail ++ '>' :: after) = w ++ (ys ++ after') := by simpa using split
  rw [chars]
  obtain rfl | ⟨y, ys, longer, rest⟩ := o.stem_eq_or_exists (not_mem_stemEnds letters) names
  · rfl
  · have more := (List.forall_mem_append.1 (longer ▸ o.letters_stem)).2
    refine absurd (spells_upToBracket.2 ⟨o.tail, rfl, o.plain_tail, rfl⟩)
      (longest (y :: ys) (o.tail ++ ['>']) after [] (List.cons_ne_nil y ys) more ?_)
    rw [rest, List.append_assoc o.tail, List.singleton_append]

theorem isStart_iff (part : Part) {before after : Text} :
    part.isStart = true ↔ ∃ kept, anyOpenTag.Spells before part.text after kept := by
  cases part with
  | words u plain =>
    exact iff_of_false Bool.false_ne_true fun ⟨_, spelled⟩ =>
      spellsTags_anyOpenTag.not_spells_words plain.1 spelled
  | start o =>
    exact iff_of_true rfl ⟨_, spells_anyOpenTag.2
      ⟨o.stem, o.tail, o.opening_eq, o.stem_ne_nil, o.letters_stem, o.plain_tail, rfl⟩⟩
  | stop o =>
    refine iff_of_false Bool.false_ne_true ?_
    rintro ⟨_, spelled⟩
    obtain ⟨w, r, whole, some, letters, -⟩ := spells_anyOpenTag.1 spelled
    obtain ⟨y, w, rfl⟩ := List.exists_cons_of_ne_nil some
    obtain ⟨rfl, -⟩ := List.cons.inj (List.cons.inj whole).2
    exact absurd (letters '/' List.mem_cons_self) (by decide)

theorem forall₂_anyOpenTag (doc : Document) :
    List.Forall₂ (fun part hit => ∃ o, part = .start o ∧ hit.groupChars 1 = o.stem)
      (doc.parts.filter Part.isStart) (anyOpenTag.findAll doc.text) := by
  have hits := spellsTags_anyOpenTag.forall₂_findAll rfl
    (Q := fun part hit => ∃ o, part = .start o ∧ hit.groupChars 1 = o.stem)
    (fun part _ _ => isStart_iff part) (fun part before after hit kind found => ?_) doc.parts
  · rwa [doc.flatMap_parts] at hits
  · cases part with
    | start o => exact ⟨o, rfl, groupChars_anyOpenTag o found⟩
    | words | stop => cases kind

end SourceAudit.Markup
