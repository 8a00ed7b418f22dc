/-
Module: SourceAudit.Proofs.Markup.Tags
Layer: Proofs
Purpose: What the patterns of tags match, told by the text alone. A tag has a name in any case, whatever
  follows it up to the first closing bracket, and this bracket, with a slash before it or not. The
  patterns that the validation and the fixes look for tags with differ in what they keep, but they match
  at the same places.
Main exports: NameLike, ClosedBy, TagAhead, exists_passes_tagNamed_img, exists_passes_imageTag,
  exists_passes_slashedVoid, exists_passes_spacedVoidSlash, keeps_imageTag, keeps_spacedVoidSlash
-/
import SourceAudit.Fix.Markup
import SourceAudit.Markup.Validate
import SourceAudit.Proofs.Pattern.Stretch
import SourceAudit.Proofs.Text.LineEnd

namespace SourceAudit

open Pattern Markup

/-! ### Names of tags -/

/-- The names of the tags that have no closing tag, as far as a trailing slash matters. -/
def voidNames : List String := ["br", "hr", "img", "input", "meta", "link"]

/-- The text is one of the names, in any case. -/
def NameLike (names : List String) (n : Text) : Prop :=
  ∃ name ∈ names, List.Forall₂ (fun x y => sameFold x y = true) name.toList n

theorem sameFold_self (x : Char) : sameFold x x = true := by
  simp [sameFold]

/-- The characters that an ASCII character can be the same as up to case. -/
def asciiLikes : List Char := (List.range 128 ++ [0x17F, 0x212A]).map Char.ofNat

theorem mem_asciiLikes {x y : Char} (ascii : x.toNat < 128) (h : sameFold x y = true) :
    y ∈ asciiLikes := by
  have code : y.toNat < 128 ∨ y.toNat = 0x17F ∨ y.toNat = 0x212A := by
    simp only [sameFold, isFarFromAscii, ascii, decide_true, Bool.true_and, Bool.or_eq_true,
      beq_iff_eq, Bool.and_eq_true, Bool.not_eq_true', Bool.and_eq_false_iff, decide_eq_false_iff_not,
      bne_eq_false_iff_eq] at h
    rcases h with rfl | ⟨near, -⟩
    · exact .inl ascii
    · omega
  rw [asciiLikes, ← Char.ofNat_toNat y]
  refine List.mem_map_of_mem ?_
  simp only [List.mem_append, List.mem_range, List.mem_cons, List.not_mem_nil, or_false]
  exact code

/-- Up to case, a letter of a tag name is like word characters only. -/
theorem isWordChar_of_sameFold {x y : Char} (letter : x ∈ voidNames.flatMap String.toList)
    (h : sameFold x y = true) : isWordChar y = true := by
  have all : (voidNames.flatMap String.toList).all (fun x => x.toNat < 128 &&
      asciiLikes.all fun y => isWordChar y || !sameFold x y) = true := by decide +kernel
  simp only [List.all_eq_true, Bool.and_eq_true, decide_eq_true_eq, Bool.or_eq_true,
    Bool.not_eq_true'] at all
  obtain ⟨ascii, likes⟩ := all x letter
  rcases likes y (mem_asciiLikes ascii h) with word | none
  · exact word
  · rw [h] at none
    cases none

/-- What a tag starts with has no case. -/
theorem eq_of_sameFold_sign {x y : Char} (sign : x ∈ ['<', '/']) (h : sameFold x y = true) : y = x := by
  have all : ['<', '/'].all (fun x => x.toNat < 128 &&
      asciiLikes.all fun y => !sameFold x y || y == x) = true := by decide +kernel
  have here := List.all_eq_true.1 all x sign
  rw [Bool.and_eq_true, decide_eq_true_eq] at here
  have same := List.all_eq_true.1 here.2 y (mem_asciiLikes here.1 h)
  rwa [h, Bool.not_true, Bool.false_or, beq_iff_eq] at same

/-- A tag name has a character, and all are word characters. -/
theorem NameLike.letters {names : List String} (among : names ⊆ voidNames) {n : Text}
    (h : NameLike names n) : n ≠ [] ∧ ∀ y ∈ n, isWordChar y = true := by
  obtain ⟨name, mem, like⟩ := h
  have some : ∀ name ∈ voidNames, name.toList ≠ [] := by decide
  constructor
  · rintro rfl
    exact some name (among mem) (List.forall₂_nil_right_iff.1 like)
  · have letters : ∀ x ∈ name.toList, x ∈ voidNames.flatMap String.toList :=
      fun x inside => List.mem_flatMap.2 ⟨name, among mem, inside⟩
    clear some mem
    generalize name.toList = cs at like letters
    induction like with
    | nil => exact fun y inside => nomatch inside
    | cons first _ ih =>
      obtain ⟨here, others⟩ := List.forall_mem_cons.1 letters
      exact List.forall_mem_cons.2 ⟨isWordChar_of_sameFold here first, ih others⟩

theorem not_mem_of_isWordChar {n : Text} {x : Char} (letters : ∀ y ∈ n, isWordChar y = true)
    (other : isWordChar x = false) : x ∉ n := by
  intro inside
  rw [letters x inside] at other
  cases other

/-! ### Tags at the start of a text -/

/-- The text has a closing bracket, and the first one ends `close`. -/
def ClosedBy (close a : Text) : Prop := ∃ body r, a = body ++ (close ++ r) ∧ '>' ∉ body

/-- The text starts with a tag that has one of the names and is closed by `close`. -/
def TagAhead (names : List String) (close a : Text) : Prop :=
  ∃ n rest, a = '<' :: (n ++ rest) ∧ NameLike names n ∧ (∀ y ∈ rest.head?, isWordChar y = false) ∧
    ClosedBy close rest

/-- The first closing bracket is where nothing before it is one. -/
theorem closing_unique {u u' r r' : Text} (same : u ++ '>' :: r = u' ++ '>' :: r') (before : '>' ∉ u)
    (before' : '>' ∉ u') : u = u' ∧ r = r' := by
  have apart : ∀ {u : Text}, '>' ∉ u → ∀ y ∈ u, (y == '>') = false := by
    intro u absent y mem
    rw [beq_eq_false_iff_ne]
    rintro rfl
    exact absent mem
  obtain ⟨front, -, rest⟩ := Text.split_unique (· == '>') same (apart before) (apart before') rfl rfl
  exact ⟨front, rest⟩

theorem forall_noneOf_bracket {cs : Text} : (∀ x ∈ cs, noneOf ">" x = true) ↔ '>' ∉ cs := by
  have each : ∀ x, noneOf ">" x = true ↔ x ≠ '>' := by
    intro x
    simp [noneOf]
  simp only [each]
  constructor
  · exact fun all inside => all '>' inside rfl
  · rintro absent x inside rfl
    exact absent inside

/-- What is passed up to a closing bracket, as much as possible. -/
theorem passes_many_bracket {c d : Cursor} :
    (many (noneOf ">")).Passes c d ↔ ∃ body, '>' ∉ body ∧ c.Moves body d := by
  refine passes_most.trans ?_
  simp only [forall_noneOf_bracket, Nat.zero_le, true_and]

/-- What is passed up to a closing bracket, as little as possible. -/
theorem passes_fewest_bracket {c d : Cursor} :
    (fewest (noneOf ">") 0).Passes c d ↔ ∃ body, '>' ∉ body ∧ c.Moves body d :=
  passes_many_bracket

theorem passes_blanks {c d : Cursor} :
    blanks.Passes c d ↔ ∃ bs, (∀ y ∈ bs, isBlank y = true) ∧ c.Moves bs d := by
  refine passes_most.trans ?_
  simp only [Nat.zero_le, true_and]

theorem passes_perhaps {p : Pattern} {c d : Cursor} :
    (perhaps p).Passes c d ↔ p.Passes c d ∨ d = c := by
  refine or_congr Iff.rfl ?_
  exact Cursor.skip_eq_some_iff.trans Cursor.moves_nil

/-! ### Openings -/

/-- The pattern passes an opening bracket and one of the names. -/
def Opens (names : List String) (p : Pattern) : Prop :=
  ∀ c m, p.Passes c m ↔ ∃ n, NameLike names n ∧ c.Moves ('<' :: n) m

theorem opens_anyCase (name : String) : Opens [name] (anyCase ("<" ++ name)) := by
  intro c m
  have split : ("<" ++ name).toList = '<' :: name.toList := by rw [String.toList_append]; rfl
  rw [passes_anyCase, split]
  constructor
  · rintro ⟨xs, like, moves⟩
    obtain ⟨y, n, first, others, rfl⟩ := List.forall₂_cons_left_iff.1 like
    obtain rfl := eq_of_sameFold_sign (by decide) first
    exact ⟨n, ⟨name, List.mem_singleton_self name, others⟩, moves⟩
  · rintro ⟨n, ⟨name', mem, like⟩, moves⟩
    obtain rfl := List.mem_singleton.1 mem
    exact ⟨'<' :: n, .cons (by decide) like, moves⟩

theorem passes_anyOf {ps : List Pattern} {c d : Cursor} :
    (anyOf ps).Passes c d ↔ ∃ p ∈ ps, p.Passes c d := by
  induction ps with
  | nil => simp [anyOf, passes_one]
  | cons p ps ih =>
    cases ps with
    | nil => simp [anyOf]
    | cons q ps =>
      rw [List.exists_mem_cons_iff, ← ih]
      exact Iff.rfl

theorem passes_voidName {c m : Cursor} :
    voidName.Passes c m ↔ ∃ n, NameLike voidNames n ∧ c.Moves n m := by
  have names : voidName = anyOf (voidNames.map anyCase) := rfl
  rw [names]
  simp only [passes_anyOf, List.mem_map, exists_exists_and_eq_and, passes_anyCase]
  constructor
  · rintro ⟨name, mem, n, like, moves⟩
    exact ⟨n, ⟨name, mem, like⟩, moves⟩
  · rintro ⟨n, ⟨name, mem, like⟩, moves⟩
    exact ⟨name, mem, n, like, moves⟩

theorem opens_voidName : Opens voidNames (text "<" ++ voidName) := by
  intro c m
  constructor
  · rintro ⟨k, bracket, name⟩
    obtain ⟨n, like, moves⟩ := passes_voidName.1 name
    exact ⟨n, like, (passes_text.1 bracket).trans moves⟩
  · rintro ⟨n, like, moves⟩
    obtain ⟨k, bracket, onward⟩ := @Cursor.Moves.split _ _ ['<'] _ moves
    exact ⟨k, passes_text.2 bracket, passes_voidName.2 ⟨n, like, onward⟩⟩

/-- Behind a name a word ends where no word character follows. -/
theorem NameLike.edge_iff {names : List String} (among : names ⊆ voidNames) {n : Text}
    (like : NameLike names n) {c m : Cursor} (moves : c.Moves n m) :
    Edge.word.holds m = true ↔ ∀ y ∈ m.ahead.head?, isWordChar y = false := by
  obtain ⟨some, letters⟩ := like.letters among
  have left : m.behind.head?.any isWordChar = true := by
    obtain ⟨front, y, rfl⟩ := (List.eq_nil_or_concat n).resolve_left some
    rw [moves.2.1]
    simpa using letters y (by simp)
  rw [Edge.holds, left]
  cases m.ahead.head? <;> simp

section Openings

variable {names : List String} (among : names ⊆ voidNames) {p : Pattern} (opens : Opens names p)
include among opens

theorem passes_opening {c m : Cursor} : (p ++ wordEdge).Passes c m ↔
    ∃ n, NameLike names n ∧ c.Moves ('<' :: n) m ∧ ∀ y ∈ m.ahead.head?, isWordChar y = false := by
  constructor
  · rintro ⟨k, opening, edge, rfl⟩
    obtain ⟨n, like, moves⟩ := (opens c _).1 opening
    obtain ⟨e, -, name⟩ := @Cursor.Moves.split _ _ ['<'] _ moves
    exact ⟨n, like, moves, (like.edge_iff among name).1 edge⟩
  · rintro ⟨n, like, moves, apart⟩
    obtain ⟨e, -, name⟩ := @Cursor.Moves.split _ _ ['<'] _ moves
    exact ⟨m, (opens c m).2 ⟨n, like, moves⟩, (like.edge_iff among name).2 apart, rfl⟩

/-- A tag as the validation looks for it. -/
theorem passes_closedTag {close : String} {c d : Cursor} :
    (p ++ wordEdge ++ many (noneOf ">") ++ text close).Passes c d ↔
      ∃ n body, NameLike names n ∧ '>' ∉ body ∧
        (∀ y ∈ (body ++ (close.toList ++ d.ahead)).head?, isWordChar y = false) ∧
        c.Moves ('<' :: (n ++ (body ++ close.toList))) d := by
  constructor
  · rintro ⟨k, ⟨m, opening, inner⟩, closing⟩
    obtain ⟨n, like, opening, apart⟩ := (passes_opening among opens).1 opening
    obtain ⟨body, absent, inner⟩ := passes_many_bracket.1 inner
    have closing := passes_text.1 closing
    refine ⟨n, body, like, absent, ?_, opening.trans (inner.trans closing)⟩
    rwa [← closing.1, ← inner.1]
  · rintro ⟨n, body, like, absent, apart, moves⟩
    obtain ⟨m, opening, further⟩ := @Cursor.Moves.split _ _ ('<' :: n) _ moves
    obtain ⟨k, inner, closing⟩ := further.split
    refine ⟨k, ⟨m, (passes_opening among opens).2 ⟨n, like, opening, ?_⟩,
      passes_many_bracket.2 ⟨body, absent, inner⟩⟩, passes_text.2 closing⟩
    rwa [inner.1, closing.1]

theorem exists_passes_closedTag {close : String} (c : Cursor) :
    (∃ d, (p ++ wordEdge ++ many (noneOf ">") ++ text close).Passes c d) ↔
      TagAhead names close.toList c.ahead := by
  constructor
  · rintro ⟨d, way⟩
    obtain ⟨n, body, like, absent, apart, moves⟩ := (passes_closedTag among opens).1 way
    exact ⟨n, _, by rw [moves.1]; simp, like, apart, body, d.ahead, rfl, absent⟩
  · rintro ⟨n, rest, ahead, like, apart, body, r, rfl, absent⟩
    have split : c.ahead = ('<' :: (n ++ (body ++ close.toList))) ++ r := by
      rw [ahead]
      simp
    obtain ⟨d, moves, rfl⟩ := Cursor.exists_moves split
    exact ⟨d, (passes_closedTag among opens).2 ⟨n, body, like, absent, apart, moves⟩⟩

end Openings

theorem exists_passes_tagNamed_img (c : Cursor) :
    (∃ d, (tagNamed "img").Passes c d) ↔ TagAhead ["img"] ['>'] c.ahead :=
  exists_passes_closedTag (by decide) (opens_anyCase "img") c

theorem exists_passes_slashedVoid (c : Cursor) :
    (∃ d, slashedVoid.Passes c d) ↔ TagAhead voidNames ['/', '>'] c.ahead :=
  exists_passes_closedTag (List.Subset.refl _) opens_voidName c

/-! ### Tags as the fixes look for them -/

/-- The parts of an image that the fix finds. -/
theorem keeps_imageTag {c d : Cursor} {kept : Groups} (way : Fix.imageTag.Keeps c d kept) :
    ∃ n attributes bs slash, NameLike ["img"] n ∧ '>' ∉ attributes ∧ (∀ y ∈ bs, isBlank y = true) ∧
      (slash = [] ∨ slash = ['/']) ∧
      (∀ y ∈ (attributes ++ (bs ++ (slash ++ ['>']))).head?, isWordChar y = false) ∧
      c.Moves ('<' :: (n ++ (attributes ++ (bs ++ (slash ++ ['>']))))) d ∧
      Hit.groupChars ⟨⟨c, d⟩, kept⟩ 1 = attributes ∧ Hit.groupChars ⟨⟨c, d⟩, kept⟩ 2 = slash := by
  obtain ⟨l, _, _, ⟨k, _, _, ⟨i, _, _, ⟨m, _, _, opening, ⟨_, ⟨attributes, rfl⟩, rfl⟩, rfl⟩,
    ⟨gap, rfl⟩, rfl⟩, ⟨_, slash, rfl⟩, rfl⟩, ⟨closing, rfl⟩, rfl⟩ := way
  obtain rfl := opening.eq_nil rfl
  obtain rfl := slash.eq_nil rfl
  obtain ⟨n, like, opening, apart⟩ :=
    (passes_opening (by decide) (opens_anyCase "img")).1 opening.passes
  obtain ⟨attributes, absent, inner⟩ := passes_fewest_bracket.1 attributes
  obtain ⟨bs, blank, gap⟩ := passes_blanks.1 gap
  obtain ⟨slash, either, before⟩ : ∃ slash, (slash = [] ∨ slash = ['/']) ∧ k.Moves slash l := by
    rcases passes_perhaps.1 slash.passes with there | rfl
    · exact ⟨['/'], .inr rfl, passes_text.1 there⟩
    · exact ⟨[], .inl rfl, Cursor.moves_nil.2 rfl⟩
  have closing := passes_text.1 closing
  refine ⟨n, attributes, bs, slash, like, absent, blank, either, ?_, ?_, inner.chars, before.chars⟩
  · have whole : m.ahead = (attributes ++ (bs ++ (slash ++ ['>']))) ++ d.ahead := by
      rw [inner.1, gap.1, before.1, closing.1]
      simp
    rwa [whole, List.head?_append_of_ne_nil _ (by simp)] at apart
  · exact opening.trans (inner.trans (gap.trans (before.trans closing)))

/-- The parts of a void element that the fix finds. -/
theorem keeps_spacedVoidSlash {c d : Cursor} {kept : Groups}
    (way : Fix.spacedVoidSlash.Keeps c d kept) :
    ∃ n attributes bs, NameLike voidNames n ∧ '>' ∉ attributes ∧ (∀ y ∈ bs, isBlank y = true) ∧
      (∀ y ∈ (attributes ++ (bs ++ ['/', '>'])).head?, isWordChar y = false) ∧
      c.Moves ('<' :: (n ++ (attributes ++ (bs ++ ['/', '>'])))) d ∧
      Hit.groupChars ⟨⟨c, d⟩, kept⟩ 1 = n ∧ Hit.groupChars ⟨⟨c, d⟩, kept⟩ 2 = attributes := by
  obtain ⟨l, _, _, ⟨k, _, _, ⟨i, _, _, ⟨m, _, _, ⟨e, _, _, ⟨bracket, rfl⟩, ⟨_, name, rfl⟩, rfl⟩,
    ⟨edge, rfl⟩, rfl⟩, ⟨_, ⟨attributes, rfl⟩, rfl⟩, rfl⟩, ⟨gap, rfl⟩, rfl⟩, ⟨closing, rfl⟩, rfl⟩ := way
  obtain rfl := name.eq_nil rfl
  obtain ⟨n, like, name⟩ := passes_voidName.1 name.passes
  obtain ⟨holds, rfl⟩ := edge
  have apart := (like.edge_iff (List.Subset.refl _) name).1 holds
  obtain ⟨attributes, absent, inner⟩ := passes_fewest_bracket.1 attributes
  obtain ⟨bs, blank, gap⟩ := passes_blanks.1 gap
  have closing := passes_text.1 closing
  refine ⟨n, attributes, bs, like, absent, blank, ?_, ?_, name.chars, inner.chars⟩
  · have whole : i.ahead = (attributes ++ (bs ++ ['/', '>'])) ++ d.ahead := by
      rw [inner.1, gap.1, closing.1]
      simp
    rwa [whole, List.head?_append_of_ne_nil _ (by simp)] at apart
  · exact (passes_text.1 bracket).trans (name.trans (inner.trans (gap.trans closing)))

theorem not_mem_blanks {bs : Text} (blank : ∀ y ∈ bs, isBlank y = true) : '>' ∉ bs := by
  intro inside
  cases blank '>' inside

/-- The fix finds an image where the validation does. -/
theorem exists_passes_imageTag (c : Cursor) :
    (∃ d, Fix.imageTag.Passes c d) ↔ TagAhead ["img"] ['>'] c.ahead := by
  rw [← exists_passes_tagNamed_img]
  constructor
  · rintro ⟨d, l, ⟨k, ⟨i, ⟨m, opening, attributes⟩, gap⟩, slash⟩, closing⟩
    obtain ⟨attributes, absent, inner⟩ := passes_fewest_bracket.1 attributes
    obtain ⟨bs, blank, gap⟩ := passes_blanks.1 gap
    have whole : (many (noneOf ">")).Passes m l := by
      rw [passes_many_bracket]
      rcases passes_perhaps.1 slash with there | rfl
      · refine ⟨_, ?_, inner.trans (gap.trans (passes_text.1 there))⟩
        simp [absent, not_mem_blanks blank]
      · refine ⟨_, ?_, inner.trans gap⟩
        simp [absent, not_mem_blanks blank]
    exact ⟨d, l, ⟨m, opening, whole⟩, closing⟩
  · rintro ⟨d, k, ⟨m, opening, body⟩, closing⟩
    have nothing : blanks.Passes k k := passes_blanks.2 ⟨[], by simp, Cursor.moves_nil.2 rfl⟩
    exact ⟨d, k, ⟨k, ⟨k, ⟨m, opening, body⟩, nothing⟩, passes_perhaps.2 (.inr rfl)⟩, closing⟩

/-- The fix finds a slash on a void element where the validation does. -/
theorem exists_passes_spacedVoidSlash (c : Cursor) :
    (∃ d, Fix.spacedVoidSlash.Passes c d) ↔ TagAhead voidNames ['/', '>'] c.ahead := by
  rw [← exists_passes_slashedVoid]
  constructor
  · rintro ⟨d, k, ⟨i, ⟨m, opening, attributes⟩, gap⟩, closing⟩
    obtain ⟨attributes, absent, inner⟩ := passes_fewest_bracket.1 attributes
    obtain ⟨bs, blank, gap⟩ := passes_blanks.1 gap
    have whole : (many (noneOf ">")).Passes m k := by
      refine passes_many_bracket.2 ⟨_, ?_, inner.trans gap⟩
      simp [absent, not_mem_blanks blank]
    exact ⟨d, k, ⟨m, opening, whole⟩, closing⟩
  · rintro ⟨d, k, ⟨m, opening, body⟩, closing⟩
    have nothing : blanks.Passes k k := passes_blanks.2 ⟨[], by simp, Cursor.moves_nil.2 rfl⟩
    exact ⟨d, k, ⟨k, ⟨m, opening, body⟩, nothing⟩, closing⟩

end SourceAudit
