/-
Module: SourceAudit.Proofs.Markup.Elements
Layer: Proofs
Purpose: Markup as a row of tags with plain stretches between them, and pages whose deprecated elements
  are closed and nested in one another. Where a tag starts in the text of a row, it is a tag of the row.
  Of one kind of tag, only the row of its marks matters: a page has none closed that was not opened, and
  its marks alternate exactly if no element of the kind holds another one.
Main exports: OpeningTag, ClosingTag, Token, render, exists_of_opensTag, exists_of_closesTag,
  reportsTag_render_iff, marks, Alternates, Covered, Page, Page.SelfNests, Page.covered_marks,
  Page.alternates_marks_iff
-/
import SourceAudit.Proofs.Markup.Sought

namespace SourceAudit

/-! ### Rows of tags -/

/-- An opening tag up to its bracket, with no other tag inside. -/
structure OpeningTag where
  tag : DeprecatedTag
  name : Text
  /-- What stands between the name and the bracket. -/
  attrs : Text
  spelled : SpelledAs tag name
  apart : ∀ y ∈ attrs.head?, isWordChar y = false
  closed : '>' ∉ attrs
  inert : Inert (attrs ++ ['>'])

/-- A closing tag. -/
structure ClosingTag where
  tag : DeprecatedTag
  name : Text
  gap : Text
  spelled : SpelledAs tag name
  blank : ∀ y ∈ gap, isBlank y = true

/-- The characters of the tag. -/
def OpeningTag.text (o : OpeningTag) : Text := '<' :: (o.name ++ (o.attrs ++ ['>']))

/-- The characters of the tag. -/
def ClosingTag.text (c : ClosingTag) : Text := '<' :: '/' :: (c.name ++ (c.gap ++ ['>']))

/-- The opening tag with nothing behind its name. -/
def DeprecatedTag.bareOpening (tag : DeprecatedTag) : OpeningTag where
  tag := tag
  name := tag.name.toList
  attrs := []
  spelled := by cases tag <;> decide
  apart := by simp
  closed := by simp
  inert := .of_not_mem (by decide)

/-- The closing tag with nothing behind its name. -/
def DeprecatedTag.bareClosing (tag : DeprecatedTag) : ClosingTag where
  tag := tag
  name := tag.name.toList
  gap := []
  spelled := by cases tag <;> decide
  blank := by simp

/-- A part of a text: a stretch in which no deprecated tag starts, or such a tag. -/
inductive Token where
  | plain (u : Text) (inert : Inert u)
  | opening (o : OpeningTag)
  | closing (c : ClosingTag)

/-- The characters of the part. -/
def Token.text : Token → Text
  | .plain u _ => u
  | .opening o => o.text
  | .closing c => c.text

/-- The text with these parts. -/
def render (ts : List Token) : Text := ts.flatMap Token.text

@[simp] theorem render_cons (t : Token) (ts : List Token) : render (t :: ts) = t.text ++ render ts :=
  List.flatMap_cons

@[simp] theorem render_append (ts ts' : List Token) : render (ts ++ ts') = render ts ++ render ts' :=
  List.flatMap_append

variable {tag : DeprecatedTag} {a b w : Text} {ts : List Token}

/-- Behind its first character, no part has a tag in it. -/
theorem Token.inert_tail {t : Token} {x : Char} {u : Text} (whole : t.text = x :: u) : Inert u := by
  cases t with
  | plain v inert =>
    obtain rfl : v = x :: u := whole
    exact inert.suffix (v := [x])
  | opening o =>
    obtain ⟨-, rfl⟩ := List.cons.inj whole
    exact (Inert.of_not_mem (not_mem_of_isWordChar o.spelled.letters (by decide))).append o.inert
  | closing c =>
    obtain ⟨-, rfl⟩ := List.cons.inj whole
    have name : '<' ∉ c.name := not_mem_of_isWordChar c.spelled.letters (by decide)
    have gap : '<' ∉ c.gap := by
      intro inside
      cases c.blank '<' inside
    exact .of_not_mem (by simp [name, gap])

theorem OpeningTag.opensTag_iff (o : OpeningTag) : OpensTag tag (o.text ++ w) ↔ tag = o.tag := by
  have shape : o.text ++ w = '<' :: (o.name ++ (o.attrs ++ '>' :: w)) := by simp [text]
  rw [shape, SourceAudit.opensTag_iff o.spelled (edge_before_bracket o.apart)]

theorem ClosingTag.closesTag_iff (c : ClosingTag) : ClosesTag tag (c.text ++ w) ↔ tag = c.tag := by
  have shape : c.text ++ w = '<' :: '/' :: (c.name ++ (c.gap ++ '>' :: w)) := by simp [text]
  rw [shape, SourceAudit.closesTag_iff c.spelled c.blank]

theorem OpeningTag.not_closesTag (o : OpeningTag) : ¬ ClosesTag tag (o.text ++ w) := by
  have shape : o.text ++ w = '<' :: (o.name ++ (o.attrs ++ '>' :: w)) := by simp [text]
  rw [shape]
  exact SourceAudit.not_closesTag o.spelled.ne_nil o.spelled.letters _

theorem ClosingTag.not_opensTag (c : ClosingTag) : ¬ OpensTag tag (c.text ++ w) :=
  not_opensTag_slash _

/-- An opening tag is known from a text that starts with it. -/
theorem OpeningTag.unique (o : OpeningTag) {n attrs r : Text} (spelled : SpelledAs tag n)
    (closed : '>' ∉ attrs) (apart : ∀ y ∈ attrs.head?, isWordChar y = false)
    (same : o.text ++ w = '<' :: (n ++ (attrs ++ ['>'])) ++ r) :
    o.tag = tag ∧ o.name = n ∧ o.attrs = attrs ∧ w = r := by
  have tails : o.name ++ (o.attrs ++ '>' :: w) = n ++ (attrs ++ '>' :: r) := by
    simpa [text] using same
  obtain ⟨name, behind⟩ := letters_unique tails o.spelled.letters spelled.letters
    (edge_before_bracket o.apart) (edge_before_bracket apart)
  obtain ⟨inner, rest⟩ := closing_unique behind o.closed closed
  exact ⟨o.spelled.unique (name ▸ spelled), name, inner, rest⟩

/-- A closing tag is known from a text that starts with it. -/
theorem ClosingTag.unique (c : ClosingTag) {n gap r : Text} (spelled : SpelledAs tag n)
    (blank : ∀ y ∈ gap, isBlank y = true)
    (same : c.text ++ w = '<' :: '/' :: (n ++ (gap ++ ['>'])) ++ r) :
    c.tag = tag ∧ c.name = n ∧ c.gap = gap ∧ w = r := by
  have tails : c.name ++ (c.gap ++ '>' :: w) = n ++ (gap ++ '>' :: r) := by
    simpa [text] using same
  obtain ⟨name, inner, rest⟩ := closing_parts tails c.spelled.letters spelled.letters c.blank blank
  exact ⟨c.spelled.unique (name ▸ spelled), name, inner, rest⟩

/-- Where a tag starts in a row, one of its parts does. -/
theorem exists_token_of_starts (whole : render ts = a ++ b)
    (starts : OpensTag tag b ∨ ClosesTag tag b) : ∃ front t back, ts = front ++ t :: back ∧
      a = render front ∧ b = t.text ++ render back ∧ t.text ≠ [] := by
  induction ts generalizing a with
  | nil =>
    obtain ⟨-, rfl⟩ := List.append_eq_nil_iff.1 whole.symm
    rcases starts with ⟨_, _, none, -⟩ | ⟨_, _, _, none, -⟩ <;> cases none
  | cons t ts ih =>
    rw [render_cons] at whole
    obtain ⟨as, rfl, rest⟩ | ⟨x, split, rfl⟩ := List.append_eq_append_iff.1 whole
    · obtain ⟨front, t', back, rfl, rfl, rfl, some⟩ := ih rest
      exact ⟨t :: front, t', back, rfl, by simp, rfl, some⟩
    · rcases eq_or_ne x [] with rfl | some
      · obtain ⟨front, t', back, rfl, none, same, some⟩ := ih (a := []) rfl
        exact ⟨t :: front, t', back, rfl, by simp [split, ← none], same, some⟩
      · cases a with
        | nil => exact ⟨[], t, ts, rfl, rfl, by simp [split], by simpa [split] using some⟩
        | cons y a =>
          -- a start behind the first character of a part
          have silent := Token.inert_tail split a x (render ts) tag rfl some
          exact (starts.elim silent.1 silent.2).elim

/-- Where an opening tag starts in a row, it is one of the row. -/
theorem exists_of_opensTag (whole : render ts = a ++ b) (opens : OpensTag tag b) :
    ∃ front o back, ts = front ++ .opening o :: back ∧ o.tag = tag ∧ a = render front ∧
      b = o.text ++ render back := by
  obtain ⟨front, t, back, rfl, rfl, rfl, some⟩ := exists_token_of_starts whole (.inl opens)
  cases t with
  | plain u inert => exact absurd opens (inert [] u _ tag rfl some).1
  | opening o => exact ⟨front, o, back, rfl, (o.opensTag_iff.1 opens).symm, rfl, rfl⟩
  | closing c => exact absurd opens c.not_opensTag

/-- Where a closing tag starts in a row, it is one of the row. -/
theorem exists_of_closesTag (whole : render ts = a ++ b) (closes : ClosesTag tag b) :
    ∃ front c back, ts = front ++ .closing c :: back ∧ c.tag = tag ∧ a = render front ∧
      b = c.text ++ render back := by
  obtain ⟨front, t, back, rfl, rfl, rfl, some⟩ := exists_token_of_starts whole (.inr closes)
  cases t with
  | plain u inert => exact absurd closes (inert [] u _ tag rfl some).2
  | opening o => exact absurd closes o.not_closesTag
  | closing c => exact ⟨front, c, back, rfl, (c.closesTag_iff.1 closes).symm, rfl, rfl⟩

/-- A tag is reported exactly if the row has an opening one. -/
theorem reportsTag_render_iff : ReportsTag tag (render ts) ↔ ∃ o, .opening o ∈ ts ∧ o.tag = tag := by
  rw [reportsTag_iff]
  constructor
  · rintro ⟨before, rest, whole, opens⟩
    obtain ⟨front, o, back, rfl, rfl, -, -⟩ := exists_of_opensTag whole opens
    exact ⟨o, by simp, rfl⟩
  · rintro ⟨o, mem, rfl⟩
    obtain ⟨front, back, rfl⟩ := List.append_of_mem mem
    exact ⟨render front, o.text ++ render back, by simp [Token.text], o.opensTag_iff.2 rfl⟩

/-! ### Marks -/

/-- The tags of one kind in a row: `true` for an opening one, `false` for a closing one. -/
def marks (tag : DeprecatedTag) : List Token → List Bool
  | [] => []
  | .plain _ _ :: ts => marks tag ts
  | .opening o :: ts => if o.tag = tag then true :: marks tag ts else marks tag ts
  | .closing c :: ts => if c.tag = tag then false :: marks tag ts else marks tag ts

@[simp] theorem marks_append (tag : DeprecatedTag) (ts ts' : List Token) :
    marks tag (ts ++ ts') = marks tag ts ++ marks tag ts' := by
  induction ts with
  | nil => rfl
  | cons t ts ih =>
    cases t with
    | plain u inert => exact ih
    | opening o => by_cases same : o.tag = tag <;> simp [marks, same, ih]
    | closing c => by_cases same : c.tag = tag <;> simp [marks, same, ih]

theorem true_mem_marks_iff : true ∈ marks tag ts ↔ ∃ o, .opening o ∈ ts ∧ o.tag = tag := by
  induction ts with
  | nil => simp [marks]
  | cons t ts ih =>
    cases t with
    | plain u inert => simp [marks, ih]
    | opening o => by_cases same : o.tag = tag <;> simp [marks, same, ih]
    | closing c => by_cases same : c.tag = tag <;> simp [marks, same, ih]

theorem false_mem_marks_iff : false ∈ marks tag ts ↔ ∃ c, .closing c ∈ ts ∧ c.tag = tag := by
  induction ts with
  | nil => simp [marks]
  | cons t ts ih =>
    cases t with
    | plain u inert => simp [marks, ih]
    | opening o => by_cases same : o.tag = tag <;> simp [marks, same, ih]
    | closing c => by_cases same : c.tag = tag <;> simp [marks, same, ih]

/-- Each opening mark is followed by a closing one. -/
inductive Alternates : List Bool → Prop where
  | nil : Alternates []
  | pair {m : List Bool} (rest : Alternates m) : Alternates (true :: false :: m)

/-- With some tags open already, no tag is closed that is not open. -/
def Covered : Nat → List Bool → Prop
  | _, [] => True
  | n, true :: m => Covered (n + 1) m
  | n, false :: m => 0 < n ∧ Covered (n - 1) m

theorem Covered.succ {n : Nat} {m : List Bool} (h : Covered n m) : Covered (n + 1) m := by
  induction m generalizing n with
  | nil => trivial
  | cons x m ih =>
    cases x with
    | true => exact ih h
    | false =>
      obtain ⟨pos, later⟩ := h
      have step := ih later
      rw [Nat.sub_add_cancel pos] at step
      exact ⟨n.succ_pos, step⟩

/-- Marks that need nothing open before them are none, or start with an opening one. -/
theorem Covered.eq_nil_or {m : List Bool} (h : Covered 0 m) : m = [] ∨ ∃ m', m = true :: m' := by
  cases m with
  | nil => exact .inl rfl
  | cons x m =>
    cases x with
    | true => exact .inr ⟨m, rfl⟩
    | false => exact absurd h.1 (Nat.lt_irrefl 0)

theorem alternates_append_iff {m m' : List Bool} (h : Covered 0 m') :
    Alternates (m ++ m') ↔ Alternates m ∧ Alternates m' := by
  constructor
  · intro alternates
    -- two marks at a time; a pair across the seam would close what is not open behind it
    generalize whole : m ++ m' = l at alternates
    induction alternates generalizing m with
    | nil =>
      obtain ⟨rfl, rfl⟩ := List.append_eq_nil_iff.1 whole
      exact ⟨.nil, .nil⟩
    | pair rest ih =>
      match m with
      | [] =>
        rw [List.nil_append] at whole
        exact ⟨.nil, whole ▸ .pair rest⟩
      | [x] =>
        obtain rfl | ⟨m'', rfl⟩ := h.eq_nil_or
        · simp at whole
        · simp at whole
      | x :: y :: m =>
        obtain ⟨rfl, whole'⟩ := List.cons.inj whole
        obtain ⟨rfl, whole''⟩ := List.cons.inj whole'
        exact ⟨.pair (ih whole'').1, (ih whole'').2⟩
  · rintro ⟨first, second⟩
    induction first with
    | nil => exact second
    | pair rest ih => exact .pair ih

/-- A pair of marks around others, and what follows. -/
theorem alternates_pair_iff {m m' : List Bool} (h : Covered 0 m) :
    Alternates (true :: (m ++ false :: m')) ↔ m = [] ∧ Alternates m' := by
  obtain rfl | ⟨m, rfl⟩ := h.eq_nil_or
  · exact ⟨fun | .pair rest => ⟨rfl, rest⟩, fun h => .pair h.2⟩
  · exact ⟨nofun, nofun⟩

/-! ### Pages -/

/-- The name of the tag ends behind these letters; else the tag is one of another name. -/
def OpeningTag.EndsName (o : OpeningTag) : Prop := ∀ y ∈ o.attrs.head?, isBlank y = true ∨ y = '/'

/-- What starts like an opening tag of the kind is one. -/
def NamesEnd (tag : DeprecatedTag) (ts : List Token) : Prop :=
  ∀ o, .opening o ∈ ts → o.tag = tag → o.EndsName

/-- A page whose deprecated elements are closed and nested in one another. -/
inductive Page where
  | done
  /-- Something without deprecated tags. -/
  | plain (u : Text) (inert : Inert u) (rest : Page)
  /-- A deprecated element. -/
  | element (o : OpeningTag) (own : o.EndsName) (content : Page) (c : ClosingTag) (same : c.tag = o.tag)
      (rest : Page)
  /-- An opening tag of another name, which starts with a deprecated one and an edge of the word. -/
  | other (o : OpeningTag) (longer : ¬ o.EndsName) (rest : Page)

namespace Page

variable {o : OpeningTag} {c : ClosingTag}

/-- The parts of the page. -/
def tokens : Page → List Token
  | done => []
  | plain u inert rest => .plain u inert :: rest.tokens
  | element o _ content c _ rest => .opening o :: (content.tokens ++ .closing c :: rest.tokens)
  | other o _ rest => .opening o :: rest.tokens

/-- The characters of the page. -/
def text (page : Page) : Text := render page.tokens

/-- An element without attributes. -/
def bare (tag : DeprecatedTag) (content rest : Page) : Page :=
  .element tag.bareOpening (by simp [OpeningTag.EndsName, DeprecatedTag.bareOpening]) content
    tag.bareClosing rfl rest

/-- An element of this kind holds an opening tag of its own kind. -/
def SelfNests (tag : DeprecatedTag) : Page → Prop
  | done => False
  | plain _ _ rest => rest.SelfNests tag
  | element o _ content _ _ rest =>
    (o.tag = tag ∧ ∃ i, .opening i ∈ content.tokens ∧ i.tag = tag) ∨
      content.SelfNests tag ∨ rest.SelfNests tag
  | other _ _ rest => rest.SelfNests tag

/-- A page closes nothing that it has not opened. -/
theorem covered_append (tag : DeprecatedTag) (page : Page) {n : Nat} {m : List Bool} (h : Covered n m) :
    Covered n (marks tag page.tokens ++ m) := by
  induction page generalizing n m with
  | done => exact h
  | plain u inert rest ih => exact ih h
  | element o own content c same rest ih ih' =>
    by_cases kind : o.tag = tag
    · have closed : Covered (n + 1) (false :: (marks tag rest.tokens ++ m)) := ⟨n.succ_pos, ih' h⟩
      simpa [tokens, marks, kind, same, Covered] using ih closed
    · simpa [tokens, marks, kind, same] using ih (ih' h)
  | other o longer rest ih =>
    by_cases kind : o.tag = tag
    · simpa [tokens, marks, kind, Covered] using ih h.succ
    · simpa [tokens, marks, kind] using ih h

theorem covered_marks (tag : DeprecatedTag) (page : Page) : Covered 0 (marks tag page.tokens) := by
  simpa using page.covered_append tag (n := 0) (m := []) trivial

theorem marks_eq_nil_iff (tag : DeprecatedTag) (page : Page) :
    marks tag page.tokens = [] ↔ ¬ ∃ o, .opening o ∈ page.tokens ∧ o.tag = tag := by
  rw [← true_mem_marks_iff]
  obtain none | ⟨m, some⟩ := (page.covered_marks tag).eq_nil_or
  · simp [none]
  · simp [some]

theorem namesEnd_element (own : o.EndsName) (content : Page) (same : c.tag = o.tag) (rest : Page) :
    NamesEnd tag (element o own content c same rest).tokens ↔
      NamesEnd tag content.tokens ∧ NamesEnd tag rest.tokens := by
  simp [NamesEnd, tokens, or_imp, forall_and, own]

/-- The marks of a kind alternate exactly if all its tags are of that name and none of its elements
    holds another one. -/
theorem alternates_marks_iff (tag : DeprecatedTag) (page : Page) : Alternates (marks tag page.tokens) ↔
    NamesEnd tag page.tokens ∧ ¬ page.SelfNests tag := by
  induction page with
  | done => simp [NamesEnd, tokens, marks, SelfNests, Alternates.nil]
  | plain u inert rest ih => simpa [NamesEnd, tokens, marks, SelfNests] using ih
  | element o own content c same rest ih ih' =>
    by_cases kind : o.tag = tag
    · have shape : marks tag (element o own content c same rest).tokens =
          true :: (marks tag content.tokens ++ false :: marks tag rest.tokens) := by
        simp [tokens, marks, kind, same]
      have inner (none : ¬ ∃ i, .opening i ∈ content.tokens ∧ i.tag = tag) :
          NamesEnd tag content.tokens ∧ ¬ content.SelfNests tag :=
        ih.1 ((content.marks_eq_nil_iff tag).2 none ▸ .nil)
      rw [shape, alternates_pair_iff (content.covered_marks tag), marks_eq_nil_iff, ih', namesEnd_element]
      simp only [SelfNests, kind, true_and, not_or]
      constructor
      · rintro ⟨none, names, apart⟩
        obtain ⟨names', apart'⟩ := inner none
        exact ⟨⟨names', names⟩, none, apart', apart⟩
      · rintro ⟨⟨-, names⟩, none, -, apart⟩
        exact ⟨none, names, apart⟩
    · have parts : marks tag (element o own content c same rest).tokens =
          marks tag content.tokens ++ marks tag rest.tokens := by simp [tokens, marks, kind, same]
      rw [parts, alternates_append_iff (rest.covered_marks tag), ih, ih', namesEnd_element]
      simp only [SelfNests, kind, false_and, false_or, not_or]
      exact and_and_and_comm
  | other o longer rest ih =>
    by_cases kind : o.tag = tag
    · have shape : marks tag (other o longer rest).tokens = true :: marks tag rest.tokens := by
        simp [tokens, marks, kind]
      rw [shape]
      refine iff_of_false ?_ fun h => longer (h.1 o List.mem_cons_self kind)
      obtain none | ⟨m, some⟩ := (rest.covered_marks tag).eq_nil_or
      · rw [none]
        nofun
      · rw [some]
        nofun
    · have same : marks tag (other o longer rest).tokens = marks tag rest.tokens := by
        simp [tokens, marks, kind]
      rw [same, ih]
      simp [NamesEnd, tokens, SelfNests, or_imp, forall_and, kind]

end Page

end SourceAudit
