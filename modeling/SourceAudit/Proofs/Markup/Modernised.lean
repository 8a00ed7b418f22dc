/-
Module: SourceAudit.Proofs.Markup.Modernised
Layer: Proofs
Purpose: What the fix leaves of the deprecated tags of a page. A pass rewrites the tags of its kind and
  leaves the others as they are. Of the kinds that it rewrites in pairs, it rewrites all if and only if
  opening and closing tags alternate; so a page is rewritten as a whole exactly if none of its elements
  of such a kind holds another one, and no opening tag is written in a way that the fix does not take.
Main exports: Modernises, Modernises.cons, exists_modernises, deprecated_tags_rewritten_iff,
  nested_centers_remain
-/
import SourceAudit.Proofs.Markup.Rewriting

namespace SourceAudit

open Pattern Markup SourceAudit.Fix

variable {tag tag' : DeprecatedTag} {ts ts' : List Token}

/-! ### One pass -/

namespace Pairs

/-- No opening tag is made. -/
theorem mem_of_mem (pairs : Pairs tag ts ts') {o : OpeningTag} (mem : .opening o ∈ ts') :
    .opening o ∈ ts := by
  induction pairs with
  | done => exact mem
  | keep t _ _ ih =>
    rcases List.mem_cons.1 mem with rfl | mem
    · exact List.mem_cons_self
    · exact List.mem_cons_of_mem _ (ih mem)
  | pair o' _ _ inner _ c _ _ ih =>
    simp only [OpeningTag.modern, DeprecatedTag.ending, List.mem_cons, List.mem_append, reduceCtorEq,
      false_or] at mem
    rcases mem with mem | mem
    · simp [mem]
    · simp [ih mem]

/-- An opening tag of another kind stays, and so does one that is not taken. -/
theorem mem (pairs : Pairs tag ts ts') {o : OpeningTag} (mem : .opening o ∈ ts)
    (idle : o.tag = tag → ¬ o.IsRead) : .opening o ∈ ts' := by
  induction pairs with
  | done => exact mem
  | keep t _ _ ih =>
    rcases List.mem_cons.1 mem with rfl | mem
    · exact List.mem_cons_self
    · exact List.mem_cons_of_mem _ (ih mem)
  | pair o' kind read inner _ c _ _ ih =>
    simp only [List.mem_cons, Token.opening.injEq, List.mem_append, reduceCtorEq, false_or] at mem
    rcases mem with rfl | mem | mem
    · exact absurd read (idle kind)
    · simp [mem]
    · simp [ih mem]

theorem marks_eq (pairs : Pairs tag ts ts') (other : tag' ≠ tag) : marks tag' ts' = marks tag' ts := by
  induction pairs with
  | done => rfl
  | keep t _ _ ih =>
    cases t with
    | plain u inert => exact ih
    | opening o => simp [marks, ih]
    | closing c => simp [marks, ih]
  | pair o kind read inner _ c kind' _ ih =>
    have apart : tag ≠ tag' := other.symm
    simp [marks, OpeningTag.modern, DeprecatedTag.ending, kind, kind', apart, ih]

/-- The marks of a pair that is rewritten. -/
theorem marks_pair {o : OpeningTag} {c : ClosingTag} (kind : o.tag = tag) (kind' : c.tag = tag)
    (inner ts : List Token) : marks tag (.opening o :: (inner ++ .closing c :: ts)) =
      true :: (marks tag inner ++ false :: marks tag ts) := by
  simp [marks, kind, kind']

theorem marks_pair_rewritten (o : OpeningTag) (inner ts : List Token) :
    marks tag (o.modern :: (inner ++ tag.ending :: ts)) = marks tag inner ++ marks tag ts := by
  simp [marks, OpeningTag.modern, DeprecatedTag.ending]

/-- Alternating tags are all rewritten. -/
theorem marks_eq_nil (pairs : Pairs tag ts ts')
    (read : ∀ o, .opening o ∈ ts → o.tag = tag → o.IsRead) (alternates : Alternates (marks tag ts)) :
    marks tag ts' = [] := by
  induction pairs with
  | done => rfl
  | keep t idle _ ih =>
    have read' := fun o mem => read o (List.mem_cons_of_mem _ mem)
    cases t with
    | plain u inert => exact ih read' alternates
    | opening o =>
      by_cases kind : o.tag = tag
      · -- the mark behind it is one of a closing tag, so it would not have been kept
        have none := idle o rfl kind (read o List.mem_cons_self kind)
        rw [marks, if_pos kind] at alternates
        generalize marks tag _ = m at alternates none
        cases alternates
        exact absurd List.mem_cons_self none
      · rw [marks, if_neg kind] at alternates ⊢
        exact ih read' alternates
    | closing c =>
      by_cases kind : c.tag = tag
      · rw [marks, if_pos kind] at alternates
        cases alternates
      · rw [marks, if_neg kind] at alternates ⊢
        exact ih read' alternates
  | pair o kind _ inner none c kind' _ ih =>
    rw [marks_pair kind kind'] at alternates
    rw [marks_pair_rewritten]
    cases within : marks tag inner with
    | nil =>
      rw [within] at alternates
      cases alternates with
      | pair rest => exact ih (fun o mem => read o (by simp [mem])) rest
    | cons x m =>
      rw [within] at alternates none
      cases alternates
      exact absurd List.mem_cons_self none

/-- If tags that are all closed are all rewritten, they alternate. -/
theorem alternates (pairs : Pairs tag ts ts') (covered : Covered 0 (marks tag ts))
    (none : true ∉ marks tag ts') : Alternates (marks tag ts) := by
  induction pairs with
  | done => exact .nil
  | keep t idle _ ih =>
    cases t with
    | plain u inert => exact ih covered none
    | opening o =>
      by_cases kind : o.tag = tag
      · rw [marks, if_pos kind] at none
        exact absurd List.mem_cons_self none
      · rw [marks, if_neg kind] at covered none ⊢
        exact ih covered none
    | closing c =>
      by_cases kind : c.tag = tag
      · rw [marks, if_pos kind] at covered
        exact absurd covered.1 (Nat.lt_irrefl 0)
      · rw [marks, if_neg kind] at covered none ⊢
        exact ih covered none
  | pair o kind _ inner closed c kind' _ ih =>
    rw [marks_pair kind kind'] at covered ⊢
    rw [marks_pair_rewritten, List.mem_append, not_or] at none
    have within : marks tag inner = [] := by
      refine List.eq_nil_iff_forall_not_mem.2 fun x mem => ?_
      cases x with
      | true => exact none.1 mem
      | false => exact closed mem
    rw [within] at covered ⊢
    exact .pair (ih covered.2 none.2)

end Pairs

namespace Token

theorem renamed_opening (tag : DeprecatedTag) (o : OpeningTag) :
    renamed tag (.opening o) = if o.tag = tag ∧ o.IsRead then o.modern else .opening o := by
  rw [renamed, opened]
  split <;> rfl

theorem renamed_closing (tag : DeprecatedTag) (c : ClosingTag) :
    renamed tag (.closing c) = if c.tag = tag then tag.ending else .closing c := rfl

theorem renamed_eq_opening_iff {t : Token} {o : OpeningTag} :
    renamed tag t = .opening o ↔ t = .opening o ∧ ¬ (o.tag = tag ∧ o.IsRead) := by
  cases t with
  | plain u inert => exact iff_of_false nofun nofun
  | closing c =>
    rw [renamed_closing]
    split <;> exact iff_of_false nofun nofun
  | opening o' =>
    rw [renamed_opening]
    split
    · rename_i taken
      refine iff_of_false nofun ?_
      rintro ⟨same, left⟩
      exact left (opening.inj same ▸ taken)
    · rename_i left
      exact ⟨fun same => ⟨same, opening.inj same ▸ left⟩, And.left⟩

theorem renamed_eq_closing_iff {t : Token} {c : ClosingTag} :
    renamed tag t = .closing c ↔ t = .closing c ∧ c.tag ≠ tag := by
  cases t with
  | plain u inert => exact iff_of_false nofun nofun
  | opening o =>
    rw [renamed_opening]
    split <;> exact iff_of_false nofun nofun
  | closing c' =>
    rw [renamed_closing]
    split
    · rename_i kind
      refine iff_of_false nofun ?_
      rintro ⟨same, left⟩
      exact left (closing.inj same ▸ kind)
    · rename_i left
      exact ⟨fun same => ⟨same, closing.inj same ▸ left⟩, And.left⟩

end Token

theorem marks_map_renamed (other : tag' ≠ tag) (ts : List Token) :
    marks tag' (ts.map (Token.renamed tag)) = marks tag' ts := by
  induction ts with
  | nil => rfl
  | cons t ts ih =>
    cases t with
    | plain u inert => exact ih
    | opening o =>
      rw [List.map_cons, Token.renamed_opening]
      split
      · rename_i taken
        simp [marks, OpeningTag.modern, taken.1, other.symm, ih]
      · simp [marks, ih]
    | closing c =>
      rw [List.map_cons, Token.renamed_closing]
      split
      · rename_i kind
        simp [marks, DeprecatedTag.ending, kind, other.symm, ih]
      · simp [marks, ih]

/-! ### All passes -/

/-- What the passes for some kinds of tags do to a row. -/
structure Modernises (tags : List DeprecatedTag) (ts ts' : List Token) : Prop where
  /-- No opening tag is made. -/
  made : ∀ o, .opening o ∈ ts' → .opening o ∈ ts
  /-- An opening tag of another kind stays, and so does one that is not taken. -/
  stays : ∀ o, .opening o ∈ ts → (o.tag ∈ tags → ¬ o.IsRead) → .opening o ∈ ts'
  /-- Nothing happens to the tags of another kind. -/
  others : ∀ tag ∉ tags, marks tag ts' = marks tag ts
  /-- Tags that are all taken are all rewritten, if they alternate where they are rewritten in pairs. -/
  gone : ∀ tag ∈ tags, (∀ o, .opening o ∈ ts → o.tag = tag → o.IsRead) →
    (tag.isPaired = true → Alternates (marks tag ts)) → marks tag ts' = []
  /-- If tags that are rewritten in pairs are all rewritten, they alternate. -/
  alternates : ∀ tag ∈ tags, tag.isPaired = true → Covered 0 (marks tag ts) → true ∉ marks tag ts' →
    Alternates (marks tag ts)

namespace Modernises

theorem nil (ts : List Token) : Modernises [] ts ts where
  made _ mem := mem
  stays _ mem _ := mem
  others _ _ := rfl
  gone := nofun
  alternates := nofun

/-- One pass and then the others, each for a kind of its own. -/
theorem cons {tags : List DeprecatedTag} {ts₁ : List Token} (first : Modernises [tag] ts ts₁)
    (later : Modernises tags ts₁ ts') (apart : tag ∉ tags) : Modernises (tag :: tags) ts ts' where
  made o mem := first.made o (later.made o mem)
  stays o mem idle := by
    refine later.stays o (first.stays o mem fun kind => ?_) fun kind => idle (List.mem_cons_of_mem _ kind)
    rw [List.mem_singleton.1 kind] at idle
    exact idle List.mem_cons_self
  others tag' other := by
    rw [List.mem_cons, not_or] at other
    rw [later.others tag' other.2, first.others tag' (by simpa using other.1)]
  gone tag' mem read alternate := by
    by_cases kind : tag' = tag
    · subst kind
      rw [later.others tag' apart, first.gone tag' (List.mem_singleton_self _) read alternate]
    · have same := first.others tag' (by simpa using kind)
      exact later.gone tag' ((List.mem_cons.1 mem).resolve_left kind)
        (fun o mem' => read o (first.made o mem')) (by rwa [same])
  alternates tag' mem paired covered none := by
    by_cases kind : tag' = tag
    · subst kind
      rw [later.others tag' apart] at none
      exact first.alternates tag' (List.mem_singleton_self _) paired covered none
    · have same := first.others tag' (by simpa using kind)
      rw [← same] at covered ⊢
      exact later.alternates tag' ((List.mem_cons.1 mem).resolve_left kind) paired covered none

theorem of_pairs (paired : tag.isPaired = true) (pairs : Pairs tag ts ts') : Modernises [tag] ts ts' where
  made _ mem := pairs.mem_of_mem mem
  stays _ mem idle := pairs.mem mem (by simpa using idle)
  others _ other := pairs.marks_eq (by simpa using other)
  gone tag' mem read alternate := by
    obtain rfl := List.mem_singleton.1 mem
    exact pairs.marks_eq_nil read (alternate paired)
  alternates tag' mem _ covered none := by
    obtain rfl := List.mem_singleton.1 mem
    exact pairs.alternates covered none

theorem of_map (single : tag.isPaired = false) (ts : List Token) :
    Modernises [tag] ts (ts.map (Token.renamed tag)) where
  made o mem := by
    obtain ⟨t, mem, same⟩ := List.mem_map.1 mem
    obtain ⟨rfl, -⟩ := Token.renamed_eq_opening_iff.1 same
    exact mem
  stays o mem idle := by
    refine List.mem_map.2 ⟨_, mem, Token.renamed_eq_opening_iff.2 ⟨rfl, ?_⟩⟩
    rintro ⟨kind, read⟩
    exact idle (List.mem_singleton.2 kind) read
  others tag' other := marks_map_renamed (by simpa using other) ts
  gone tag' mem read _ := by
    obtain rfl := List.mem_singleton.1 mem
    refine List.eq_nil_iff_forall_not_mem.2 fun x mem => ?_
    cases x with
    | true =>
      obtain ⟨o, mem, kind⟩ := true_mem_marks_iff.1 mem
      obtain ⟨t, mem, same⟩ := List.mem_map.1 mem
      obtain ⟨rfl, left⟩ := Token.renamed_eq_opening_iff.1 same
      exact left ⟨kind, read o mem kind⟩
    | false =>
      obtain ⟨c, mem, kind⟩ := false_mem_marks_iff.1 mem
      obtain ⟨t, -, same⟩ := List.mem_map.1 mem
      exact (Token.renamed_eq_closing_iff.1 same).2 kind
  alternates tag' mem paired _ _ := by
    obtain rfl := List.mem_singleton.1 mem
    rw [single] at paired
    cases paired

end Modernises

/-- What is left of a row after passes for different kinds. -/
theorem exists_modernises {tags : List DeprecatedTag} (apart : tags.Nodup) (ts : List Token) :
    ∃ ts', Modernises tags ts ts' ∧ tags.foldl (fun t tag => tag.pass t) (render ts) = render ts' := by
  induction tags generalizing ts with
  | nil => exact ⟨ts, .nil ts, rfl⟩
  | cons tag tags ih =>
    obtain ⟨other, apart⟩ := List.nodup_cons.1 apart
    have step : ∃ ts₁, Modernises [tag] ts ts₁ ∧ tag.pass (render ts) = render ts₁ := by
      cases paired : tag.isPaired with
      | true =>
        obtain ⟨ts₁, pairs, passed⟩ := exists_pairs paired ts
        exact ⟨ts₁, .of_pairs paired pairs, passed⟩
      | false => exact ⟨_, .of_map paired ts, pass_render tag paired ts⟩
    obtain ⟨ts₁, first, passed⟩ := step
    obtain ⟨ts', later, passed'⟩ := ih apart ts₁
    exact ⟨ts', first.cons later other, by rw [List.foldl_cons, passed, passed']⟩

/-! ### A page as a whole -/

/-- In a row without tags, none starts. -/
theorem inert_render (none : ∀ tag, marks tag ts = []) : Inert (render ts) := by
  induction ts with
  | nil => exact .nil
  | cons t ts ih =>
    cases t with
    | plain u inert => exact inert.append (ih none)
    | opening o =>
      have here := none o.tag
      rw [marks, if_pos rfl] at here
      cases here
    | closing c =>
      have here := none c.tag
      rw [marks, if_pos rfl] at here
      cases here

theorem OpeningTag.endsName_of_isRead {o : OpeningTag} (single : o.tag.isPaired = false) (read : o.IsRead) :
    o.EndsName := by
  have strict : o.tag.isLoose = false := by
    revert single
    cases o.tag <;> decide
  have blank := read.resolve_left (by simp [strict])
  exact fun y first => .inl (blank y first)

/-- On a page, the fix rewrites the deprecated tags so that none is reported and a second application
    changes nothing, exactly if whatever starts like such a tag is one that the fix takes, and no center,
    font, marquee or blink element holds another one of its kind. -/
theorem deprecated_tags_rewritten_iff [Engine] (fileName : String) (page : Page) :
    ∃ fixed, applyFix .replaceDeprecatedTags fileName page.text.str = .ok fixed ∧
      ((∀ tag, ¬ ReportsTag tag (Text.of fixed)) ∧
          applyFix .replaceDeprecatedTags fileName fixed = .ok fixed ↔
        (∀ o, .opening o ∈ page.tokens → o.EndsName ∧ o.IsRead) ∧
          ∀ tag, tag.isPaired = true → ¬ page.SelfNests tag) := by
  have applied (code : String) : applyFix .replaceDeprecatedTags fileName code =
      .ok (replaceDeprecatedTags (Text.of code)).str := rfl
  obtain ⟨ts, left, passed⟩ := exists_modernises DeprecatedTag.nodup_passOrder page.tokens
  refine ⟨(render ts).str, by rw [applied, Text.of_str, replaceDeprecatedTags_eq, Page.text, passed], ?_⟩
  rw [applied, Text.of_str]
  constructor
  · rintro ⟨silent, -⟩
    have none (o : OpeningTag) : .opening o ∉ ts := fun mem =>
      silent o.tag (reportsTag_render_iff.2 ⟨o, mem, rfl⟩)
    -- what is not taken stays through all passes and is reported
    have read (o : OpeningTag) (mem : .opening o ∈ page.tokens) : o.IsRead := by
      by_contra idle
      exact none o (left.stays o mem fun _ => idle)
    have alternates (tag : DeprecatedTag) (paired : tag.isPaired = true) :=
      left.alternates tag tag.mem_passOrder paired (page.covered_marks tag) (by
        rw [true_mem_marks_iff]
        rintro ⟨o, mem, -⟩
        exact none o mem)
    refine ⟨fun o mem => ⟨?_, read o mem⟩, fun tag paired =>
      ((page.alternates_marks_iff tag).1 (alternates tag paired)).2⟩
    cases paired : o.tag.isPaired with
    | true => exact ((page.alternates_marks_iff o.tag).1 (alternates o.tag paired)).1 o mem rfl
    | false => exact OpeningTag.endsName_of_isRead paired (read o mem)
  · rintro ⟨plain, flat⟩
    have gone (tag : DeprecatedTag) : marks tag ts = [] :=
      left.gone tag tag.mem_passOrder (fun o mem _ => (plain o mem).2) fun paired =>
        (page.alternates_marks_iff tag).2 ⟨fun o mem _ => (plain o mem).1, flat tag paired⟩
    refine ⟨fun tag reported => ?_, by rw [replaceDeprecatedTags_eq_self (inert_render gone)]⟩
    have mem := true_mem_marks_iff.2 (reportsTag_render_iff.1 reported)
    rw [gone tag] at mem
    cases mem

attribute [local instance] Engine.standard in
example : applyFix .replaceDeprecatedTags "a.html" "<center><font color='red'>x</font></center>" =
    .ok "<div style=\"text-align: center;\"><span style=\"color: red;\">x</span></div>" := by
  decide +kernel

attribute [local instance] Engine.standard in
/-- Of a center element that holds another one, the inner opening tag stays and is reported, and a
    second application goes on with it. -/
theorem nested_centers_remain :
    ∃ page : Page, page.text = Text.of "<center><center>x</center></center>" ∧
      ∃ fixed, applyFix .replaceDeprecatedTags "a.html" page.text.str = .ok fixed ∧
        ReportsTag .center (Text.of fixed) ∧
        applyFix .replaceDeprecatedTags "a.html" fixed ≠ .ok fixed := by
  have plain : Inert (Text.of "x") := .of_not_mem (by decide)
  have whole : (Page.bare .center (.bare .center (.plain (Text.of "x") plain .done) .done) .done).text =
      Text.of "<center><center>x</center></center>" := rfl
  refine ⟨_, whole, "<div style=\"text-align: center;\"><center>x</div></center>", ?_, ?_, ?_⟩
  · rw [whole]
    decide +kernel
  · exact reportsTag_iff.2 ⟨Text.of "<div style=\"text-align: center;\">",
      Text.of "<center>x</div></center>", by decide +kernel, Text.of "center",
      Text.of ">x</div></center>", by decide, by decide, by rintro _ ⟨⟩; decide⟩
  · decide +kernel

end SourceAudit
