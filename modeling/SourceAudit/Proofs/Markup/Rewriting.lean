/-
Module: SourceAudit.Proofs.Markup.Rewriting
Layer: Proofs
Purpose: The fix of deprecated tags on rows of tags. It is a pass for each kind of tag, and what a pass
  puts for a tag is inert. For some kinds a pass goes from an opening tag to the first closing one behind
  it, whatever stands between them; for the others it rewrites opening and closing tags one by one.
Main exports: DeprecatedTag.pass, replaceDeprecatedTags_eq, DeprecatedTag.inert_front, SeeksTags,
  replaceDeprecatedTags_eq_self, Pairs, exists_pairs, Token.renamed, pass_render
-/
import SourceAudit.Fix.Apply
import SourceAudit.Proofs.Markup.Elements
import SourceAudit.Proofs.Pattern.First

namespace SourceAudit

open Pattern Markup SourceAudit.Fix Cursor

/-! ### The passes of the fix -/

/-- A span with the style of a font. -/
def styledSpan (style : List Text) : Text :=
  if style.isEmpty then "<span>" else "<span style=\"" ++ List.intercalate [' '] style ++ "\">"

namespace DeprecatedTag

/-- What the fix puts for an opening tag. -/
def front (tag : DeprecatedTag) (attrs : Text) : Text :=
  match tag with
  | center => "<div style=\"text-align: center;\">"
  | font => styledSpan (fontStyle attrs)
  | marquee | blink => []
  | big => "<" ++ Text.of "span style=\"font-size: larger;\"" ++ attrs ++ ">"
  | strike => "<" ++ Text.of "s" ++ attrs ++ ">"
  | tt => "<" ++ Text.of "code" ++ attrs ++ ">"

/-- What the fix puts for a closing tag. -/
def back : DeprecatedTag → Text
  | center => "</div>"
  | font => "</span>"
  | marquee | blink => []
  | big => "</" ++ Text.of "span" ++ ">"
  | strike => "</" ++ Text.of "s" ++ ">"
  | tt => "</" ++ Text.of "code" ++ ">"

/-- An element as the fix looks for it. -/
def wrapped (tag : DeprecatedTag) : Pattern := wrappedBy tag.opening tag.name

theorem isSkippable_opening (tag : DeprecatedTag) : tag.opening.isSkippable = false := by
  cases tag <;> rfl

theorem isSkippable_wrapped (tag : DeprecatedTag) : tag.wrapped.isSkippable = false := by
  cases tag <;> rfl

theorem isSkippable_closeTag (tag : DeprecatedTag) : (closeTag tag.name).isSkippable = false := by
  cases tag <;> rfl

/-- The pass for one kind of tag: from an opening tag to the first closing one, or one by one. -/
def pass (tag : DeprecatedTag) (t : Text) : Text :=
  if tag.isPaired then
    tag.wrapped.replaceAll (fun hit => tag.front (hit.groupChars 1) ++ hit.groupChars 2 ++ tag.back) t
  else
    (closeTag tag.name).replaceAll (fun _ => tag.back)
      (tag.opening.replaceAll (fun hit => tag.front (hit.groupChars 1)) t)

/-- The tags in the order of the passes. -/
def passOrder : List DeprecatedTag := [center, font, marquee, blink, strike, tt, big]

theorem mem_passOrder (tag : DeprecatedTag) : tag ∈ passOrder := by cases tag <;> decide

theorem nodup_passOrder : passOrder.Nodup := by decide

section

variable (tag : DeprecatedTag)

theorem unwrap_eq_pass (paired : tag.isPaired = true) (loose : tag.isLoose = true)
    (front : ∀ attrs, tag.front attrs = []) (back : tag.back = []) (t : Text) :
    unwrap tag.name t = tag.pass t := by
  rw [pass, if_pos paired, wrapped, opening, if_pos loose]
  simp [unwrap, front, back]

theorem rename_eq_pass (single : tag.isPaired = false) (strict : tag.isLoose = false) {new new' : String}
    (front : ∀ attrs, tag.front attrs = "<" ++ Text.of new ++ attrs ++ ">")
    (back : tag.back = "</" ++ Text.of new' ++ ">") (t : Text) :
    renameClosing tag.name new' (renameOpening tag.name new t) = tag.pass t := by
  simp [pass, opening, single, strict, front, back, renameClosing, renameOpening]

end

end DeprecatedTag

open DeprecatedTag in
/-- The fix is the passes one after the other. -/
theorem replaceDeprecatedTags_eq (t : Text) :
    replaceDeprecatedTags t = passOrder.foldl (fun t tag => tag.pass t) t := by
  have center (t : Text) : replaceCenter t = center.pass t := rfl
  have font (t : Text) : replaceFont t = font.pass t := rfl
  have marquee (t : Text) : unwrap "marquee" t = marquee.pass t :=
    marquee.unwrap_eq_pass rfl rfl (fun _ => rfl) rfl t
  have blink (t : Text) : unwrap "blink" t = blink.pass t :=
    blink.unwrap_eq_pass rfl rfl (fun _ => rfl) rfl t
  have strike (t : Text) : renameClosing "strike" "s" (renameOpening "strike" "s" t) = strike.pass t :=
    strike.rename_eq_pass rfl rfl (fun _ => rfl) rfl t
  have tt (t : Text) : renameClosing "tt" "code" (renameOpening "tt" "code" t) = tt.pass t :=
    tt.rename_eq_pass rfl rfl (fun _ => rfl) rfl t
  have big (t : Text) : renameClosing "big" "span" (renameOpening "big"
      "span style=\"font-size: larger;\"" t) = big.pass t :=
    big.rename_eq_pass rfl rfl (fun _ => rfl) rfl t
  simp only [replaceDeprecatedTags, center, font, marquee, blink, strike, tt, big, passOrder,
    List.foldl_cons, List.foldl_nil]

/-! ### What is put for a tag -/

/-- A quoted value stands in the attributes, and behind it a quotation mark. -/
theorem exists_of_find_quoted {name : String} {attrs : Text} {hit : Hit}
    (found : (quotedAttribute name).find attrs = some hit) : ∃ u x v,
      attrs = u ++ (hit.groupChars 1 ++ x :: v) ∧ isWordChar x = false := by
  obtain ⟨before, _, after, rfl, -, spelled⟩ := exists_spells_of_find found
  obtain ⟨_, _, _, _, rfl, kept, ⟨front, value, _, _, rfl, rfl, opening, group⟩, last⟩ := spelled
  obtain ⟨⟨x, quoted, rfl⟩, rfl⟩ := spells_one.1 last
  obtain ⟨_, inner, rfl⟩ := spells_group.1 group
  obtain rfl := opening.eq_nil rfl
  obtain rfl := inner.eq_nil rfl
  have same : hit.groupChars 1 = value := by
    rw [Hit.groupChars_eq, kept]
    rfl
  refine ⟨before ++ front, x, after, by simp [same], ?_⟩
  obtain rfl | rfl : x = '\'' ∨ x = '"' := by simpa [oneOf] using quoted
  · decide
  · decide

theorem inert_intercalate {parts : List Text} (each : ∀ u ∈ parts, Inert u) :
    Inert (List.intercalate [' '] parts) := by
  induction parts with
  | nil => exact .nil
  | cons u parts ih =>
    obtain ⟨here, others⟩ := List.forall_mem_cons.1 each
    cases parts with
    | nil => simpa using here
    | cons v parts =>
      rw [List.intercalate_cons_cons]
      exact (here.append ((Inert.nil.cons_of_ne (by decide)))).append (ih others)

theorem inert_styledSpan {style : List Text} (each : ∀ u ∈ style, Inert u) : Inert (styledSpan style) := by
  rw [styledSpan]
  split
  · exact Inert.opening (m := "span".toList) (r := []) (.of_not_mem (by decide)) (by decide) (by simp)
  · have values : Inert (" style=\"".toList ++ List.intercalate [' '] style ++ ['"'] ++ ['>']) := by
      rw [List.append_assoc]
      exact ((Inert.of_not_mem (by decide)).append (inert_intercalate each)).append
        (.of_not_mem (by decide))
    have whole := values.opening (m := "span".toList) (by decide) (by simp; decide)
    have first : Text.of "<span style=\"" = '<' :: ("span".toList ++ " style=\"".toList) := by decide
    have last : Text.of "\">" = ['"'] ++ ['>'] := by decide
    change Inert (Text.of "<span style=\"" ++ List.intercalate [' '] style ++ Text.of "\">")
    rw [first, last]
    simpa only [List.append_assoc, List.cons_append] using whole

theorem exists_of_mem_fontStyle {attrs u : Text} (mem : u ∈ fontStyle attrs) :
    ∃ name key hit, (quotedAttribute name).find attrs = some hit ∧ '<' ∉ key ∧
      u = key ++ (hit.groupChars 1 ++ [';']) := by
  rcases List.mem_append.1 mem with color | size
  · split at color
    · rename_i hit found
      exact ⟨_, Text.of "color: ", hit, found, by decide, by simpa [Text.of] using color⟩
    · cases color
  · split at size
    · rename_i hit found
      exact ⟨_, Text.of "font-size: ", hit, found, by decide, by simpa [Text.of] using size⟩
    · cases size

/-- The style of a font holds no tag, as its values come from the attributes. -/
theorem inert_fontStyle {attrs : Text} (inert : Inert (attrs ++ ['>'])) :
    ∀ u ∈ fontStyle attrs, Inert u := by
  intro u mem
  obtain ⟨name, key, hit, found, absent, rfl⟩ := exists_of_mem_fontStyle mem
  obtain ⟨front, x, back, parts, edge⟩ := exists_of_find_quoted found
  rw [parts] at inert
  have inert' : Inert (front ++ (hit.groupChars 1 ++ x :: (back ++ ['>']))) := by simpa using inert
  have valued : Inert (hit.groupChars 1 ++ [';']) := inert'.cut edge (by decide) (by decide) (by decide)
  exact (Inert.of_not_mem absent).append valued

namespace DeprecatedTag

theorem inert_front (tag : DeprecatedTag) {attrs : Text} (inert : Inert (attrs ++ ['>']))
    (apart : ∀ y ∈ attrs.head?, isWordChar y = false) : Inert (tag.front attrs) := by
  cases tag with
  | center =>
    have parts : Text.of "<div style=\"text-align: center;\">" =
        '<' :: ("div".toList ++ (" style=\"text-align: center;\"".toList ++ ['>'])) := by decide +kernel
    change Inert (Text.of "<div style=\"text-align: center;\">")
    rw [parts]
    exact Inert.opening (.of_not_mem (by decide)) (by decide) (by simp; decide)
  | font => exact inert_styledSpan (inert_fontStyle inert)
  | marquee | blink => exact .nil
  | big =>
    have styled : Inert (" style=\"font-size: larger;\"".toList ++ attrs ++ ['>']) := by
      rw [List.append_assoc]
      exact (Inert.of_not_mem (by decide)).append inert
    have whole := styled.opening (m := "span".toList) (by decide) (by simp; decide)
    have first : "<" ++ Text.of "span style=\"font-size: larger;\"" =
        '<' :: ("span".toList ++ " style=\"font-size: larger;\"".toList) := by decide +kernel
    change Inert ("<" ++ Text.of "span style=\"font-size: larger;\"" ++ attrs ++ ['>'])
    rw [first]
    simpa only [List.append_assoc, List.cons_append] using whole
  | strike => exact inert.opening (m := "s".toList) (by decide) apart
  | tt => exact inert.opening (m := "code".toList) (by decide) apart

theorem inert_back (tag : DeprecatedTag) : Inert tag.back := by
  cases tag with
  | center => exact .closing (m := "div".toList) (by decide)
  | font => exact .closing (m := "span".toList) (by decide)
  | marquee | blink => exact .nil
  | big => exact .closing (m := "span".toList) (by decide)
  | strike => exact .closing (m := "s".toList) (by decide)
  | tt => exact .closing (m := "code".toList) (by decide)

end DeprecatedTag

/-! ### Patterns of tags -/

/-- The pattern matches only where a tag starts. -/
def SeeksTags (p : Pattern) : Prop :=
  ∀ before rest, (∀ tag, ¬ OpensTag tag rest ∧ ¬ ClosesTag tag rest) →
    p.matchAt (between before rest) = none

section

variable {tag : DeprecatedTag} {before rest : Text} {p : Pattern}

theorem matchAt_opening_eq_none (closed : ¬ OpensTag tag rest) :
    tag.opening.matchAt (between before rest) = none := by
  rw [matchAt_between_eq_none_iff]
  rintro cs after kept rfl spelled
  obtain ⟨n, attrs, rfl, spelled', -, apart, -⟩ := spelled.opening_parts
  exact closed ⟨n, attrs ++ '>' :: after, by simp, spelled', edge_before_bracket apart⟩

theorem matchAt_wrapped_eq_none (closed : ¬ OpensTag tag rest) :
    tag.wrapped.matchAt (between before rest) = none := by
  rw [matchAt_between_eq_none_iff]
  rintro _ after kept rfl ⟨_, _, _, _, rfl, rfl, ⟨_, inner, _, _, rfl, rfl, opening, -⟩, -⟩
  obtain ⟨n, attrs, rfl, spelled, -, apart, -⟩ := opening.opening_parts
  exact closed ⟨n, attrs ++ '>' :: _, by simp; rfl, spelled, edge_before_bracket apart⟩

theorem matchAt_closeTag_eq_none (other : ¬ ClosesTag tag rest) :
    (closeTag tag.name).matchAt (between before rest) = none := by
  rw [matchAt_between_eq_none_iff]
  rintro cs after kept rfl spelled
  obtain ⟨n, gap, rfl, spelled', blank, -⟩ := spells_closeTag.1 spelled
  exact other ⟨n, gap, after, by simp, spelled', blank⟩

theorem seeksTags_opening (tag : DeprecatedTag) : SeeksTags tag.opening :=
  fun _ _ none => matchAt_opening_eq_none (none tag).1

theorem seeksTags_wrapped (tag : DeprecatedTag) : SeeksTags tag.wrapped :=
  fun _ _ none => matchAt_wrapped_eq_none (none tag).1

theorem seeksTags_closeTag (tag : DeprecatedTag) : SeeksTags (closeTag tag.name) :=
  fun _ _ none => matchAt_closeTag_eq_none (none tag).2

/-- Where no match starts with a part, none starts in it. -/
theorem SeeksTags.exists_of_edits (seeks : SeeksTags p) {t : Token} {new : Hit → Text} {hits : List Hit}
    {after : Text} (first : t.text ≠ [] → p.matchAt (between before (t.text ++ rest)) = none)
    (edits : p.Edits new (between before (t.text ++ rest)) hits after) :
    ∃ after', after = t.text ++ after' ∧ p.Edits new (between (before ++ t.text) rest) hits after' := by
  refine edits.exists_of_silent fun a b split some => ?_
  cases a with
  | nil =>
    obtain rfl : t.text = b := split
    simpa using first some
  | cons x a => exact seeks _ _ fun tag => Token.inert_tail split a b rest tag rfl some

/-- Where no tag starts, nothing is replaced. -/
theorem SeeksTags.replaceAll_eq (seeks : SeeksTags p) (moves : p.isSkippable = false) (new : Hit → Text)
    {u : Text} (inert : Inert u) : p.replaceAll new u = u := by
  have edits := edits_between_replaceAll moves new u
  rw [← List.append_nil u] at edits
  obtain ⟨after, whole, later⟩ := edits.exists_of_silent fun a b split some =>
    seeks _ _ fun tag => inert a b [] tag split some
  rw [(later.eq_nil moves).2, List.append_nil] at whole
  exact whole

theorem DeprecatedTag.pass_eq_self (tag : DeprecatedTag) {u : Text} (inert : Inert u) : tag.pass u = u := by
  rw [pass]
  split
  · exact (seeksTags_wrapped tag).replaceAll_eq tag.isSkippable_wrapped _ inert
  · rw [(seeksTags_opening tag).replaceAll_eq tag.isSkippable_opening _ inert,
      (seeksTags_closeTag tag).replaceAll_eq tag.isSkippable_closeTag _ inert]

/-- Where no tag starts, the fix changes nothing. -/
theorem replaceDeprecatedTags_eq_self {u : Text} (inert : Inert u) : replaceDeprecatedTags u = u := by
  rw [replaceDeprecatedTags_eq]
  generalize DeprecatedTag.passOrder = tags
  induction tags with
  | nil => rfl
  | cons tag tags ih => rw [List.foldl_cons, tag.pass_eq_self inert, ih]

end

/-! ### Pairs -/

/-- What stands for an opening tag once it is rewritten. -/
def OpeningTag.modern (o : OpeningTag) : Token :=
  .plain (o.tag.front o.attrs) (o.tag.inert_front o.inert o.apart)

/-- What stands for a closing tag once it is rewritten. -/
def DeprecatedTag.ending (tag : DeprecatedTag) : Token := .plain tag.back tag.inert_back

/-- The fix takes the opening tag. -/
def OpeningTag.IsRead (o : OpeningTag) : Prop := o.tag.Reads o.attrs

/-- A row after the rewriting of pairs: each opening tag goes with the first closing one behind it, and
    what stands between them stays. -/
inductive Pairs (tag : DeprecatedTag) : List Token → List Token → Prop where
  | done : Pairs tag [] []
  /-- Anything else stays, as does an opening tag that no closing one follows. -/
  | keep {ts ts' : List Token} (t : Token)
      (idle : ∀ o, t = .opening o → o.tag = tag → o.IsRead → false ∉ marks tag ts)
      (rest : Pairs tag ts ts') : Pairs tag (t :: ts) (t :: ts')
  | pair {ts ts' : List Token} (o : OpeningTag) (kind : o.tag = tag) (read : o.IsRead)
      (inner : List Token) (none : false ∉ marks tag inner) (c : ClosingTag) (kind' : c.tag = tag)
      (rest : Pairs tag ts ts') :
      Pairs tag (.opening o :: (inner ++ .closing c :: ts)) (o.modern :: (inner ++ tag.ending :: ts'))

section

variable {tag : DeprecatedTag} {before cs after rest : Text} {kept : List (Nat × Text)} {hit : Hit}
  {ts : List Token}

theorem ClosingTag.spells (c : ClosingTag) (kind : c.tag = tag) :
    (closeTag tag.name).Spells before c.text after [] :=
  spells_closeTag.2 ⟨c.name, c.gap, rfl, kind ▸ c.spelled, c.blank, rfl⟩

theorem OpeningTag.exists_spells (o : OpeningTag) (kind : o.tag = tag) (read : o.IsRead) :
    ∃ kept, tag.opening.Spells before o.text after kept := by
  subst kind
  exact exists_spells_opening o.spelled o.closed o.apart read

/-- An opening tag and a closing one behind it are an element. -/
theorem exists_spells_wrapped (o : OpeningTag) (kind : o.tag = tag) (read : o.IsRead) (cs : Text)
    (c : ClosingTag) (kind' : c.tag = tag) (after : Text) :
    ∃ kept, tag.wrapped.Spells before (o.text ++ cs ++ c.text) after kept := by
  obtain ⟨kept, opening⟩ := o.exists_spells kind read
  have inner : leap.Spells (before ++ o.text) cs (c.text ++ after) [] := by
    simp [leap, Spells, anyChar]
  exact ⟨_, o.text ++ cs, c.text, _, [], rfl, rfl,
    ⟨o.text, cs, kept, _, rfl, rfl, opening, spells_group.2 ⟨[], inner, rfl⟩⟩, c.spells kind'⟩

/-- What is found at an opening tag: its kind, and the first closing tag of the kind behind it. -/
theorem exists_of_matchAt_wrapped (o : OpeningTag)
    (found : tag.wrapped.matchAt (between before (o.text ++ render ts)) = some hit) :
    o.tag = tag ∧ o.IsRead ∧ ∃ inner c ts', ts = inner ++ .closing c :: ts' ∧ false ∉ marks tag inner ∧
      c.tag = tag ∧ hit.groupChars 1 = o.attrs ∧ hit.groupChars 2 = render inner ∧
      hit.whole.stop = between (before ++ (o.text ++ render inner ++ c.text)) (render ts') := by
  obtain ⟨_, cs, ys, after, first, _, whole, stop, opening, closing, kept, earlier⟩ :=
    exists_spells_of_matchAt_fewest found
  obtain ⟨n, attrs, rfl, spelled, closed, apart, reads, value⟩ := opening.opening_parts
  obtain ⟨rfl, rfl, rfl, behind⟩ := o.unique spelled closed apart whole
  obtain ⟨n, gap, rfl, spelled', blank, rfl⟩ := spells_closeTag.1 closing
  have closes : ClosesTag o.tag ('<' :: '/' :: (n ++ (gap ++ ['>'])) ++ after) :=
    ⟨n, gap, after, by simp, spelled', blank⟩
  obtain ⟨inner, c, ts', rfl, kind, rfl, same⟩ := exists_of_closesTag behind closes
  obtain ⟨-, rfl, rfl, rfl⟩ := c.unique spelled' blank same.symm
  refine ⟨rfl, reads, inner, c, ts', rfl, ?_, kind, ?_, ?_, ?_⟩
  · -- at an earlier closing tag of the kind, the content would have ended
    rw [false_mem_marks_iff]
    rintro ⟨c', mem, kind'⟩
    obtain ⟨front, back, rfl⟩ := List.append_of_mem mem
    exact earlier (render front) (c'.text ++ render back) c'.text _ _ (by simp [Token.text])
      (by simp [ClosingTag.text]) (List.append_assoc _ _ _) (c'.spells kind')
  · rw [Hit.groupChars_eq, kept]
    obtain rfl | ⟨rfl, none⟩ := value
    · rfl
    · exact none.symm
  · rw [Hit.groupChars_eq, kept]
    obtain rfl | ⟨rfl, -⟩ := value
    · rfl
    · rfl
  · rw [stop]
    simp [OpeningTag.text, ClosingTag.text]

/-- The pass for a paired tag, read from any place of a row. -/
theorem exists_pairs_of_edits {new : Hit → Text} (rewrites : ∀ hit, new hit =
      tag.front (hit.groupChars 1) ++ hit.groupChars 2 ++ tag.back) {hits : List Hit} {after : Text}
    (edits : tag.wrapped.Edits new (between before (render ts)) hits after) :
    ∃ ts', Pairs tag ts ts' ∧ after = render ts' := by
  -- a pair takes several parts of the row at once, so the induction is on its length
  induction size : ts.length using Nat.strong_induction_on generalizing ts before hits after with
  | _ n ih =>
  subst size
  cases ts with
  | nil => exact ⟨[], .done, (edits.eq_nil tag.isSkippable_wrapped).2⟩
  | cons t ts =>
    have stays (first : t.text ≠ [] → tag.wrapped.matchAt (between before (t.text ++ render ts)) = none)
        (idle : ∀ o, t = .opening o → o.tag = tag → o.IsRead → false ∉ marks tag ts) :
        ∃ ts', Pairs tag (t :: ts) ts' ∧ after = render ts' := by
      obtain ⟨after', rfl, later⟩ := (seeksTags_wrapped tag).exists_of_edits first edits
      obtain ⟨ts', pairs, rfl⟩ := ih ts.length (Nat.lt_succ_self _) later rfl
      exact ⟨t :: ts', .keep t idle pairs, rfl⟩
    cases t with
    | plain u inert =>
      exact stays (fun some => matchAt_wrapped_eq_none (inert [] u _ tag rfl some).1) nofun
    | closing c => exact stays (fun _ => matchAt_wrapped_eq_none c.not_opensTag) nofun
    | opening o =>
      cases found : tag.wrapped.matchAt (between before (o.text ++ render ts)) with
      | none =>
        refine stays (fun _ => found) ?_
        rintro o same kind read mem
        obtain rfl := Token.opening.inj same
        obtain ⟨c, mem, kind'⟩ := false_mem_marks_iff.1 mem
        obtain ⟨inner, ts, rfl⟩ := List.append_of_mem mem
        obtain ⟨kept, spelled⟩ := exists_spells_wrapped o kind read (render inner) c kind' (render ts)
        exact matchAt_between_eq_none_iff.1 found _ _ kept (by simp [Token.text]) spelled
      | some hit =>
        obtain ⟨hits', after', -, rfl, later⟩ := edits.exists_of_found tag.isSkippable_wrapped found
        obtain ⟨kind, read, inner, c, ts, rfl, none, kind', attrs, content, stop⟩ :=
          exists_of_matchAt_wrapped o found
        rw [stop] at later
        obtain ⟨ts', pairs, rfl⟩ := ih ts.length (by simp; omega) later rfl
        refine ⟨_, .pair o kind read inner none c kind' pairs, ?_⟩
        subst kind
        simp [rewrites, attrs, content, OpeningTag.modern, DeprecatedTag.ending, Token.text]

/-- The pass for a paired tag rewrites the pairs of a row. -/
theorem exists_pairs (paired : tag.isPaired = true) (ts : List Token) :
    ∃ ts', Pairs tag ts ts' ∧ tag.pass (render ts) = render ts' := by
  rw [DeprecatedTag.pass, if_pos paired]
  exact exists_pairs_of_edits (fun _ => rfl) (edits_between_replaceAll tag.isSkippable_wrapped _ _)

end

/-! ### One by one -/

instance (tag : DeprecatedTag) (attrs : Text) : Decidable (tag.Reads attrs) :=
  @instDecidableOr _ _ inferInstance (Option.decidableForallMem attrs.head?)

instance (o : OpeningTag) : Decidable o.IsRead :=
  inferInstanceAs (Decidable (o.tag.Reads o.attrs))

/-- The part after the rewriting of opening tags. -/
def Token.opened (tag : DeprecatedTag) : Token → Token
  | .opening o => if o.tag = tag ∧ o.IsRead then o.modern else .opening o
  | t => t

/-- The part after the rewriting of closing tags. -/
def Token.ended (tag : DeprecatedTag) : Token → Token
  | .closing c => if c.tag = tag then tag.ending else .closing c
  | t => t

/-- The part after both. -/
def Token.renamed (tag : DeprecatedTag) (t : Token) : Token := (t.opened tag).ended tag

/-- A pattern that only matches whole parts is replaced part by part. -/
theorem replaceAll_render {p : Pattern} (moves : p.isSkippable = false) (seeks : SeeksTags p)
    {new : Hit → Text} {f : Token → Token} (each : ∀ t before rest,
      (t.text ≠ [] → p.matchAt (between before (t.text ++ rest)) = none) ∧ f t = t ∨
      ∃ hit, p.matchAt (between before (t.text ++ rest)) = some hit ∧
        hit.whole.stop = between (before ++ t.text) rest ∧ new hit = (f t).text)
    (ts : List Token) : p.replaceAll new (render ts) = render (ts.map f) := by
  have read {before : Text} {hits : List Hit} {after : Text}
      (edits : p.Edits new (between before (render ts)) hits after) : after = render (ts.map f) := by
    induction ts generalizing before hits after with
    | nil => exact (edits.eq_nil moves).2
    | cons t ts ih =>
      obtain ⟨first, same⟩ | ⟨hit, found, stop, rewritten⟩ := each t before (render ts)
      · obtain ⟨after', rfl, later⟩ := seeks.exists_of_edits first edits
        rw [ih later, List.map_cons, render_cons, same]
      · obtain ⟨hits', after', -, rfl, later⟩ := edits.exists_of_found moves found
        rw [stop] at later
        rw [ih later, List.map_cons, render_cons, rewritten]
  exact read (edits_between_replaceAll moves new (render ts))

/-- The opening tags of a kind that the fix takes are rewritten. -/
theorem replaceAll_opening (tag : DeprecatedTag) (ts : List Token) :
    tag.opening.replaceAll (fun hit => tag.front (hit.groupChars 1)) (render ts) =
      render (ts.map (Token.opened tag)) := by
  refine replaceAll_render tag.isSkippable_opening (seeksTags_opening tag) (fun t before rest => ?_) ts
  cases t with
  | plain u inert => exact .inl ⟨fun some => matchAt_opening_eq_none (inert [] u _ tag rfl some).1, rfl⟩
  | closing c => exact .inl ⟨fun _ => matchAt_opening_eq_none c.not_opensTag, rfl⟩
  | opening o =>
    cases found : tag.opening.matchAt (between before (o.text ++ rest)) with
    | none =>
      have idle : ¬ (o.tag = tag ∧ o.IsRead) := by
        rintro ⟨kind, read⟩
        obtain ⟨kept, spelled⟩ := o.exists_spells kind read
        exact matchAt_between_eq_none_iff.1 found _ _ kept rfl spelled
      exact .inl ⟨fun _ => found, if_neg idle⟩
    | some hit =>
      obtain ⟨cs, after, whole, place, spelled⟩ := exists_spells_of_matchAt found
      obtain ⟨n, attrs, rfl, spelled', closed, apart, reads, kept⟩ := spelled.opening_parts
      obtain ⟨rfl, rfl, rfl, rfl⟩ := o.unique spelled' closed apart whole
      have value : hit.groupChars 1 = o.attrs := by
        rw [Hit.groupChars_eq]
        obtain kept | ⟨kept, none⟩ := kept
        · rw [kept]
          rfl
        · rw [kept, none]
          rfl
      refine .inr ⟨hit, found, by rw [place]; rfl, ?_⟩
      rw [value, Token.opened, if_pos ⟨rfl, reads⟩]
      rfl

/-- The closing tags of a kind are rewritten. -/
theorem replaceAll_closeTag (tag : DeprecatedTag) (ts : List Token) :
    (closeTag tag.name).replaceAll (fun _ => tag.back) (render ts) =
      render (ts.map (Token.ended tag)) := by
  refine replaceAll_render tag.isSkippable_closeTag (seeksTags_closeTag tag) (fun t before rest => ?_) ts
  cases t with
  | plain u inert => exact .inl ⟨fun some => matchAt_closeTag_eq_none (inert [] u _ tag rfl some).2, rfl⟩
  | opening o => exact .inl ⟨fun _ => matchAt_closeTag_eq_none o.not_closesTag, rfl⟩
  | closing c =>
    cases found : (closeTag tag.name).matchAt (between before (c.text ++ rest)) with
    | none =>
      have idle : c.tag ≠ tag := fun kind =>
        matchAt_between_eq_none_iff.1 found _ _ _ rfl (c.spells kind)
      exact .inl ⟨fun _ => found, if_neg idle⟩
    | some hit =>
      obtain ⟨cs, after, whole, place, spelled⟩ := exists_spells_of_matchAt found
      obtain ⟨n, gap, rfl, spelled', blank, -⟩ := spells_closeTag.1 spelled
      obtain ⟨kind, rfl, rfl, rfl⟩ := c.unique spelled' blank whole
      refine .inr ⟨hit, found, by rw [place]; rfl, ?_⟩
      rw [Token.ended, if_pos kind]
      rfl

/-- The pass for any other tag rewrites each tag of the kind. -/
theorem pass_render (tag : DeprecatedTag) (single : tag.isPaired = false) (ts : List Token) :
    tag.pass (render ts) = render (ts.map (Token.renamed tag)) := by
  rw [DeprecatedTag.pass, if_neg (by simp [single]), replaceAll_opening, replaceAll_closeTag, List.map_map]
  rfl

end SourceAudit
