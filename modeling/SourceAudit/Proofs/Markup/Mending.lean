/-
Module: SourceAudit.Proofs.Markup.Mending
Layer: Proofs
Purpose: Void elements that lose their slash. A tag is replaced by something that starts with a bracket
  again, so no tag comes about in the text between the mended ones; what the validation is left to find
  are those mended tags that had a second slash.
Main exports: MendsTags, MendsTags.tagAhead_of_edits, doubledSlash, occurs_slashedVoid_stripVoidSlash
-/
import SourceAudit.Proofs.Markup.Tags
import SourceAudit.Proofs.Pattern.Edits

namespace SourceAudit

open Pattern Markup

/-! ### Between mended tags -/

/-- The pattern finds tags, and each is replaced by something that starts with a bracket. -/
structure MendsTags (p : Pattern) (new : Hit → Text) (names : List String) (close : Text) : Prop where
  among : names ⊆ voidNames
  passes_iff : ∀ c, (∃ d, p.Passes c d) ↔ TagAhead names close c.ahead
  bracket : ∀ {c hit}, p.matchAt c = some hit → ∃ r, new hit = '<' :: r
  /-- The end of a tag is no start of another one. -/
  ending : close ≠ [] ∧ '<' ∉ close

section

variable {p : Pattern} {new : Hit → Text} {names : List String} {close : Text}

theorem tagAhead_of_matchAt (mends : MendsTags p new names close) {c : Cursor} {hit : Hit}
    (found : p.matchAt c = some hit) : TagAhead names close c.ahead :=
  (mends.passes_iff c).1 ⟨_, (keeps_of_matchAt found).2.passes⟩

theorem not_tagAhead_of_matchAt (mends : MendsTags p new names close) {c : Cursor}
    (none : p.matchAt c = none) : ¬ TagAhead names close c.ahead := by
  intro tag
  obtain ⟨d, way⟩ := (mends.passes_iff c).2 tag
  exact (p.matchAt_eq_none_iff c).1 none d way

namespace MendsTags

variable (mends : MendsTags p new names close) {c : Cursor} {hits : List Hit} {after : Text}
include mends

theorem head?_eq (edits : p.Edits new c hits after) : c.ahead.head? = after.head? := by
  cases edits with
  | done => rfl
  | pass => rfl
  | swap found rest =>
    obtain ⟨n, r, ahead, -⟩ := tagAhead_of_matchAt mends found
    obtain ⟨r', bracket⟩ := mends.bracket found
    rw [ahead, bracket]
    rfl

/-- Characters other than brackets stay where they were. -/
theorem exists_of_append {u rest : Text} (plain : '<' ∉ u) (edits : p.Edits new c hits (u ++ rest)) :
    ∃ c' hits', c.ahead = u ++ c'.ahead ∧ p.Edits new c' hits' rest := by
  induction u generalizing c hits with
  | nil => exact ⟨c, hits, rfl, edits⟩
  | cons y u ih =>
    simp only [List.mem_cons, not_or] at plain
    generalize same : y :: u ++ rest = after at edits
    cases edits with
    | done => cases same
    | pass none edits =>
      obtain ⟨rfl, rfl⟩ := List.cons.inj same
      obtain ⟨c', hits', ahead, further⟩ := ih plain.2 edits
      exact ⟨c', hits', congrArg (y :: ·) ahead, further⟩
    | swap found edits =>
      obtain ⟨r, bracket⟩ := mends.bracket found
      rw [bracket] at same
      exact absurd (List.cons.inj same).1.symm plain.1

theorem closedBy_of_edits (edits : p.Edits new c hits after) (closed : ClosedBy close after) :
    ClosedBy close c.ahead := by
  induction edits with
  | done =>
    obtain ⟨body, r, empty, -⟩ := closed
    have none : close = [] := by simp_all
    exact absurd none mends.ending.1
  | @pass b a o x hits after none rest ih =>
    obtain ⟨body, r, same, absent⟩ := closed
    cases body with
    | nil =>
      have edits := Edits.pass none rest
      rw [same] at edits
      obtain ⟨c', hits', ahead, -⟩ := mends.exists_of_append mends.ending.2 edits
      exact ⟨[], c'.ahead, ahead, absent⟩
    | cons y body =>
      obtain ⟨rfl, rfl⟩ := List.cons.inj same
      simp only [List.mem_cons, not_or] at absent
      obtain ⟨body', r', ahead, absent'⟩ := ih ⟨body, r, rfl, absent.2⟩
      exact ⟨x :: body', r', congrArg (x :: ·) ahead, by simp [absent.1, absent']⟩
  | swap found =>
    obtain ⟨n, rest, ahead, like, -, body, r, rfl, absent⟩ := tagAhead_of_matchAt mends found
    have letters := (like.letters mends.among).2
    refine ⟨'<' :: (n ++ body), r, by rw [ahead]; simp, ?_⟩
    simp [absent, not_mem_of_isWordChar letters (show isWordChar '>' = false by decide)]

/-- No tag comes about at a character that stays. -/
theorem tagAhead_of_edits (edits : p.Edits new c hits after) {x : Char}
    (tag : TagAhead names close (x :: after)) : TagAhead names close (x :: c.ahead) := by
  obtain ⟨n, rest, same, like, apart, closed⟩ := tag
  obtain ⟨rfl, rfl⟩ := List.cons.inj same
  have letters := (like.letters mends.among).2
  have plain := not_mem_of_isWordChar letters (show isWordChar '<' = false by decide)
  obtain ⟨c', hits', ahead, further⟩ := mends.exists_of_append plain edits
  refine ⟨n, c'.ahead, by rw [ahead], like, ?_, mends.closedBy_of_edits further closed⟩
  rwa [mends.head?_eq further]

end MendsTags

end

/-! ### Slashes on void elements -/

/-- A void element without its slash. -/
def withoutSlash (tag : Hit) : Text := "<" ++ tag.groupChars 1 ++ tag.groupChars 2 ++ ">"

/-- A pattern that depends on what follows only occurs exactly if a part of the text starts so. -/
theorem occurs_iff_suffix {p : Pattern} {P : Text → Prop} (moves : p.isSkippable = false)
    (here : ∀ c, (∃ d, p.Passes c d) ↔ P c.ahead) (t : Text) :
    p.occurs t = true ↔ ∃ v, v <:+ t ∧ P v := by
  rw [occurs_iff moves]
  constructor
  · rintro ⟨c, d, place, way⟩
    exact ⟨c.ahead, ⟨_, place.1⟩, (here c).1 ⟨d, way⟩⟩
  · rintro ⟨v, ⟨u, rfl⟩, holds⟩
    obtain ⟨d, way⟩ := (here (.between u v)).2 holds
    exact ⟨_, d, Cursor.isIn_between u v, way⟩

/-- A void element with its slash, and what is left of it when the slash goes. -/
theorem exists_withoutSlash {c : Cursor} {hit : Hit} (found : Fix.spacedVoidSlash.matchAt c = some hit) :
    ∃ n bs, withoutSlash hit = '<' :: (n ++ (hit.groupChars 2 ++ ['>'])) ∧
      c.ahead = '<' :: (n ++ ((hit.groupChars 2 ++ (bs ++ ['/'])) ++ ['>'])) ++ hit.whole.stop.ahead ∧
      NameLike voidNames n ∧ '>' ∉ hit.groupChars 2 ∧ (∀ y ∈ bs, isBlank y = true) ∧
      ∀ y ∈ (hit.groupChars 2).head?, isWordChar y = false := by
  obtain ⟨begun, way⟩ := keeps_of_matchAt found
  obtain ⟨n, attributes, bs, like, absent, blank, apart, moves, name, rest⟩ := keeps_spacedVoidSlash way
  have shape : hit = ⟨⟨c, hit.whole.stop⟩, hit.groups⟩ := by rw [← begun]
  rw [← shape] at name rest
  refine ⟨n, bs, ?_, ?_, like, rest ▸ absent, blank, ?_⟩
  · rw [withoutSlash, name]
    simp
  · rw [moves.1, rest]
    simp
  · intro y first
    rw [rest] at first
    exact apart y (by rw [List.head?_append, first]; rfl)

theorem mendsTags_withoutSlash :
    MendsTags Fix.spacedVoidSlash withoutSlash voidNames ['/', '>'] where
  among := List.Subset.refl _
  passes_iff := exists_passes_spacedVoidSlash
  bracket found := by
    obtain ⟨n, bs, written, -⟩ := exists_withoutSlash found
    exact ⟨_, written⟩
  ending := by decide

/-- A void element that is closed by a slash behind another slash. -/
def doubledSlash : Pattern :=
  text "<" ++ voidName ++ wordEdge ++ many (noneOf ">") ++ text "/" ++ blanks ++ text "/>"

/-- The text starts with such an element. -/
def DoublySlashed (a : Text) : Prop :=
  ∃ bs, (∀ y ∈ bs, isBlank y = true) ∧ TagAhead voidNames ('/' :: (bs ++ ['/', '>'])) a

theorem DoublySlashed.tagAhead {a : Text} (h : DoublySlashed a) :
    TagAhead voidNames ['/', '>'] a := by
  obtain ⟨bs, blank, n, rest, begun, like, apart, body, r, rfl, absent⟩ := h
  refine ⟨n, _, begun, like, apart, body ++ '/' :: bs, r, by simp, ?_⟩
  simp [absent, not_mem_blanks blank]

theorem exists_passes_doubledSlash (c : Cursor) :
    (∃ d, doubledSlash.Passes c d) ↔ DoublySlashed c.ahead := by
  constructor
  · rintro ⟨d, l, ⟨k, front, gap⟩, closing⟩
    obtain ⟨bs, blank, gap⟩ := passes_blanks.1 gap
    have closing := passes_text.1 closing
    obtain ⟨n, body, like, absent, apart, moves⟩ :=
      (passes_closedTag (List.Subset.refl _) opens_voidName).1 front
    refine ⟨bs, blank, n, body ++ ('/' :: (bs ++ ['/', '>']) ++ d.ahead), ?_, like, ?_, body, d.ahead,
      rfl, absent⟩
    · rw [moves.1, gap.1, closing.1]
      simp
    · rw [gap.1, closing.1] at apart
      simpa using apart
  · rintro ⟨bs, blank, n, rest, ahead, like, apart, body, r, rfl, absent⟩
    have split : c.ahead = ('<' :: (n ++ (body ++ ['/']))) ++ (bs ++ (['/', '>'] ++ r)) := by
      rw [ahead]
      simp
    obtain ⟨k, moves, further⟩ := Cursor.exists_moves split
    obtain ⟨l, gap, further'⟩ := Cursor.exists_moves further
    obtain ⟨d, closing, -⟩ := Cursor.exists_moves further'
    refine ⟨d, l, ⟨k, ?_, passes_blanks.2 ⟨bs, blank, gap⟩⟩, passes_text.2 closing⟩
    refine (passes_closedTag (List.Subset.refl _) opens_voidName).2 ⟨n, body, like, absent, ?_, moves⟩
    rw [further]
    simpa using apart

/-- What the fix keeps of a void element does not end in a blank. -/
theorem isBlank_getLast?_groupChars {c : Cursor} {hit : Hit}
    (found : Fix.spacedVoidSlash.matchAt c = some hit) :
    ∀ y ∈ (hit.groupChars 2).getLast?, isBlank y = false := by
  obtain ⟨m, cs, d, kept, kept', opening, moves, closing, groups, first⟩ :=
    exists_of_matchAt_fewest (p := text "<" ++ group 1 voidName ++ wordEdge) (q := blanks ++ text "/>")
      found
  obtain ⟨_, _, _, ⟨_, _, _, ⟨-, rfl⟩, ⟨_, name, rfl⟩, rfl⟩, ⟨-, rfl⟩, rfl⟩ := opening
  obtain rfl := name.eq_nil rfl
  have kept : hit.groupChars 2 = cs := by
    rw [Hit.groupChars, Hit.group?, groups]
    exact moves.chars
  rw [kept]
  intro y last
  obtain ⟨front, rfl⟩ := List.getLast?_eq_some_iff.1 last
  obtain ⟨e, before, single⟩ := moves.split
  cases blank : isBlank y with
  | false => rfl
  | true =>
    -- a blank at the end could as well be one of those that are passed before the slash
    obtain ⟨k, gap, slash⟩ := closing.passes
    obtain ⟨bs, all, gap⟩ := passes_blanks.1 gap
    have earlier : blanks.Passes e k :=
      passes_blanks.2 ⟨y :: bs, List.forall_mem_cons.2 ⟨blank, all⟩, single.trans gap⟩
    exact absurd ⟨k, earlier, slash⟩ (first front y [] e rfl before _)

/-- A tag that starts within another one, or with it, is closed as that one is. -/
theorem suffix_of_tagAhead (ending : Text) {n rest w after : Text} (letters : ∀ y ∈ n, isWordChar y = true)
    (absent : '>' ∉ rest) (part : w <:+ '<' :: (n ++ (rest ++ ['>']))) (some : w ≠ [])
    (inner : '>' ∉ ending) (tag : TagAhead voidNames (ending ++ ['>']) (w ++ after)) :
    ending <:+ '<' :: n ++ rest := by
  obtain ⟨u, split⟩ := part
  obtain ⟨front, y, rfl⟩ := (List.eq_nil_or_concat w).resolve_left some
  have ends : (u ++ front) ++ [y] = ('<' :: n ++ rest) ++ ['>'] := by simpa using split
  obtain ⟨before, last⟩ := List.append_inj' ends rfl
  obtain rfl := List.singleton_inj.1 last
  have inside : '>' ∉ front := by
    have unclosed : '>' ∉ '<' :: n ++ rest := by
      simp [absent, not_mem_of_isWordChar letters (show isWordChar '>' = false by decide)]
    rw [← before] at unclosed
    exact fun mem => unclosed (List.mem_append_right _ mem)
  obtain ⟨n', rest', same, like, -, body, r, rfl, absent'⟩ := tag
  have letters' := (like.letters (List.Subset.refl _)).2
  have inside' : '>' ∉ '<' :: (n' ++ (body ++ ending)) := by
    simp [absent', inner, not_mem_of_isWordChar letters' (show isWordChar '>' = false by decide)]
  have whole : front ++ '>' :: after = '<' :: (n' ++ (body ++ ending)) ++ '>' :: r := by
    simpa using same
  obtain ⟨rfl, -⟩ := closing_unique whole inside inside'
  refine ⟨u ++ '<' :: (n' ++ body), ?_⟩
  rw [← before]
  simp

/-- A slash at the end of a tag is not one of its name. -/
theorem getLast?_eq_slash {n rest : Text} (letters : ∀ y ∈ n, isWordChar y = true)
    (slash : ('<' :: n ++ rest).getLast? = some '/') : rest.getLast? = some '/' := by
  rw [List.getLast?_append] at slash
  cases ending : rest.getLast? with
  | some z =>
    rw [ending] at slash
    exact slash
  | none =>
    rw [ending] at slash
    have mem : '/' ∈ '<' :: n := List.mem_of_getLast? slash
    exact absurd (by simpa using mem)
      (not_mem_of_isWordChar letters (show isWordChar '/' = false by decide))

/-- If two slashes close a tag, what stands before the blanks between them ends in a slash. -/
theorem getLast?_eq_slash_of_suffix {n rest bs bs' : Text} (letters : ∀ y ∈ n, isWordChar y = true)
    (solid : ∀ y ∈ rest.getLast?, isBlank y = false) (blank : ∀ y ∈ bs, isBlank y = true)
    (blank' : ∀ y ∈ bs', isBlank y = true)
    (part : '/' :: (bs' ++ ['/']) <:+ '<' :: n ++ (rest ++ (bs ++ ['/']))) :
    rest.getLast? = some '/' := by
  obtain ⟨u, split⟩ := part
  have ends : (u ++ '/' :: bs') ++ ['/'] = (('<' :: n ++ rest) ++ bs) ++ ['/'] := by simpa using split
  have inner := List.append_cancel_right ends
  have solid' : ∀ y ∈ ('<' :: n ++ rest).getLast?, isBlank y = false := by
    intro y last
    rw [List.getLast?_append] at last
    cases ending : rest.getLast? with
    | some z =>
      rw [ending] at last
      exact solid y (ending.trans last)
    | none =>
      rw [ending] at last
      rcases List.mem_cons.1 (List.mem_of_getLast? last) with rfl | mem
      · decide
      · exact isBlank_of_isWordChar (letters y mem)
  obtain ⟨front, z, last⟩ := (List.eq_nil_or_concat ('<' :: n ++ rest)).resolve_left (by simp)
  rw [last] at inner solid'
  have backward := congrArg List.reverse inner
  simp only [List.reverse_append, List.reverse_cons, List.concat_eq_append, List.append_assoc,
    List.singleton_append] at backward
  obtain ⟨-, rfl, -⟩ := gap_unique backward (by simpa using blank') (by simpa using blank) (by decide)
    (solid' z (by simp))
  exact getLast?_eq_slash letters (by rw [last]; simp)

/-- A part at the end of two joined texts lies in the second one, or it starts in the first. -/
theorem suffix_append_cases {v a b : Text} (part : v <:+ a ++ b) :
    v <:+ b ∨ ∃ w, w ≠ [] ∧ w <:+ a ∧ v = w ++ b := by
  obtain ⟨u, split⟩ := part
  rcases List.append_eq_append_iff.1 split with ⟨w, before, rfl⟩ | ⟨u', -, rfl⟩
  · by_cases empty : w = []
    · exact .inl (by rw [empty]; exact List.suffix_refl _)
    · exact .inr ⟨w, empty, ⟨u, before.symm⟩, rfl⟩
  · exact .inl (List.suffix_append _ _)

/-- In mended text a slash is left exactly if the text had one behind another one. -/
theorem tagAhead_withoutSlash_iff {c : Cursor} {hits : List Hit} {after : Text}
    (edits : Fix.spacedVoidSlash.Edits withoutSlash c hits after) :
    (∃ v, v <:+ after ∧ TagAhead voidNames ['/', '>'] v) ↔ ∃ v, v <:+ c.ahead ∧ DoublySlashed v := by
  induction edits with
  | done =>
    constructor
    · rintro ⟨v, part, n, rest, begun, -⟩
      rw [List.suffix_nil.1 part] at begun
      cases begun
    · rintro ⟨v, part, bs, -, n, rest, begun, -⟩
      rw [List.suffix_nil.1 part] at begun
      cases begun
  | @pass b a o x hits after none rest ih =>
    have untagged := not_tagAhead_of_matchAt mendsTags_withoutSlash none
    constructor
    · rintro ⟨v, part, tag⟩
      rcases List.suffix_cons_iff.1 part with rfl | part
      · exact absurd (mendsTags_withoutSlash.tagAhead_of_edits rest tag) untagged
      · obtain ⟨v', part', doubled⟩ := ih.1 ⟨v, part, tag⟩
        exact ⟨v', part'.trans (List.suffix_cons _ _), doubled⟩
    · rintro ⟨v, part, doubled⟩
      rcases List.suffix_cons_iff.1 part with rfl | part
      · exact absurd doubled.tagAhead untagged
      · obtain ⟨v', part', tag⟩ := ih.2 ⟨v, part, doubled⟩
        exact ⟨v', part'.trans (List.suffix_cons _ _), tag⟩
  | @swap c hit hits after found rest ih =>
    obtain ⟨n, bs, written, ahead, like, absent, blank, apart⟩ := exists_withoutSlash found
    have letters := (like.letters (List.Subset.refl _)).2
    have solid := isBlank_getLast?_groupChars found
    have begins (slash : (hit.groupChars 2).getLast? = some '/') (r : Text) :
        ∃ body, hit.groupChars 2 = body ++ ['/'] ∧ '>' ∉ body ∧
          ∀ y ∈ (hit.groupChars 2 ++ r).head?, isWordChar y = false := by
      obtain ⟨body, ends⟩ := List.getLast?_eq_some_iff.1 slash
      refine ⟨body, ends, fun inside => absent ?_, ?_⟩
      · rw [ends]
        exact List.mem_append_left _ inside
      · rwa [List.head?_append_of_ne_nil _ (by rw [ends]; simp)]
    rw [written, ahead]
    constructor
    · rintro ⟨v, part, tag⟩
      rcases suffix_append_cases part with part | ⟨w, some, within, rfl⟩
      · obtain ⟨v', part', doubled⟩ := ih.1 ⟨v, part, tag⟩
        exact ⟨v', part'.trans (List.suffix_append _ _), doubled⟩
      · have slash := suffix_of_tagAhead ['/'] letters absent within some (by decide) tag
        have last := getLast?_eq_slash letters (List.singleton_suffix_iff_getLast?_eq_some.1 slash)
        obtain ⟨body, ends, absent', apart'⟩ := begins last (bs ++ '/' :: '>' :: hit.whole.stop.ahead)
        refine ⟨_, List.suffix_refl _, bs, blank, n, _, by simp, like, apart', body,
          hit.whole.stop.ahead, by rw [ends]; simp, absent'⟩
    · rintro ⟨v, part, doubled⟩
      rcases suffix_append_cases part with part | ⟨w, some, within, rfl⟩
      · obtain ⟨v', part', tag⟩ := ih.2 ⟨v, part, doubled⟩
        exact ⟨v', part'.trans (List.suffix_append _ _), tag⟩
      · obtain ⟨bs', blank', tag⟩ := doubled
        have slashes := suffix_of_tagAhead ('/' :: (bs' ++ ['/'])) letters
          (by simp [absent, not_mem_blanks blank]) within some (by simp [not_mem_blanks blank'])
          (by simpa using tag)
        have last := getLast?_eq_slash_of_suffix letters solid blank blank' slashes
        obtain ⟨body, ends, absent', apart'⟩ := begins last ('>' :: after)
        exact ⟨_, List.suffix_refl _, n, _, by simp, like, apart', body, after, by rw [ends]; simp,
          absent'⟩

theorem occurs_slashedVoid_stripVoidSlash {fileName : String} (family : Family.ofName fileName ≠ .script)
    (t : Text) : slashedVoid.occurs (Fix.stripVoidSlash fileName t) = true ↔
      doubledSlash.occurs t = true := by
  rw [Fix.stripVoidSlash, if_neg family, occurs_iff_suffix rfl exists_passes_slashedVoid,
    occurs_iff_suffix rfl exists_passes_doubledSlash]
  exact tagAhead_withoutSlash_iff (edits_replaceAll rfl withoutSlash t)

end SourceAudit
