/-
Module: SourceAudit.Proofs.Text.Needle
Layer: Proofs
Purpose: Needles in texts. A text includes a needle exactly if the needle is a stretch of it; a needle
  without line feeds is a stretch of a text exactly if it is one of a line, and one of two joined texts
  unless it spans the seam.
Main exports: Text.includes_iff, Text.includes_append, Text.pieces_append, Text.pieces_intercalate,
  Text.unlines_append_cons, Text.unlines_lines, Text.lines_unlines, Text.split_unique,
  Text.infix_append_cons, Text.prefix_append_cons, Text.any_lines_includes
-/
import SourceAudit.Text.Basic

namespace SourceAudit.Text

@[simp] theorem of_str (t : Text) : Text.of t.str = t := String.toList_ofList

theorem includes_iff (t needle : Text) : t.includes needle = true ↔ needle <:+: t := by
  induction t with
  | nil => cases needle <;> simp [includes]
  | cons c cs ih =>
    rw [includes, Bool.or_eq_true, ih, List.isPrefixOf_iff_prefix, List.infix_cons_iff]

theorem includes_congr {t t' needle : Text} (h : needle <:+: t ↔ needle <:+: t') :
    t.includes needle = t'.includes needle := by
  rw [Bool.eq_iff_iff, includes_iff, includes_iff]
  exact h

/-- What a text includes is included in every longer text. -/
theorem includes_append {t needle : Text} (h : t.includes needle = true) (back : Text) :
    (t ++ back).includes needle = true :=
  (includes_iff _ _).2 (List.infix_append_of_infix_left ((includes_iff _ _).1 h))

theorem pieces_cons_of_separates {separates : Char → Bool} {c : Char} (h : separates c = true)
    (t : Text) : pieces separates (c :: t) = [] :: pieces separates t := by
  rw [pieces, List.foldr_cons, if_pos h]
  rfl

theorem pieces_cons {separates : Char → Bool} {c : Char} (h : separates c = false) {t p : Text}
    {rest : List Text} (pieced : pieces separates t = p :: rest) :
    pieces separates (c :: t) = (c :: p) :: rest := by
  rw [pieces] at pieced
  rw [pieces, List.foldr_cons, pieced]
  simp [h]

/-- The first piece ends at the first separator. -/
theorem exists_pieces_eq (separates : Char → Bool) (t : Text) :
    ∃ rest, pieces separates t = t.takeWhile (fun c => !separates c) :: rest := by
  induction t with
  | nil => exact ⟨[], rfl⟩
  | cons c cs ih =>
    obtain ⟨rest, pieced⟩ := ih
    cases h : separates c with
    | true =>
      rw [pieces_cons_of_separates h]
      exact ⟨pieces separates cs, by simp [h]⟩
    | false =>
      rw [pieces_cons h pieced]
      exact ⟨rest, by simp [h]⟩

/-- The pieces of two texts that are joined by a separator. -/
theorem pieces_append {separates : Char → Bool} {x : Char} (h : separates x = true) (a b : Text) :
    pieces separates (a ++ x :: b) = pieces separates a ++ pieces separates b := by
  induction a with
  | nil => exact pieces_cons_of_separates h b
  | cons c cs ih =>
    obtain ⟨rest, pieced⟩ := exists_pieces_eq separates cs
    cases hc : separates c with
    | true => rw [List.cons_append, pieces_cons_of_separates hc, pieces_cons_of_separates hc, ih]; rfl
    | false =>
      rw [pieced] at ih
      rw [List.cons_append, pieces_cons hc ih, pieces_cons hc pieced]
      rfl

/-- No piece holds a separator. -/
theorem separates_eq_false_of_mem_pieces {separates : Char → Bool} {t p : Text} {c : Char}
    (mem : p ∈ pieces separates t) (hc : c ∈ p) : separates c = false := by
  induction t generalizing p with
  | nil =>
    obtain rfl := List.mem_singleton.1 mem
    cases hc
  | cons x xs ih =>
    obtain ⟨rest, pieced⟩ := exists_pieces_eq separates xs
    cases h : separates x with
    | true =>
      rw [pieces_cons_of_separates h] at mem
      rcases List.mem_cons.1 mem with rfl | mem
      · cases hc
      · exact ih mem hc
    | false =>
      rw [pieces_cons h pieced] at mem
      rw [pieced] at ih
      rcases List.mem_cons.1 mem with rfl | mem
      · rcases List.mem_cons.1 hc with rfl | hc
        · exact h
        · exact ih List.mem_cons_self hc
      · exact ih (List.mem_cons_of_mem _ mem) hc

theorem unlines_cons_cons (l l' : Text) (ls : List Text) :
    unlines (l :: l' :: ls) = l ++ '\n' :: unlines (l' :: ls) := by
  rw [unlines, List.intercalate_cons_cons, ← unlines, List.append_assoc]
  rfl

theorem unlines_singleton (l : Text) : unlines [l] = l := List.intercalate_singleton ..

theorem unlines_cons (line : Text) (back : List Text) :
    unlines (line :: back) = line ++ back.flatMap ('\n' :: ·) := by
  induction back generalizing line with
  | nil => rw [unlines_singleton, List.flatMap_nil, List.append_nil]
  | cons l back ih => rw [unlines_cons_cons, ih, List.flatMap_cons, List.cons_append]

/-- A line among joined lines ends the lines before it and starts those after it. -/
theorem unlines_append_cons (front : List Text) (line : Text) (back : List Text) :
    unlines (front ++ line :: back) =
      front.flatMap (· ++ ['\n']) ++ line ++ back.flatMap ('\n' :: ·) := by
  induction front with
  | nil => exact unlines_cons line back
  | cons l front ih =>
    obtain ⟨l', ls, split⟩ : ∃ l' ls, front ++ line :: back = l' :: ls :=
      List.exists_cons_of_ne_nil (by simp)
    rw [List.cons_append, split, unlines_cons_cons, ← split, ih]
    simp

/-- The lines of a text make up the text. -/
theorem unlines_lines (t : Text) : unlines t.lines = t := by
  induction t with
  | nil => rfl
  | cons c cs ih =>
    obtain ⟨rest, lined⟩ := exists_pieces_eq (· == '\n') cs
    have lined' : lines cs = _ := lined
    by_cases feed : c = '\n'
    · subst feed
      rw [lines, pieces_cons_of_separates rfl, lined]
      rw [lined'] at ih
      change unlines ([] :: _ :: rest) = _
      rw [unlines_cons_cons, ih]
      rfl
    · have head : pieces (· == '\n') (c :: cs) = _ := pieces_cons (by simpa using feed) lined
      rw [lines, head]
      rw [lined'] at ih
      cases rest with
      | nil =>
        rw [unlines_singleton] at ih ⊢
        rw [ih]
      | cons l ls =>
        rw [unlines_cons_cons] at ih ⊢
        rw [List.cons_append, ih]

/-- The pieces of pieces that are joined by a separator, if there are any and none holds one. -/
theorem pieces_intercalate {separates : Char → Bool} {x : Char} (h : separates x = true)
    {ps : List Text} (some : ps ≠ []) (whole : ∀ p ∈ ps, ∀ c ∈ p, separates c = false) :
    pieces separates (List.intercalate [x] ps) = ps := by
  have single {p : Text} (absent : ∀ c ∈ p, separates c = false) : pieces separates p = [p] := by
    induction p with
    | nil => rfl
    | cons c cs ih =>
      obtain ⟨here, later⟩ := List.forall_mem_cons.1 absent
      exact pieces_cons here (ih later)
  induction ps with
  | nil => exact absurd rfl some
  | cons p ps ih =>
    obtain ⟨first, others⟩ := List.forall_mem_cons.1 whole
    cases ps with
    | nil => rw [List.intercalate_singleton, single first]
    | cons p' ps =>
      rw [List.intercalate_cons_cons, List.append_assoc, List.singleton_append, pieces_append h,
        ih (List.cons_ne_nil p' ps) others, single first, List.singleton_append]

/-- The lines of lines that are joined, if there are any and none holds a line feed. -/
theorem lines_unlines {ls : List Text} (some : ls ≠ []) (whole : ∀ l ∈ ls, '\n' ∉ l) :
    (unlines ls).lines = ls := by
  refine pieces_intercalate rfl some fun l mem c hc => ?_
  rw [beq_eq_false_iff_ne]
  rintro rfl
  exact whole l mem hc

/-- A line has no line feed. -/
theorem not_mem_of_mem_lines {t line : Text} (mem : line ∈ t.lines) : '\n' ∉ line := by
  intro feed
  have kept := separates_eq_false_of_mem_pieces mem feed
  simp at kept

/-- The lines of a text after an edit of each of them that brings no line feed in. -/
theorem lines_unlines_map {edit : Text → Text} (whole : ∀ l : Text, '\n' ∉ l → '\n' ∉ edit l)
    (t : Text) : (unlines (t.lines.map edit)).lines = t.lines.map edit := by
  apply lines_unlines
  · obtain ⟨rest, lined⟩ := exists_pieces_eq (· == '\n') t
    rw [lines, lined]
    exact List.cons_ne_nil _ _
  · intro l mem
    obtain ⟨line, ofText, rfl⟩ := List.mem_map.1 mem
    exact whole line (not_mem_of_mem_lines ofText)

/-- A text splits in one way only at the first character of a set. -/
theorem split_unique (set : Char → Bool) {u u' r r' : Text} {x x' : Char}
    (same : u ++ x :: r = u' ++ x' :: r') (before : ∀ y ∈ u, set y = false)
    (before' : ∀ y ∈ u', set y = false) (here : set x = true) (here' : set x' = true) :
    u = u' ∧ x = x' ∧ r = r' := by
  induction u generalizing u' with
  | nil =>
    cases u' with
    | nil => simpa using same
    | cons y u' =>
      obtain ⟨rfl, -⟩ := List.cons.inj same
      rw [before' x List.mem_cons_self] at here
      cases here
  | cons z u ih =>
    obtain ⟨first, others⟩ := List.forall_mem_cons.1 before
    cases u' with
    | nil =>
      obtain ⟨rfl, -⟩ := List.cons.inj same
      rw [first] at here'
      cases here'
    | cons y u' =>
      obtain ⟨rfl, rest⟩ := List.cons.inj same
      obtain ⟨rfl, further⟩ := ih rest others (List.forall_mem_cons.1 before').2
      exact ⟨rfl, further⟩

/-- A needle without the seam's character lies on one side of the seam. -/
theorem infix_append_cons {needle a b : Text} {x : Char} (absent : x ∉ needle) :
    needle <:+: a ++ x :: b ↔ needle <:+: a ∨ needle <:+: b := by
  constructor
  · intro h
    rcases List.infix_append_iff_ne_nil.1 h with h | h | ⟨l, r, -, some, rfl, -, right⟩
    · exact .inl h
    · rcases List.infix_cons_iff.1 h with h | h
      · cases needle with
        | nil => exact .inr (List.nil_infix)
        | cons y ys =>
          obtain rfl := (List.cons_prefix_cons.1 h).1
          simp at absent
      · exact .inr h
    · cases r with
      | nil => exact absurd rfl some
      | cons y ys =>
        obtain rfl := (List.cons_prefix_cons.1 right).1
        simp at absent
  · rintro (h | h)
    · exact List.infix_append_of_infix_left h
    · exact List.infix_append_of_infix_right (List.infix_cons h)

/-- A list starts with a needle that lacks the seam's entry exactly if it does so before the seam. -/
theorem prefix_append_cons {α : Type} {needle a b : List α} {x : α} (absent : x ∉ needle) :
    needle <+: a ++ x :: b ↔ needle <+: a := by
  constructor
  · intro h
    rcases Nat.lt_or_ge a.length needle.length with longer | shorter
    · have seam : a ++ [x] <+: needle :=
        List.prefix_of_prefix_length_le (by simp) h (by rwa [List.length_append])
      exact absurd (seam.subset (by simp)) absent
    · exact List.prefix_of_prefix_length_le h (List.prefix_append a _) shorter
  · exact fun h => h.trans (List.prefix_append a _)

/-- A needle of one class starts a text exactly if it starts the run of that class. -/
theorem prefix_takeWhile_iff {keeps : Char → Bool} {needle t : Text}
    (kept : ∀ c ∈ needle, keeps c = true) : needle <+: t.takeWhile keeps ↔ needle <+: t := by
  constructor
  · exact fun h => h.trans (List.takeWhile_prefix keeps)
  · rintro ⟨rest, rfl⟩
    rw [List.takeWhile_append_of_pos kept]
    exact List.prefix_append _ _

/-- A needle without the last character of a front lies in the front or behind it. -/
theorem infix_append_of_getLast? {needle front : Text} {x : Char} (last : front.getLast? = some x)
    (absent : x ∉ needle) (t : Text) :
    needle <:+: front ++ t ↔ needle <:+: front ∨ needle <:+: t := by
  obtain ⟨rest, rfl⟩ := List.getLast?_eq_some_iff.1 last
  have inFront := @infix_append_cons needle rest [] x absent
  rw [List.append_assoc, List.singleton_append, infix_append_cons absent, inFront, or_assoc,
    List.infix_nil]
  constructor
  · rintro (h | h)
    · exact .inl h
    · exact .inr (.inr h)
  · rintro (h | rfl | h)
    · exact .inl h
    · exact .inl List.nil_infix
    · exact .inr h

/-- A needle without line feeds lies in one of the lines. -/
theorem exists_infix_unlines {needle : Text} (some : needle ≠ []) (absent : '\n' ∉ needle)
    (ls : List Text) : (∃ line ∈ ls, needle <:+: line) ↔ needle <:+: unlines ls := by
  induction ls with
  | nil =>
    have empty : unlines [] = [] := rfl
    simp [empty, some]
  | cons l ls ih =>
    cases ls with
    | nil => simp [unlines_singleton]
    | cons l' ls =>
      rw [unlines_cons_cons, infix_append_cons absent, ← ih]
      simp

/-- Some line includes the needle exactly if the text does. -/
theorem any_lines_includes {needle : Text} (some : needle ≠ []) (absent : '\n' ∉ needle) (t : Text) :
    (t.lines.any fun line => line.includes needle) = t.includes needle := by
  rw [Bool.eq_iff_iff, List.any_eq_true, includes_iff]
  have spread := exists_infix_unlines some absent t.lines
  rw [unlines_lines] at spread
  rw [← spread]
  simp only [includes_iff]

end SourceAudit.Text
