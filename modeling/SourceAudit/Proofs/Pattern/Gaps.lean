/-
Module: SourceAudit.Proofs.Pattern.Gaps
Layer: Proofs
Purpose: A text told by its matches and the gaps between them. A reading passes a gap in which no match
  starts, then a match, and so on to the end; the search gives the only one there is. Replacing all
  matches weaves something else into the same gaps, and how another pattern reads the new text follows
  from how it reads each gap and each of the new pieces.
Main exports: weave, Pattern.gaps, Pattern.SilentIn, Pattern.Reading, Pattern.reading_iff,
  splice_eq_weave, Pattern.weave_gaps, Pattern.replaceAll_eq_weave, Pattern.Rereads,
  Pattern.splice_filter_findAll, Pattern.find_eq_some_iff, Pattern.Rereads.replaceAll
-/
import SourceAudit.Proofs.Pattern.First
import SourceAudit.Proofs.Pattern.Front

namespace SourceAudit

/-- The gaps with a piece behind each of them but the last. -/
def weave : (gaps pieces : List Text) → Text
  | [], _ => []
  | gap :: _, [] => gap
  | gap :: gaps, piece :: pieces => gap ++ (piece ++ weave gaps pieces)

/-- What stands before, between and behind these matches in the text from `offset` on, whose characters
    are `rest`. -/
def gapsFrom (rest : Text) (offset : Nat) : List Hit → List Text
  | [] => [rest]
  | hit :: hits =>
    rest.take (hit.offset - offset) :: gapsFrom hit.whole.stop.ahead hit.whole.stop.offset hits

/-- Replacing weaves the new texts into the gaps. -/
theorem splice_eq_weave (rest : Text) (offset : Nat) (edits : List (Hit × Text)) :
    splice rest offset edits =
      weave (gapsFrom rest offset (edits.map Prod.fst)) (edits.map Prod.snd) := by
  induction edits generalizing rest offset with
  | nil => rfl
  | cons edit edits ih =>
    rw [splice, ih]
    rfl

/-- Edits of matches behind a front leave the front. -/
theorem splice_append {front rest : Text} {offset : Nat} {edits : List (Hit × Text)}
    (beyond : ∀ edit ∈ edits, offset + front.length ≤ edit.1.offset) :
    splice (front ++ rest) offset edits = front ++ splice rest (offset + front.length) edits := by
  cases edits with
  | nil => rfl
  | cons edit edits =>
    have count : edit.1.offset - offset =
        front.length + (edit.1.offset - (offset + front.length)) := by
      have := beyond edit List.mem_cons_self
      omega
    rw [splice, splice, count, List.take_length_add_append, List.append_assoc]

namespace Pattern

open Cursor

/-- What stands before, between and behind the matches in a text. -/
def gaps (p : Pattern) (t : Text) : List Text := gapsFrom t 0 (p.findAll t)

/-- No match starts in `u` where it stands between these texts. -/
def SilentIn (p : Pattern) (before u after : Text) : Prop :=
  ∀ a b, u = a ++ b → b ≠ [] → p.matchAt (between (before ++ a) (b ++ after)) = none

/-- The text behind `before` read from its start on: gaps, and a match behind each of them but the
    last. -/
inductive Reading (p : Pattern) : (before rest : Text) → (gaps : List Text) → List Hit → Prop where
  /-- No further match starts. -/
  | last {before u : Text} (silent : p.SilentIn before u []) : Reading p before u [u] []
  /-- A gap and the match that ends it. -/
  | next {before u rest : Text} {hit : Hit} {gaps : List Text} {hits : List Hit}
      (silent : p.SilentIn before u (hit.chars ++ rest))
      (found : p.matchAt (between (before ++ u) (hit.chars ++ rest)) = some hit)
      (later : Reading p (before ++ u ++ hit.chars) rest gaps hits) :
      Reading p before (u ++ (hit.chars ++ rest)) (u :: gaps) (hit :: hits)

variable {p q : Pattern} {new : Hit → Text} {before u v rest after t : Text} {gaps : List Text}
  {hit : Hit} {hits : List Hit}

/-! ### Silent stretches -/

theorem silentIn_nil : p.SilentIn before [] after := by
  intro a b split some
  exact absurd (List.append_eq_nil_iff.1 split.symm).2 some

theorem SilentIn.cons {x : Char} (none : p.matchAt (between before (x :: (u ++ after))) = none)
    (silent : p.SilentIn (before ++ [x]) u after) : p.SilentIn before (x :: u) after := by
  intro a b split some
  cases a with
  | nil =>
    obtain rfl : x :: u = b := split
    simpa using none
  | cons y a =>
    obtain ⟨rfl, rfl⟩ := List.cons.inj split
    simpa using silent a b rfl some

theorem SilentIn.append (first : p.SilentIn before u (v ++ after))
    (second : p.SilentIn (before ++ u) v after) : p.SilentIn before (u ++ v) after := by
  induction u generalizing before with
  | nil => simpa using second
  | cons x u ih =>
    refine .cons (by simpa using first [] (x :: u) rfl (by simp)) (ih ?_ (by simpa using second))
    intro a b split some
    simpa using first (x :: a) b (by rw [split]; rfl) some

/-- A pattern that depends on what follows only is silent where nothing of that sort starts. -/
theorem silentIn_iff {P : Text → Prop} (here : ∀ before v, p.matchAt (between before v) = none ↔ ¬ P v) :
    p.SilentIn before u after ↔ ∀ a b, u = a ++ b → b ≠ [] → ¬ P (b ++ after) := by
  simp only [SilentIn, here]

/-- A pattern that is stuck at every place of a stretch is silent there, whatever stands around it. -/
theorem silentIn_of_isStuckAt (stuck : u.tails.all (fun s => s.isEmpty || p.isStuckAt s) = true) :
    p.SilentIn before u after := by
  intro a b split some
  have here := List.all_eq_true.1 stuck b ((List.mem_tails _ _).2 ⟨a, split.symm⟩)
  have nonempty : b.isEmpty = false := by simpa using some
  rw [nonempty, Bool.false_or] at here
  rw [matchAt_eq_none_iff]
  exact fun d => not_passes_of_isStuckAt here rfl

/-! ### The reading that the search gives -/

/-- Behind a match the text goes on where the match stops. -/
theorem stop_of_matchAt (found : p.matchAt (between before (hit.chars ++ rest)) = some hit) :
    hit.whole = ⟨between before (hit.chars ++ rest), between (before ++ hit.chars) rest⟩ := by
  obtain ⟨start, -⟩ := keeps_of_matchAt found
  obtain ⟨after, split, stop, -⟩ := exists_chars_of_matchAt found
  rw [List.append_cancel_left split, ← stop, ← List.append_cancel_left split, ← start]

/-- Where a match starts and stops, by what it covers. -/
theorem places_of_matchAt (found : p.matchAt (between before (hit.chars ++ rest)) = some hit) :
    hit.offset = before.length ∧ hit.whole.stop.ahead = rest ∧
      hit.whole.stop.offset = (before ++ hit.chars).length := by
  have whole := stop_of_matchAt found
  rw [Hit.offset]
  generalize hit.whole = s at whole
  obtain rfl := whole
  exact ⟨rfl, rfl, rfl⟩

theorem Reading.pass {x : Char} (none : p.matchAt (between before (x :: rest)) = none)
    (reading : p.Reading (before ++ [x]) rest gaps hits) :
    ∃ gaps', p.Reading before (x :: rest) gaps' hits := by
  cases reading with
  | last silent => exact ⟨_, .last (.cons (by simpa using none) silent)⟩
  | next silent found later =>
    exact ⟨_, .next (.cons none silent) (by simpa using found) (by simpa using later)⟩

theorem Edits.exists_reading (edits : p.Edits new (between before rest) hits after) :
    ∃ gaps, p.Reading before rest gaps hits := by
  generalize place : between before rest = c at edits
  induction edits generalizing before rest with
  | done =>
    obtain rfl : rest = [] := congrArg Cursor.ahead place
    exact ⟨_, .last silentIn_nil⟩
  | @pass b a o x hits after none later ih =>
    obtain rfl : rest = x :: a := congrArg Cursor.ahead place
    rw [← place] at none
    obtain ⟨gaps, reading⟩ := @ih (before ++ [x]) a (by cases place; simp [between])
    exact reading.pass none
  | swap found later ih =>
    rw [← place] at found
    obtain ⟨after', rfl, stop, -⟩ := exists_chars_of_matchAt found
    obtain ⟨gaps, reading⟩ := ih stop.symm
    exact ⟨_, .next silentIn_nil (by simpa using found) (by simpa using reading)⟩

/-- There is one reading only, and a replacement follows it. -/
theorem Reading.eq_of_edits (moves : p.isSkippable = false) {hits' : List Hit}
    (reading : p.Reading before rest gaps hits)
    (edits : p.Edits new (between before rest) hits' after) :
    hits' = hits ∧ after = weave gaps (hits.map new) := by
  induction reading generalizing hits' after with
  | @last before u silent =>
    rw [← List.append_nil u] at edits
    obtain ⟨after', rfl, atEnd⟩ := edits.exists_of_silent silent
    obtain ⟨rfl, rfl⟩ := atEnd.eq_nil moves
    exact ⟨rfl, List.append_nil u⟩
  | @next before u rest hit gaps hits silent found later ih =>
    obtain ⟨after', rfl, atMatch⟩ := edits.exists_of_silent silent
    obtain ⟨hits', after', rfl, rfl, behind⟩ := atMatch.exists_of_found moves found
    rw [stop_of_matchAt found] at behind
    obtain ⟨rfl, rfl⟩ := ih behind
    exact ⟨rfl, rfl⟩

theorem Reading.length_gaps (reading : p.Reading before rest gaps hits) :
    gaps.length = hits.length + 1 := by
  induction reading with
  | last => rfl
  | next _ _ _ ih => rw [List.length_cons, List.length_cons, ih]

theorem Reading.gaps_eq (reading : p.Reading before rest gaps hits) :
    gaps = gapsFrom rest before.length hits := by
  induction reading with
  | last silent => rfl
  | @next before u rest hit gaps hits silent found later ih =>
    obtain ⟨start, ahead, stop⟩ := places_of_matchAt found
    rw [gapsFrom, start, List.length_append, Nat.add_sub_cancel_left, List.take_left, ahead, stop, ← ih]

/-- The search gives the one reading of a text. -/
theorem reading_iff (moves : p.isSkippable = false) :
    p.Reading [] t gaps hits ↔ hits = p.findAll t ∧ gaps = p.gaps t := by
  constructor
  · intro reading
    obtain ⟨found, -⟩ := reading.eq_of_edits moves (edits_between_replaceAll moves Hit.chars t)
    refine ⟨found.symm, ?_⟩
    rw [Pattern.gaps, found]
    exact reading.gaps_eq
  · rintro ⟨rfl, rfl⟩
    obtain ⟨gaps, reading⟩ := (edits_between_replaceAll moves Hit.chars t).exists_reading
    have same : gaps = p.gaps t := reading.gaps_eq
    rwa [← same]

theorem reading_findAll (moves : p.isSkippable = false) (t : Text) :
    p.Reading [] t (p.gaps t) (p.findAll t) :=
  (reading_iff moves).2 ⟨rfl, rfl⟩

/-- Where nothing matches, there is no match. -/
theorem SilentIn.findAll_eq_nil (moves : p.isSkippable = false) (silent : p.SilentIn [] t []) :
    p.findAll t = [] :=
  ((reading_iff moves).1 (.last silent)).1.symm

theorem Reading.weave_chars (reading : p.Reading before rest gaps hits) :
    weave gaps (hits.map Hit.chars) = rest := by
  induction reading with
  | last silent => rfl
  | next silent found later ih => rw [List.map_cons, weave, ih]

/-- A text is its matches woven into its gaps. -/
theorem weave_gaps (moves : p.isSkippable = false) (t : Text) :
    weave (p.gaps t) ((p.findAll t).map Hit.chars) = t :=
  (reading_findAll moves t).weave_chars

/-- A text with all matches replaced is the new texts woven into its gaps. -/
theorem replaceAll_eq_weave (p : Pattern) (new : Hit → Text) (t : Text) :
    p.replaceAll new t = weave (p.gaps t) ((p.findAll t).map new) := by
  rw [replaceAll, splice_eq_weave, List.map_map, List.map_map]
  exact congrArg (fun hits => weave (gapsFrom t 0 hits) _) (List.map_id _)

/-- Where every match would be replaced by itself, the text stays. -/
theorem replaceAll_eq_self (moves : p.isSkippable = false)
    (same : ∀ hit ∈ p.findAll t, new hit = hit.chars) : p.replaceAll new t = t := by
  rw [replaceAll_eq_weave, List.map_congr_left same, weave_gaps moves]

/-! ### Replacing some of the matches -/

theorem Reading.le_offset (reading : p.Reading before rest gaps hits) :
    ∀ hit ∈ hits, before.length ≤ hit.offset := by
  induction reading with
  | last silent => simp
  | @next before u rest hit gaps hits silent found later ih =>
    have start := (places_of_matchAt found).1
    rw [List.length_append] at start
    rw [List.length_append, List.length_append] at ih
    refine List.forall_mem_cons.2 ⟨by omega, ?_⟩
    intro other mem
    have := ih other mem
    omega

/-- Replacing some of the matches weaves the new texts and the other matches into the gaps. -/
theorem Reading.splice_filter (reading : p.Reading before rest gaps hits) (chosen : Hit → Bool)
    (new : Hit → Text) :
    splice rest before.length ((hits.filter chosen).map fun hit => (hit, new hit)) =
      weave gaps (hits.map fun hit => if chosen hit then new hit else hit.chars) := by
  induction reading with
  | last silent => rfl
  | @next before u rest hit gaps hits silent found later ih =>
    obtain ⟨start, ahead, stop⟩ := places_of_matchAt found
    rw [List.map_cons, weave, ← ih]
    cases choice : chosen hit with
    | true =>
      rw [List.filter_cons_of_pos choice, List.map_cons, splice, start, List.length_append,
        Nat.add_sub_cancel_left, List.take_left, ahead, stop, if_pos rfl]
    | false =>
      -- What is passed over counts to the front of the next edit.
      have passed : before.length + (u ++ hit.chars).length = (before ++ u ++ hit.chars).length := by
        rw [← List.length_append, List.append_assoc]
      rw [List.filter_cons_of_neg (by simp [choice]), ← List.append_assoc, splice_append, passed,
        if_neg Bool.false_ne_true, List.append_assoc]
      intro edit mem
      obtain ⟨other, among, rfl⟩ := List.mem_map.1 mem
      rw [passed]
      exact later.le_offset other (List.mem_of_mem_filter among)

theorem splice_filter_findAll (moves : p.isSkippable = false) (chosen : Hit → Bool)
    (new : Hit → Text) (t : Text) :
    splice t 0 (((p.findAll t).filter chosen).map fun hit => (hit, new hit)) =
      weave (p.gaps t) ((p.findAll t).map fun hit => if chosen hit then new hit else hit.chars) :=
  (reading_findAll moves t).splice_filter chosen new

/-- The first match stands behind a stretch in which none starts. -/
theorem find_eq_some_iff (moves : p.isSkippable = false) : p.find t = some hit ↔
    ∃ u rest, t = u ++ (hit.chars ++ rest) ∧ p.SilentIn [] u (hit.chars ++ rest) ∧
      p.matchAt (between u (hit.chars ++ rest)) = some hit := by
  rw [p.find_eq_head?]
  constructor
  · intro head
    have reading := reading_findAll moves t
    generalize p.gaps t = gaps at reading
    generalize p.findAll t = hits at reading head
    cases reading with
    | last => cases head
    | next silent found later =>
      obtain rfl := Option.some.inj head
      exact ⟨_, _, rfl, silent, by simpa using found⟩
  · rintro ⟨u, rest, rfl, silent, found⟩
    obtain ⟨_, -, atMatch⟩ := (edits_between_replaceAll moves Hit.chars _).exists_of_silent silent
    obtain ⟨hits, _, all, -⟩ := atMatch.exists_of_found moves found
    rw [all, List.head?_cons]

/-! ### Reading a text with other pieces -/

/-- Wherever the first pattern matches and its match is replaced, the second one matches just what is
    put in; and in what the first one passes, the second one does not match. -/
structure Rereads (p : Pattern) (new : Hit → Text) (q : Pattern) : Prop where
  found : ∀ {c hit}, p.matchAt c = some hit → ∀ before rest,
    ∃ hit', q.matchAt (between before (new hit ++ rest)) = some hit' ∧ hit'.chars = new hit
  silent : ∀ {before u rest hit}, p.matchAt (between (before ++ u) (hit.chars ++ rest)) = some hit →
    p.SilentIn before u (hit.chars ++ rest) → ∀ before' rest', q.SilentIn before' u (new hit ++ rest')
  ending : ∀ {before u}, p.SilentIn before u [] → ∀ before', q.SilentIn before' u []

namespace Rereads

variable (rereads : Rereads p new q)
include rereads

theorem exists_reading (reading : p.Reading before rest gaps hits) (before' : Text) :
    ∃ hits', q.Reading before' (weave gaps (hits.map new)) gaps hits' ∧
      hits'.map Hit.chars = hits.map new := by
  induction reading generalizing before' with
  | last silent => exact ⟨[], .last (rereads.ending silent before'), rfl⟩
  | @next before u rest hit gaps hits silent found later ih =>
    obtain ⟨hit', found', chars⟩ := rereads.found found (before' ++ u) (weave gaps (hits.map new))
    obtain ⟨hits', reading', all⟩ := ih (before' ++ u ++ hit'.chars)
    have silent' := rereads.silent found silent before' (weave gaps (hits.map new))
    rw [← chars] at found' silent'
    refine ⟨hit' :: hits', ?_, by rw [List.map_cons, List.map_cons, chars, all]⟩
    rw [List.map_cons, weave, ← chars]
    exact .next silent' found' reading'

/-- In the edited text, the second pattern finds what was put in, between the gaps that were there. -/
theorem replaceAll (moves : p.isSkippable = false) (moves' : q.isSkippable = false) (t : Text) :
    q.gaps (p.replaceAll new t) = p.gaps t ∧
      (q.findAll (p.replaceAll new t)).map Hit.chars = (p.findAll t).map new := by
  obtain ⟨hits', reading, all⟩ := rereads.exists_reading (reading_findAll moves t) []
  rw [← replaceAll_eq_weave] at reading
  obtain ⟨rfl, same⟩ := (reading_iff moves').1 reading
  exact ⟨same.symm, all⟩

end Rereads

end Pattern

end SourceAudit
