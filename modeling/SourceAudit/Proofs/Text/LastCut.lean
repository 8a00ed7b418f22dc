/-
Module: SourceAudit.Proofs.Text.LastCut
Layer: Proofs
Purpose: Texts cut at their last separator. A text has no separator, or there is one behind which no
  other stands; the cut is made there, and nowhere else.
Main exports: Text.cutLast?_append_cons, Text.cutLast?_eq_none, Text.lastCut_cases,
  Text.afterLast_append_cons, Text.afterLast_eq_self, Text.afterLast_subset
-/
import Mathlib.Data.List.TakeDrop
import Mathlib.Data.List.TakeWhile
import SourceAudit.Text.Basic

namespace SourceAudit.Text

variable {separates : Char → Bool} {t front back : Text} {x : Char}

theorem cutLast?_append_cons (here : separates x = true) (behind : ∀ c ∈ back, separates c = false) :
    (front ++ x :: back).cutLast? separates = some (front, back) := by
  have pass : ∀ c ∈ back.reverse, (!separates c) = true := fun c mem => by
    rw [behind c (List.mem_reverse.1 mem)]
    rfl
  rw [cutLast?, List.span_eq_takeWhile_dropWhile, List.reverse_append, List.reverse_cons,
    List.append_assoc, List.singleton_append, List.takeWhile_append_of_pos pass,
    List.dropWhile_append_of_pos pass]
  simp [here]

theorem cutLast?_eq_none (absent : ∀ c ∈ t, separates c = false) : t.cutLast? separates = none := by
  have all : ∀ c ∈ t.reverse, (!separates c) = true := fun c mem => by
    rw [absent c (List.mem_reverse.1 mem)]
    rfl
  rw [cutLast?, List.span_eq_takeWhile_dropWhile, List.dropWhile_eq_nil_iff.2 all]

/-- A text has no separator, or a last one. -/
theorem lastCut_cases (separates : Char → Bool) (t : Text) : (∀ c ∈ t, separates c = false) ∨
    ∃ front x back, t = front ++ x :: back ∧ separates x = true ∧ ∀ c ∈ back, separates c = false := by
  induction t with
  | nil => exact .inl nofun
  | cons c t ih =>
    rcases ih with absent | ⟨front, x, back, rfl, here, behind⟩
    · cases h : separates c with
      | false => exact .inl (List.forall_mem_cons.2 ⟨h, absent⟩)
      | true => exact .inr ⟨[], c, t, rfl, h, absent⟩
    · exact .inr ⟨c :: front, x, back, rfl, here, behind⟩

theorem afterLast_append_cons (here : separates x = true) (behind : ∀ c ∈ back, separates c = false) :
    (front ++ x :: back).afterLast separates = back := by
  rw [afterLast, cutLast?_append_cons here behind]

theorem afterLast_eq_self (absent : ∀ c ∈ t, separates c = false) : t.afterLast separates = t := by
  rw [afterLast, cutLast?_eq_none absent]

theorem afterLast_subset (t : Text) (separates : Char → Bool) : t.afterLast separates ⊆ t := by
  rcases lastCut_cases separates t with absent | ⟨front, x, back, rfl, here, behind⟩
  · rw [afterLast_eq_self absent]
    exact List.Subset.refl t
  · rw [afterLast_append_cons here behind]
    exact fun c mem => List.mem_append_right front (List.mem_cons_of_mem x mem)

end SourceAudit.Text
