/-
Module: SourceAudit.Proofs.Improve.Logging
Layer: Proofs
Purpose: What the removal of console calls does to the rules for every family. The text on both sides of
  a call that is cut out is joined, and nothing that these rules look for lies across the joint: what
  stood in front ends apart from a name, and a declaration whose keyword stood there had the call behind
  it. Families with rules of their own are not spared, since those look for longer stretches of text.
Main exports: Fix.Console.IsCutOut, Fix.Console.Inv.universal_eased, eases_removeConsoleCalls
-/
import SourceAudit.Proofs.Console.Settling
import SourceAudit.Proofs.Improve.Declarations

namespace SourceAudit

namespace Fix.Console

/-- What stood between two parts of a text before it was cut out: blanks, and then something that starts
    with a name and ends apart from the name of a call. -/
structure IsCutOut (lost middle : Text) : Prop where
  blank : ∀ x ∈ lost, isBlank x = true
  start : ∃ x more, middle = x :: more ∧ isNameStart x = true
  stop : ∀ u, EndsApart (u ++ middle)

section

variable {out lost middle rest : Text} (apart : rest = [] ∨ EndsApart out)
include apart

/-- A needle whose characters, but for the last one, all keep a call from starting does not lie across
    the place where something was cut out. -/
theorem infix_of_infix_cut {needle : Text} (solid : ∀ x ∈ needle.dropLast, isApart x = false)
    (found : needle <:+: out ++ rest) : needle <:+: out ++ (lost ++ (middle ++ rest)) := by
  rcases List.infix_append_iff_ne_nil.1 found with left | right | ⟨l, r, some, some', rfl, left, right⟩
  · exact List.infix_append_of_infix_left left
  · exact List.infix_append_of_infix_right
      (List.infix_append_of_infix_right (List.infix_append_of_infix_right right))
  · -- the last character in front of the cut is one of the needle
    have ends : EndsApart out := by
      refine apart.resolve_left ?_
      rintro rfl
      exact some' (List.prefix_nil.1 right)
    obtain ⟨front, rfl⟩ := left
    obtain ⟨l, x, rfl⟩ := l.eq_nil_or_concat'.resolve_left some
    have inside : x ∈ (l ++ [x] ++ r).dropLast := by
      rw [List.dropLast_append_of_ne_nil some']
      simp
    have outside := ends x (by simp [← List.append_assoc])
    rw [solid x inside] at outside
    cases outside

/-- A declaration across the place where something was cut out had the start of the cut out part for
    its name. -/
theorem occurs_varDeclaration_of_cut (cut : IsCutOut lost middle)
    (found : Universal.varDeclaration.occurs (out ++ rest) = true) :
    Universal.varDeclaration.occurs (out ++ (lost ++ (middle ++ rest))) = true := by
  obtain ⟨before, blanks, x, after, whole, edge, isGap, start⟩ :=
    (occurs_varDeclaration_iff _).1 found
  have behind (bs : Text) (split : rest = bs ++ ("var".toList ++ (blanks ++ x :: after)))
      (same : before = out ++ bs) :
      Universal.varDeclaration.occurs (out ++ (lost ++ (middle ++ rest))) = true := by
    rw [occurs_varDeclaration_iff]
    refine ⟨out ++ (lost ++ (middle ++ bs)), blanks, x, after, by simp [split], ?_, isGap, start⟩
    subst same
    cases bs with
    | nil =>
      rw [List.append_nil, ← List.append_assoc]
      exact (endsApart_iff.1 (cut.stop (out ++ lost))).1
    | cons b bs => simpa [List.getLast?_append, List.getLast?_cons] using edge
  have across (k : Text) (split : out = before ++ ("var".toList ++ k)) (isGap : IsGap k) :
      Universal.varDeclaration.occurs (out ++ (lost ++ (middle ++ rest))) = true := by
    rw [occurs_varDeclaration_iff]
    obtain ⟨y, more, rfl, name⟩ := cut.start
    refine ⟨before, k ++ lost, y, more ++ rest, by simp [split], edge, ⟨?_, ?_⟩, name⟩
    · simp [isGap.1]
    · exact List.forall_mem_append.2 ⟨isGap.2, cut.blank⟩
  have ends : rest ≠ [] → EndsApart out := fun some => apart.resolve_left some
  have letters (l : Text) (inside : l ⊆ "var".toList) (apart : EndsApart (before ++ l)) : l = [] := by
    by_contra some
    obtain ⟨l, z, rfl⟩ := l.eq_nil_or_concat'.resolve_left some
    have outside := apart z (by simp [← List.append_assoc])
    have all : ∀ c ∈ "var".toList, isApart c = false := List.forall_iff_forall_mem.1 (by decide)
    rw [all z (inside (by simp))] at outside
    cases outside
  rcases List.append_eq_append_iff.1 whole with ⟨bs, same, split⟩ | ⟨l, rfl, tail⟩
  · exact behind bs split same
  rcases List.append_eq_append_iff.1 tail with ⟨k, rfl, spaces⟩ | ⟨m, word, split⟩
  · rcases List.append_eq_append_iff.1 spaces with ⟨n, rfl, name⟩ | ⟨m, rfl, split⟩
    · cases n with
      | nil => exact across blanks (by simp) isGap
      | cons z n =>
        obtain ⟨rfl, rfl⟩ := List.cons.inj name
        exact (occurs_varDeclaration_iff _).2
          ⟨before, blanks, x, n ++ (lost ++ (middle ++ rest)), by simp, edge, isGap, start⟩
    · refine across k rfl ⟨?_, fun c mem => isGap.2 c (List.mem_append_left _ mem)⟩
      rintro rfl
      have apart := ends (by simp [split])
      exact absurd (letters "var".toList (List.Subset.refl _) (by simpa using apart)) (by decide)
  · have none : l = [] := by
      refine letters l ?_ (ends (by simp [split]))
      rw [word]
      exact List.subset_append_left _ _
    subst none
    exact behind [] tail.symm (by simp)

end

variable {t : Text} {s s₁ : State}

/-- What is cut out for a statement, and the blanks in front of it that go too. -/
theorem IsStatement.isCutOut {before statement after lost gone : Text}
    (isStatement : IsStatement before statement after) (blank : ∀ x ∈ lost ++ gone, isBlank x = true) :
    IsCutOut lost (statement ++ gone) where
  blank x mem := blank x (List.mem_append_left _ mem)
  start := by
    obtain ⟨_, _, _, rfl, -, ⟨x, name, bs, rfl, -⟩, -⟩ := isStatement
    exact ⟨'c', _, rfl, by decide⟩
  stop := isStatement.endsApart fun x mem => blank x (List.mem_append_right _ mem)

/-- A step brings no issue of the rules for every family into the text. -/
theorem Inv.universal_eased (inv : Inv t s) (step : Step s s₁) : Universal.Eased s.text s₁.text := by
  cases step with
  | keep ahead =>
    rw [State.text, State.text, ahead]
    simpa using Universal.Eased.refl _
  | @cut u statement gone rest out lost ahead none isStatement split blank line =>
    have apart := inv.apart_cut ahead isStatement split line
    have cut := isStatement.isCutOut blank
    have before : s.text = out ++ (lost ++ ((statement ++ gone) ++ rest)) := by
      rw [State.text, ahead, ← List.append_assoc, split]
      simp
    have kept (needle : String) (solid : ∀ x ∈ needle.toList.dropLast, isApart x = false)
        (found : Text.includes (out ++ rest) needle.toList = true) : s.text.includes needle.toList = true := by
      rw [Text.includes_iff] at found ⊢
      rw [before]
      exact infix_of_infix_cut apart solid found
    constructor
    case logging => exact kept "console.log" (List.forall_iff_forall_mem.1 (by decide))
    case declarations =>
      intro found
      rw [before]
      exact occurs_varDeclaration_of_cut apart cut found
    case tasks =>
      intro found
      rw [Bool.or_eq_true] at found ⊢
      exact found.imp (kept "TODO" (List.forall_iff_forall_mem.1 (by decide)))
        (kept "FIXME" (List.forall_iff_forall_mem.1 (by decide)))

/-- The removal brings no issue of the rules for every family into a text. -/
theorem universal_eased_removeConsoleCalls (t : Text) : Universal.Eased t (removeConsoleCalls t) := by
  obtain ⟨s, ⟨run, -⟩, result⟩ := exists_ends t
  rw [result]
  clear result
  induction run with
  | refl => exact Universal.Eased.refl t
  | tail run step ih => exact ih.trans ((inv_of_run run).universal_eased step)

end Fix.Console

/-- Removing console calls never makes the report of a file worse that has no rules of its own. -/
theorem eases_removeConsoleCalls [Engine] {fileName : String}
    (family : Family.ofName fileName = .other) (t : Text) :
    Eases fileName t (Fix.removeConsoleCalls t) := by
  refine Eases.of_eased (Fix.Console.universal_eased_removeConsoleCalls t) ?_
  rw [family]
  exact trivial

end SourceAudit
