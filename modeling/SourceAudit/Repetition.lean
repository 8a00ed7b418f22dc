/-
Module: SourceAudit.Repetition
Layer: Numbers
Purpose: Repetition in lists: how often each member occurs, counted once for all members, and the
  members each kept once.
Main exports: Frequencies, Frequencies.of, Frequencies.count, Frequencies.distinct, keepOnce,
  mem_keepOnce, nodup_keepOnce, keepOnce_sublist
-/
import Std.Data.HashMap

namespace SourceAudit

/-- How often each member of a list occurs. -/
structure Frequencies (α : Type) [BEq α] [Hashable α] where
  counts : Std.HashMap α Nat

namespace Frequencies

variable {α : Type} [BEq α] [Hashable α]

/-- Nothing occurs. -/
def empty : Frequencies α := ⟨∅⟩

/-- How often a value occurs. -/
def count (f : Frequencies α) (x : α) : Nat := f.counts.getD x 0

/-- The frequencies with one more occurrence of a value. -/
def add (f : Frequencies α) (x : α) : Frequencies α := ⟨f.counts.insert x (f.counts.getD x 0 + 1)⟩

/-- The frequencies in a list. -/
def of (xs : List α) : Frequencies α := xs.foldl add empty

/-- How many different values occur. -/
def distinct (f : Frequencies α) : Nat := f.counts.size

section

variable [LawfulBEq α] [LawfulHashable α]

/-- One more occurrence counts for its own value only. -/
theorem count_add (f : Frequencies α) (x y : α) :
    (f.add x).count y = f.count y + if x == y then 1 else 0 := by
  simp only [count, add, Std.HashMap.getD_insert]
  split
  · rename_i same
    rw [eq_of_beq same]
  · rfl

/-- Members added to frequencies count beside those that were there. -/
theorem count_foldl_add (xs : List α) (f : Frequencies α) (x : α) :
    (xs.foldl add f).count x = f.count x + xs.count x := by
  induction xs generalizing f with
  | nil => simp
  | cons y ys ih => rw [List.foldl_cons, ih, count_add, List.count_cons, Nat.add_right_comm, Nat.add_assoc]

/-- The frequencies in a list are its own counts. -/
theorem count_of (xs : List α) (x : α) : (of xs).count x = xs.count x := by
  rw [of, count_foldl_add]
  simp [count, empty]

end

end Frequencies

/-- The members of a list, each kept where it first occurs. -/
def keepOnce {α : Type} [DecidableEq α] (xs : List α) : List α :=
  xs.foldl (fun kept x => if x ∈ kept then kept else kept ++ [x]) []

section

variable {α : Type} [DecidableEq α]

theorem mem_foldl_keepOnce (xs kept : List α) (x : α) :
    x ∈ xs.foldl (fun kept x => if x ∈ kept then kept else kept ++ [x]) kept ↔
      x ∈ kept ∨ x ∈ xs := by
  induction xs generalizing kept with
  | nil => simp
  | cons y ys ih =>
    rw [List.foldl_cons, ih, List.mem_cons]
    by_cases seen : y ∈ kept
    · rw [if_pos seen]
      constructor
      · exact fun h => h.imp_right .inr
      · rintro (h | rfl | h)
        · exact .inl h
        · exact .inl seen
        · exact .inr h
    · rw [if_neg seen, List.mem_append, List.mem_singleton, or_assoc]

/-- No member is lost. -/
theorem mem_keepOnce {xs : List α} {x : α} : x ∈ keepOnce xs ↔ x ∈ xs := by
  rw [keepOnce, mem_foldl_keepOnce]
  simp

theorem nodup_foldl_keepOnce (xs : List α) {kept : List α} (once : kept.Nodup) :
    (xs.foldl (fun kept x => if x ∈ kept then kept else kept ++ [x]) kept).Nodup := by
  induction xs generalizing kept with
  | nil => exact once
  | cons y ys ih =>
    rw [List.foldl_cons]
    by_cases seen : y ∈ kept
    · rw [if_pos seen]
      exact ih once
    · rw [if_neg seen]
      apply ih
      rw [List.nodup_append]
      refine ⟨once, by simp, ?_⟩
      intro x mem z new same
      rw [same, List.mem_singleton.1 new] at mem
      exact seen mem

/-- No member is kept twice. -/
theorem nodup_keepOnce (xs : List α) : (keepOnce xs).Nodup :=
  nodup_foldl_keepOnce xs List.nodup_nil

theorem foldl_keepOnce_sublist (xs kept : List α) :
    (xs.foldl (fun kept x => if x ∈ kept then kept else kept ++ [x]) kept).Sublist (kept ++ xs) := by
  induction xs generalizing kept with
  | nil => simp
  | cons y ys ih =>
    rw [List.foldl_cons]
    refine (ih _).trans ?_
    split
    · exact (List.sublist_cons_self y ys).append_left kept
    · rw [List.append_assoc]
      exact List.Sublist.refl _

/-- What is kept stands in its order. -/
theorem keepOnce_sublist (xs : List α) : (keepOnce xs).Sublist xs := foldl_keepOnce_sublist xs []

end

end SourceAudit
