/-
Module: SourceAudit.Source.ByName
Layer: Domain
Purpose: Values kept by name, each name once and the names in ascending order. The order is part of the
  type, so two of these with the same entries are the same value.
Main exports: ByName, ByName.find?, ByName.change, ByName.insert, ByName.map, ByName.filter,
  ByName.ofList
-/

namespace SourceAudit

/-- Values by name, in ascending order of the names. -/
structure ByName (α : Type) where
  entries : List (String × α)
  ascending : entries.Pairwise fun a b => a.1 < b.1
deriving DecidableEq, Repr

namespace ByName

variable {α β : Type}

/-- No values. -/
def empty : ByName α := ⟨[], .nil⟩

/-- Entries in ascending order, with the value under a name changed; `new` is given what was there. -/
def changeEntries (name : String) (new : Option α → α) : List (String × α) → List (String × α)
  | [] => [(name, new none)]
  | (other, value) :: rest =>
    if name = other then (other, new (some value)) :: rest
    else if name < other then (name, new none) :: (other, value) :: rest
    else (other, value) :: changeEntries name new rest

/-- A change brings no name but its own. -/
theorem mem_changeEntries {name : String} {new : Option α → α} {entries : List (String × α)}
    {e : String × α} (h : e ∈ changeEntries name new entries) :
    e.1 = name ∨ ∃ f ∈ entries, f.1 = e.1 := by
  induction entries with
  | nil => simp_all [changeEntries]
  | cons f rest ih =>
    obtain ⟨other, value⟩ := f
    simp only [changeEntries] at h
    split at h
    · rcases List.mem_cons.1 h with rfl | h
      · exact .inr ⟨_, List.mem_cons_self, rfl⟩
      · exact .inr ⟨e, List.mem_cons_of_mem _ h, rfl⟩
    · split at h
      · rcases List.mem_cons.1 h with rfl | h
        · exact .inl rfl
        · exact .inr ⟨e, h, rfl⟩
      · rcases List.mem_cons.1 h with rfl | h
        · exact .inr ⟨_, List.mem_cons_self, rfl⟩
        · rcases ih h with h | ⟨f, hf, h⟩
          · exact .inl h
          · exact .inr ⟨f, List.mem_cons_of_mem _ hf, h⟩

/-- A change keeps the names in order. -/
theorem pairwise_changeEntries (name : String) (new : Option α → α) {entries : List (String × α)}
    (h : entries.Pairwise fun a b => a.1 < b.1) :
    (changeEntries name new entries).Pairwise fun a b => a.1 < b.1 := by
  induction entries with
  | nil => simp [changeEntries]
  | cons f rest ih =>
    obtain ⟨other, value⟩ := f
    obtain ⟨first, tail⟩ := List.pairwise_cons.1 h
    simp only [changeEntries]
    split
    · exact List.pairwise_cons.2 ⟨first, tail⟩
    · split
      · rename_i below
        refine List.pairwise_cons.2 ⟨?_, h⟩
        intro e he
        rcases List.mem_cons.1 he with rfl | he
        · exact below
        · exact String.lt_trans below (first e he)
      · rename_i different notBelow
        refine List.pairwise_cons.2 ⟨?_, ih tail⟩
        intro e he
        rcases mem_changeEntries he with hname | ⟨f, hf, hname⟩
        · have above : ¬ name ≤ other := fun le =>
            different (String.le_antisymm le (String.not_lt.1 notBelow))
          rw [hname]
          exact Decidable.not_not.1 fun no => above (String.not_lt.1 no)
        · rw [← hname]
          exact first f hf

/-- The values with the one under a name changed; `new` is given what was there. -/
def change (values : ByName α) (name : String) (new : Option α → α) : ByName α :=
  ⟨changeEntries name new values.entries, pairwise_changeEntries name new values.ascending⟩

/-- The values with one put under a name, in place of what was there. -/
def insert (values : ByName α) (name : String) (value : α) : ByName α :=
  values.change name fun _ => value

/-- The value under a name. -/
def find? (values : ByName α) (name : String) : Option α := values.entries.lookup name

/-- The values with each one changed. -/
def map (f : α → β) (values : ByName α) : ByName β :=
  ⟨values.entries.map fun e => (e.1, f e.2), List.pairwise_map.2 values.ascending⟩

/-- The entries that pass a test. -/
def filter (keep : String × α → Bool) (values : ByName α) : ByName α :=
  ⟨values.entries.filter keep, values.ascending.filter keep⟩

/-- The values of a list of entries; of several under the same name the last one counts. -/
def ofList (entries : List (String × α)) : ByName α :=
  entries.foldl (fun values e => values.insert e.1 e.2) empty

/-- Whether there are no values. -/
def isEmpty (values : ByName α) : Bool := values.entries.isEmpty

/-- The names in order. -/
def names (values : ByName α) : List String := values.entries.map Prod.fst

end ByName

end SourceAudit
