/-!
# Maps keyed by names

A `NameMap` is a list of entries whose names increase strictly, so each name
occurs once and equal maps are equal lists.
-/

namespace ProbeLowering

structure NameMap (α : Type) where
  entries : List (String × α)
  increasing : entries.Pairwise (fun a b => a.1 < b.1)
  deriving DecidableEq, Repr

namespace NameMap

variable {α : Type}

def empty : NameMap α := ⟨[], .nil⟩

instance : EmptyCollection (NameMap α) := ⟨empty⟩

instance : Inhabited (NameMap α) := ⟨empty⟩

def toList (m : NameMap α) : List (String × α) := m.entries

def size (m : NameMap α) : Nat := m.entries.length

def get? (m : NameMap α) (name : String) : Option α :=
  m.entries.lookup name

def insertEntry (name : String) (value : α) :
    List (String × α) → List (String × α)
  | [] => [(name, value)]
  | (k, v) :: rest =>
      if name < k then (name, value) :: (k, v) :: rest
      else if name = k then (name, value) :: rest
      else (k, v) :: insertEntry name value rest

theorem mem_insertEntry {name : String} {value : α}
    {entries : List (String × α)} {e : String × α}
    (h : e ∈ insertEntry name value entries) :
    e = (name, value) ∨ e ∈ entries := by
  induction entries with
  | nil => simpa [insertEntry] using h
  | cons head rest ih =>
      obtain ⟨k, v⟩ := head
      simp only [insertEntry] at h
      split at h
      · simpa using h
      · split at h
        · rcases List.mem_cons.mp h with h | h
          · exact .inl h
          · exact .inr (List.mem_cons_of_mem _ h)
        · rcases List.mem_cons.mp h with h | h
          · exact .inr (h ▸ List.mem_cons_self)
          · exact (ih h).imp_right (List.mem_cons_of_mem _)

private theorem lt_of_not_lt_of_ne {a b : String} (h : ¬ a < b) (hne : a ≠ b) :
    b < a := by
  have hle : b ≤ a := String.not_lt.mp h
  apply Decidable.byContradiction
  intro hlt
  exact hne (String.le_antisymm (String.not_lt.mp hlt) hle)

theorem increasing_insertEntry (name : String) (value : α)
    {entries : List (String × α)}
    (h : entries.Pairwise (fun a b => a.1 < b.1)) :
    (insertEntry name value entries).Pairwise (fun a b => a.1 < b.1) := by
  induction entries with
  | nil => simp [insertEntry]
  | cons head rest ih =>
      obtain ⟨k, v⟩ := head
      rw [List.pairwise_cons] at h
      simp only [insertEntry]
      split
      next hlt =>
        rw [List.pairwise_cons, List.pairwise_cons]
        refine ⟨?_, h⟩
        intro e he
        rcases List.mem_cons.mp he with rfl | he
        · exact hlt
        · exact String.lt_trans hlt (h.1 e he)
      next hlt =>
        split
        next heq =>
          subst heq
          exact List.pairwise_cons.mpr h
        next hne =>
          refine List.pairwise_cons.mpr ⟨?_, ih h.2⟩
          intro e he
          rcases mem_insertEntry he with rfl | he
          · exact lt_of_not_lt_of_ne hlt hne
          · exact h.1 e he

def insert (m : NameMap α) (name : String) (value : α) : NameMap α :=
  ⟨insertEntry name value m.entries, increasing_insertEntry name value m.increasing⟩

/-- Of several entries under one name the last counts. -/
def ofList (entries : List (String × α)) : NameMap α :=
  entries.foldl (fun m e => m.insert e.1 e.2) empty

def alter (m : NameMap α) (name : String) (default : α) (f : α → α) : NameMap α :=
  m.insert name (f ((m.get? name).getD default))

end NameMap

end ProbeLowering
