import ProbeLowering.NameMap

/-!
# Values collected under names

Inserting a value under a name leaves what the other names stand for.  Values are collected
by inserting them in order, each under a name of its own or under one made of how many are
there.  All of them stay exactly if these names differ (`NameMap.size_collect_eq_iff`), and
then each is found under its name (`NameMap.get?_collect`).
-/

namespace ProbeLowering

namespace NameMap

variable {α : Type} {m : NameMap α} {name : String} {value : α}

theorem get?_insert_self (m : NameMap α) (name : String) (value : α) :
    (m.insert name value).get? name = some value := by
  change (insertEntry name value m.entries).lookup name = some value
  induction m.entries with
  | nil => simp [insertEntry]
  | cons first rest ih =>
      obtain ⟨k, v⟩ := first
      rw [insertEntry]
      split
      · simp
      · split
        · simp
        next hne =>
          rw [List.lookup_cons, beq_false_of_ne hne]
          exact ih

theorem get?_insert_of_ne (m : NameMap α) {other : String} (value : α) (hne : name ≠ other) :
    (m.insert other value).get? name = m.get? name := by
  change (insertEntry other value m.entries).lookup name = m.entries.lookup name
  induction m.entries with
  | nil => simp [insertEntry, List.lookup_cons, beq_false_of_ne hne]
  | cons first rest ih =>
      obtain ⟨k, v⟩ := first
      rw [insertEntry]
      split
      · simp [List.lookup_cons, beq_false_of_ne hne]
      · split
        next heq => simp [List.lookup_cons, ← heq, beq_false_of_ne hne]
        next => rw [List.lookup_cons, List.lookup_cons, ih]

theorem get?_insert_eq_none {other : String} :
    (m.insert other value).get? name = none ↔ name ≠ other ∧ m.get? name = none := by
  by_cases hname : name = other
  · simp [hname, get?_insert_self]
  · simp [hname, get?_insert_of_ne m value hname]

theorem length_insertEntry {entries : List (String × α)}
    (h : entries.Pairwise (fun a b => a.1 < b.1)) :
    (insertEntry name value entries).length =
      if (entries.lookup name).isSome then entries.length else entries.length + 1 := by
  induction entries with
  | nil => rfl
  | cons first rest ih =>
      obtain ⟨k, v⟩ := first
      rw [List.pairwise_cons] at h
      rw [insertEntry]
      split
      next hlt =>
        have hlookup : ((k, v) :: rest).lookup name = none := by
          rw [List.lookup_eq_none_iff]
          intro entry hentry
          rw [bne_iff_ne]
          rcases List.mem_cons.mp hentry with rfl | hentry
          · exact String.ne_of_lt hlt
          · exact String.ne_of_lt (String.lt_trans hlt (h.1 entry hentry))
        simp [hlookup]
      next =>
        split
        next heq => simp [heq]
        next hne =>
          rw [List.length_cons, ih h.2, List.lookup_cons, beq_false_of_ne hne, List.length_cons]
          split <;> simp_all

theorem size_insert : (m.insert name value).size =
    if (m.get? name).isSome then m.size else m.size + 1 :=
  length_insertEntry m.increasing

end NameMap

def nameAt (count : Nat) (name? : Option String) : String :=
  name?.getD s!"arg{count}"

theorem nameAt_none_injective {i j : Nat} (h : nameAt i none = nameAt j none) : i = j := by
  simp only [nameAt, Option.getD_none, toString] at h
  have hdigits : Nat.toDigits 10 i = Nat.toDigits 10 j := by
    have htext := congrArg String.toList ((String.append_right_inj "arg").mp h)
    simpa only [Nat.toList_repr] using htext
  simpa [Nat.ofDigitChars_ten_toDigits] using congrArg (Nat.ofDigitChars 10 · 0) hdigits

namespace NameMap

variable {α : Type}

def collect (m : NameMap α) (values : List (Option String × α)) : NameMap α :=
  values.foldl (fun m entry => m.insert (nameAt m.size entry.1) entry.2) m

def namesFrom (count : Nat) : List (Option String × α) → List String
  | [] => []
  | (name?, _) :: rest => nameAt count name? :: namesFrom (count + 1) rest

variable {m : NameMap α} {name : String} {value : α} {values : List (Option String × α)}

theorem size_collect_le (m : NameMap α) (values : List (Option String × α)) :
    (m.collect values).size ≤ m.size + values.length := by
  induction values generalizing m with
  | nil => exact Nat.le_refl _
  | cons entry rest ih =>
      have hinsert : (m.insert (nameAt m.size entry.1) entry.2).size ≤ m.size + 1 := by
        rw [size_insert]
        split <;> omega
      have hrest := ih (m.insert (nameAt m.size entry.1) entry.2)
      rw [collect, List.foldl_cons, List.length_cons]
      exact Nat.le_trans hrest (by omega)

theorem size_collect_cons {name? : Option String} :
    (m.collect ((name?, value) :: values)).size = m.size + (values.length + 1) ↔
      m.get? (nameAt m.size name?) = none ∧
      (m.insert (nameAt m.size name?) value).size = m.size + 1 ∧
      ((m.insert (nameAt m.size name?) value).collect values).size =
        (m.insert (nameAt m.size name?) value).size + values.length := by
  have hle := size_collect_le (m.insert (nameAt m.size name?) value) values
  change ((m.insert (nameAt m.size name?) value).collect values).size = _ ↔ _
  rw [size_insert] at hle ⊢
  cases hget : m.get? (nameAt m.size name?) with
  | none => simp [hget] at hle ⊢; omega
  | some other => simp [hget] at hle ⊢; omega

/-- All values stay exactly if their names are free and no two of them are the same. -/
theorem size_collect_eq_iff (m : NameMap α) (values : List (Option String × α)) :
    (m.collect values).size = m.size + values.length ↔
      (namesFrom m.size values).Nodup ∧ ∀ name ∈ namesFrom m.size values, m.get? name = none := by
  induction values generalizing m with
  | nil => simp [collect, namesFrom]
  | cons entry rest ih =>
      obtain ⟨name?, value⟩ := entry
      rw [List.length_cons, size_collect_cons, ih, namesFrom, List.nodup_cons,
        List.forall_mem_cons, size_insert]
      constructor
      · rintro ⟨hfree, hsize, hnodup, hrest⟩
        rw [hsize] at hnodup hrest
        refine ⟨⟨fun hmem => ?_, hnodup⟩, hfree, fun name hname => ?_⟩
        · exact (get?_insert_eq_none.mp (hrest _ hmem)).1 rfl
        · exact (get?_insert_eq_none.mp (hrest name hname)).2
      · rintro ⟨⟨hnot, hnodup⟩, hfree, hrest⟩
        have hsize : (if (m.get? (nameAt m.size name?)).isSome then m.size else m.size + 1) =
            m.size + 1 := by simp [hfree]
        rw [hsize]
        refine ⟨hfree, rfl, hnodup, fun name hname => ?_⟩
        refine get?_insert_eq_none.mpr ⟨?_, hrest name hname⟩
        rintro rfl
        exact hnot hname

theorem get?_collect_of_some (hsize : (m.collect values).size = m.size + values.length)
    (hget : m.get? name = some value) : (m.collect values).get? name = some value := by
  induction values generalizing m with
  | nil => exact hget
  | cons entry rest ih =>
      obtain ⟨hfree, -, hrest⟩ := size_collect_cons.mp hsize
      refine ih hrest ?_
      rw [get?_insert_of_ne m _ ?_, hget]
      rintro rfl
      cases hfree.symm.trans hget

theorem get?_collect (hsize : (m.collect values).size = m.size + values.length) {i : Nat}
    (hi : i < values.length) :
    (m.collect values).get? (nameAt (m.size + i) values[i].1) = some values[i].2 := by
  induction values generalizing m i with
  | nil => cases hi
  | cons entry rest ih =>
      obtain ⟨-, hinsert, hrest⟩ := size_collect_cons.mp hsize
      cases i with
      | zero =>
          have hfirst := get?_collect_of_some hrest (get?_insert_self m _ _)
          exact hfirst
      | succ i =>
          have hlast := ih hrest (Nat.lt_of_succ_lt_succ hi)
          rw [hinsert, Nat.add_assoc, Nat.add_comm 1 i] at hlast
          exact hlast

theorem get?_collect_or (m : NameMap α) (values : List (Option String × α)) (name : String) :
    (m.collect values).get? name = m.get? name ∨
      ∃ (j : Nat) (hj : j < values.length), (values[j].1 = some name ∨ values[j].1 = none) ∧
        (m.collect values).get? name = some values[j].2 := by
  induction values generalizing m with
  | nil => exact .inl rfl
  | cons entry rest ih =>
      obtain ⟨name?, value⟩ := entry
      rcases ih (m.insert (nameAt m.size name?) value) with hget | ⟨j, hj, hname, hget⟩
      · by_cases hsame : name = nameAt m.size name?
        · refine .inr ⟨0, Nat.zero_lt_succ _, ?_, ?_⟩
          · cases name? with
            | none => exact .inr rfl
            | some own => exact .inl (congrArg some hsame.symm)
          · rw [hsame] at hget ⊢
            exact hget.trans (get?_insert_self m _ _)
        · exact .inl (hget.trans (get?_insert_of_ne m _ hsame))
      · exact .inr ⟨j + 1, Nat.succ_lt_succ hj, hname, hget⟩

/-- A value whose name no other one brings is replaced by later ones without a name only. -/
theorem get?_collect_named {i : Nat} (hi : i < values.length) (hname : values[i].1 = some name)
    (hdistinct : ∀ (j : Nat) (hj : j < values.length), values[j].1 = some name → j = i) :
    ∃ (j : Nat) (hj : j < values.length), i ≤ j ∧ (j = i ∨ values[j].1 = none) ∧
      (m.collect values).get? name = some values[j].2 := by
  induction values generalizing m i with
  | nil => cases hi
  | cons entry rest ih =>
      obtain ⟨name?, value⟩ := entry
      cases i with
      | zero =>
          cases hname
          rcases get?_collect_or (m.insert name value) rest name with hget | ⟨j, hj, hbrings, hget⟩
          · exact ⟨0, hi, Nat.le_refl _, .inl rfl, hget.trans (get?_insert_self m _ _)⟩
          · refine ⟨j + 1, Nat.succ_lt_succ hj, Nat.zero_le _, .inr ?_, hget⟩
            exact hbrings.resolve_left fun hother =>
              absurd (hdistinct (j + 1) (Nat.succ_lt_succ hj) hother) (Nat.succ_ne_zero j)
      | succ i =>
          obtain ⟨j, hj, hle, hbrings, hget⟩ := ih (m := m.insert (nameAt m.size name?) value)
            (Nat.lt_of_succ_lt_succ hi) hname fun j hj hother =>
              Nat.succ.inj (hdistinct (j + 1) (Nat.succ_lt_succ hj) hother)
          exact ⟨j + 1, Nat.succ_lt_succ hj, Nat.succ_le_succ hle,
            hbrings.imp_left (congrArg Nat.succ), hget⟩

theorem length_namesFrom (count : Nat) (values : List (Option String × α)) :
    (namesFrom count values).length = values.length := by
  induction values generalizing count with
  | nil => rfl
  | cons entry rest ih => simp [namesFrom, ih]

theorem getElem_namesFrom {count i : Nat} (hi : i < values.length)
    (hi' : i < (namesFrom count values).length) :
    (namesFrom count values)[i] = nameAt (count + i) values[i].1 := by
  induction values generalizing count i with
  | nil => cases hi
  | cons entry rest ih =>
      cases i with
      | zero => rfl
      | succ i =>
          have hrest := ih (Nat.lt_of_succ_lt_succ hi) (Nat.lt_of_succ_lt_succ hi')
          rw [Nat.add_right_comm] at hrest
          exact hrest

end NameMap

end ProbeLowering
