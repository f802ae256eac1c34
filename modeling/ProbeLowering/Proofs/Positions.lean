import ProbeLowering.Lowering.Workspace

/-!
# Positions in a program

The registry of a workspace holds for each name the position of an entry of the
program.  If these entries belong to their names (`Positions.Locate`), an entry that is
put in the place of the one of its name is found under this name and no other is lost.
For records, which `registerStruct` replaces or appends, this is
`StructsLocated.struct?_registerStruct`.
-/

namespace ProbeLowering

open Physical (Struct PerfBuffer)

/-- A registered name refers to an entry that belongs to the name. -/
def Positions.Locate {α : Type} (Belongs : String → α → Prop) (positions : Positions)
    (entries : List α) : Prop :=
  ∀ name i, positions.lookup name = some i →
    ∃ x, entries[i]? = some x ∧ Belongs name x

namespace Positions.Locate

variable {α : Type} {Belongs : String → α → Prop} {positions : Positions}
  {entries : List α} (h : Positions.Locate Belongs positions entries)

include h

theorem belongs {name : String} {i : Nat} {x : α} (hi : positions.lookup name = some i)
    (hx : entries[i]? = some x) : Belongs name x := by
  obtain ⟨y, hy, hname⟩ := h name i hi
  rw [hx] at hy
  cases hy
  exact hname

theorem append (more : List α) : Positions.Locate Belongs positions (entries ++ more) := by
  intro name i hi
  obtain ⟨x, hx, hname⟩ := h name i hi
  obtain ⟨hlt, -⟩ := List.getElem?_eq_some_iff.mp hx
  exact ⟨x, by rwa [List.getElem?_append_left hlt], hname⟩

theorem declare {name : String} {x : α} (hx : Belongs name x) :
    Positions.Locate Belongs ((name, entries.length) :: positions) (entries ++ [x]) := by
  intro other i hi
  rw [List.lookup_cons] at hi
  split at hi
  next heq =>
    obtain rfl := eq_of_beq heq
    cases hi
    exact ⟨x, by simp, hx⟩
  next => exact h.append [x] other i hi

section Injective

variable (hBelongs : ∀ {a b x}, Belongs a x → Belongs b x → a = b)

include hBelongs

theorem name_eq {a b : String} {i : Nat} (ha : positions.lookup a = some i)
    (hb : positions.lookup b = some i) : a = b := by
  obtain ⟨x, hx, hax⟩ := h a i ha
  exact hBelongs hax (h.belongs hb hx)

theorem getElem?_set {name other : String} {i j : Nat} {x : α}
    (hi : positions.lookup name = some i) (hj : positions.lookup other = some j) :
    (entries.set i x)[j]? = if name = other then some x else entries[j]? := by
  by_cases hname : name = other
  · subst hname
    obtain rfl : i = j := Option.some.inj (hi.symm.trans hj)
    obtain ⟨y, hy, -⟩ := h name i hi
    obtain ⟨hlt, -⟩ := List.getElem?_eq_some_iff.mp hy
    simp [hlt]
  · have hij : i ≠ j := by
      rintro rfl
      exact hname (h.name_eq hBelongs hi hj)
    rw [List.getElem?_set_ne hij, if_neg hname]

theorem set {name : String} {i : Nat} {x : α} (hi : positions.lookup name = some i)
    (hx : Belongs name x) : Positions.Locate Belongs positions (entries.set i x) := by
  intro other j hj
  rw [h.getElem?_set hBelongs hi hj]
  split
  next hname => exact ⟨x, rfl, hname ▸ hx⟩
  next => exact h other j hj

end Injective

end Positions.Locate

namespace Workspace

variable {w : Workspace} {name : String}

theorem map?_ok {index : Nat} {map : MapDecl} :
    w.map? name = .ok (index, map) ↔
      w.registry.maps.lookup name = some index ∧
        w.program.maps[index]? = some map := by
  unfold map?
  cases hlookup : w.registry.maps.lookup name with
  | none => simp
  | some i =>
      constructor
      · intro h
        cases hfound : w.program.maps[i]? with
        | none => simp [hfound] at h
        | some found =>
            obtain ⟨rfl, rfl⟩ : i = index ∧ found = map := by simpa [hfound] using h
            exact ⟨rfl, hfound⟩
      · rintro ⟨⟨⟩, hfound⟩
        simp [hfound]

theorem output?_ok {index : Nat} {buffer : PerfBuffer} :
    w.output? name = .ok (index, buffer) ↔
      w.registry.outputs.lookup name = some index ∧
        w.program.outputs[index]? = some buffer := by
  unfold output?
  cases hlookup : w.registry.outputs.lookup name with
  | none => simp
  | some i =>
      constructor
      · intro h
        cases hfound : w.program.outputs[i]? with
        | none => simp [hfound] at h
        | some found =>
            obtain ⟨rfl, rfl⟩ : i = index ∧ found = buffer := by simpa [hfound] using h
            exact ⟨rfl, hfound⟩
      · rintro ⟨⟨⟩, hfound⟩
        simp [hfound]

theorem struct?_ok {value : Struct} :
    w.struct? name = .ok value ↔
      ∃ index, w.registry.structs.lookup name = some index ∧
        w.program.structs[index]? = some value := by
  unfold struct?
  cases hlookup : w.registry.structs.lookup name with
  | none => simp
  | some i => cases hi : w.program.structs[i]? <;> simp [hi]

theorem exists_structs_registerStruct (w : Workspace) (value : Struct) :
    ∃ structs positions, w.registerStruct value =
      ⟨{ w.program with structs }, { w.registry with structs := positions }⟩ := by
  unfold registerStruct
  split
  · exact ⟨_, _, rfl⟩
  · exact ⟨_, _, rfl⟩

def StructsLocated (w : Workspace) : Prop :=
  w.registry.structs.Locate (fun name s => s.name = name) w.program.structs

namespace StructsLocated

variable (h : w.StructsLocated)

include h

theorem registerStruct (value : Struct) : (w.registerStruct value).StructsLocated := by
  unfold Workspace.registerStruct
  cases hlookup : w.registry.structs.lookup value.name with
  | some i => exact h.set (fun ha hb => ha.symm.trans hb) hlookup rfl
  | none => exact h.declare rfl

theorem struct?_registerStruct (value : Struct) (name : String) :
    (w.registerStruct value).struct? name =
      if value.name = name then .ok value else w.struct? name := by
  unfold Workspace.registerStruct
  cases hlookup : w.registry.structs.lookup value.name with
  | some i =>
      simp only [struct?]
      cases hother : w.registry.structs.lookup name with
      | none =>
          have hne : value.name ≠ name := by
            rintro rfl
            simp [hlookup] at hother
          simp [hne]
      | some j =>
          simp only [h.getElem?_set (fun ha hb => ha.symm.trans hb) hlookup hother]
          by_cases heq : value.name = name <;> simp [heq]
  | none =>
      by_cases heq : value.name = name
      · subst heq
        simp [struct?]
      · have hne : (name == value.name) = false := by simpa using Ne.symm heq
        simp only [heq, if_false, struct?, List.lookup_cons, hne]
        cases hother : w.registry.structs.lookup name with
        | none => rfl
        | some j =>
            obtain ⟨s, hs, -⟩ := h name j hother
            obtain ⟨hlt, -⟩ := List.getElem?_eq_some_iff.mp hs
            simp [List.getElem?_append_left hlt]

theorem names_registerStruct (value : Struct) :
    (w.registerStruct value).program.structs.map Struct.name =
      if (w.registry.structs.lookup value.name).isSome then w.program.structs.map Struct.name
      else w.program.structs.map Struct.name ++ [value.name] := by
  unfold Workspace.registerStruct
  cases hlookup : w.registry.structs.lookup value.name with
  | some i =>
      obtain ⟨old, hold, hname⟩ := h value.name i hlookup
      obtain ⟨hlt, rfl⟩ := List.getElem?_eq_some_iff.mp hold
      simp only [Option.isSome_some, if_true]
      rw [List.map_set, ← hname, ← List.getElem_map Struct.name, List.set_getElem_self]
      simpa using hlt
  | none => simp

end StructsLocated

end Workspace

end ProbeLowering
