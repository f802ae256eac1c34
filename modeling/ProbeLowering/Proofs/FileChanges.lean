import Mathlib.Tactic.SplitIfs
import ProbeLowering.Files.Tree

/-!
# Changes of a tree of files

What a path leads to changes only where a file is written: a new file makes no directory,
since the walk to its place found all of them there.  `FileTree.AgreesApart` says which
files may differ between a tree and a later one; every path leads to the same place in
both.
-/

namespace ProbeLowering

namespace FileTree

variable {tree after last : FileTree} {path : String} {location target : Location}
  {bytes : ByteArray}

def at? (tree : FileTree) (path : String) : Entry :=
  match tree.locate path with
  | .ok location => tree.entryAt location
  | .error _ => .missing

def SameFile (tree : FileTree) (path path' : String) : Prop :=
  ∃ location, tree.locate path = .ok location ∧ tree.locate path' = .ok location

def HasParents (tree : FileTree) (location : Location) : Prop :=
  ∀ parent, parent <+: location → parent ≠ location → tree.entryAt parent = .directory

theorem hasParents_of_walk {names : List String} (hlocation : tree.HasParents location)
    (h : tree.walk location names = .ok target) : tree.HasParents target := by
  induction names generalizing location with
  | nil =>
      cases h
      exact hlocation
  | cons name rest ih =>
      unfold walk at h
      split at h
      next => cases h
      next => cases h
      next hdirectory =>
        split at h
        next => exact ih hlocation h
        next =>
          split at h
          next =>
            split at h
            next => cases h
            next hroot =>
              refine ih (fun parent hwithin hne => ?_) h
              refine hlocation parent (hwithin.trans (List.dropLast_prefix _)) ?_
              rintro rfl
              have hlength := hwithin.length_le
              rw [List.length_dropLast] at hlength
              have hnonempty : parent ≠ [] := by simpa using hroot
              have hpos := List.length_pos_iff.mpr hnonempty
              omega
          next =>
            refine ih (fun parent hwithin hne => ?_) h
            rcases List.prefix_concat_iff.mp hwithin with heq | hwithin
            · exact absurd heq hne
            · by_cases heq : parent = location
              · rw [heq, hdirectory]
              · exact hlocation parent hwithin heq

theorem hasParents_of_locate (h : tree.locate path = .ok location) :
    tree.HasParents location := by
  unfold locate at h
  split at h
  next =>
    refine hasParents_of_walk (fun parent hwithin hne => ?_) h
    exact absurd (List.prefix_nil.mp hwithin) hne
  next => cases h

theorem bytesAt?_put_self : (tree.put target bytes).bytesAt? target = some bytes := by
  simp [bytesAt?, put]

theorem lookup_filter_of_ne (files : List (Location × ByteArray)) (h : location ≠ target) :
    (files.filter fun file => file.1 != target).lookup location = files.lookup location := by
  induction files with
  | nil => rfl
  | cons file rest ih =>
      obtain ⟨place, content⟩ := file
      by_cases hplace : place = target
      · have hother : (location == place) = false := by simpa [hplace] using h
        rw [List.filter_cons_of_neg (by simp [hplace]), ih, List.lookup_cons, hother]
      · rw [List.filter_cons_of_pos (by simp [hplace]), List.lookup_cons, List.lookup_cons, ih]

theorem bytesAt?_put_of_ne (h : location ≠ target) :
    (tree.put target bytes).bytesAt? location = tree.bytesAt? location := by
  unfold bytesAt? put
  rw [List.lookup_cons, beq_false_of_ne h]
  exact lookup_filter_of_ne tree.files h

theorem isDirectory_iff : tree.isDirectory location = true ↔
    location = [] ∨ ∃ file ∈ tree.files, location <+: file.1 ∧ location ≠ file.1 := by
  have hbelow : ∀ place : Location, location.length < place.length ∧ location <+: place ↔
      location <+: place ∧ location ≠ place := by
    intro place
    constructor
    · rintro ⟨hlength, hwithin⟩
      exact ⟨hwithin, fun heq => by simp [heq] at hlength⟩
    · rintro ⟨hwithin, hne⟩
      exact ⟨Nat.lt_of_le_of_ne hwithin.length_le fun heq => hne (hwithin.eq_of_length heq),
        hwithin⟩
  simp [isDirectory, hbelow, -Prod.exists]

theorem isDirectory_of_entryAt (h : tree.entryAt location = .directory) :
    tree.bytesAt? location = none ∧ tree.isDirectory location = true := by
  unfold entryAt at h
  split at h
  next => cases h
  next hbytes =>
    split at h
    next hdirectory => exact ⟨hbytes, hdirectory⟩
    next => cases h

/-- A new file adds no directory, since there were all directories on the way to it. -/
theorem isDirectory_put (hparents : tree.HasParents target) :
    (tree.put target bytes).isDirectory location = tree.isDirectory location := by
  rw [Bool.eq_iff_iff, isDirectory_iff]
  constructor
  · rintro (hroot | ⟨file, hmem, hwithin, hne⟩)
    · exact isDirectory_iff.mpr (.inl hroot)
    · rcases List.mem_cons.mp hmem with rfl | hmem
      · exact (isDirectory_of_entryAt (hparents location hwithin hne)).2
      · exact isDirectory_iff.mpr (.inr ⟨file, (List.mem_filter.mp hmem).1, hwithin, hne⟩)
  · intro h
    rcases isDirectory_iff.mp h with hroot | ⟨file, hmem, hwithin, hne⟩
    · exact .inl hroot
    · refine .inr ?_
      by_cases hfile : file.1 = target
      · exact ⟨_, List.mem_cons_self, hfile ▸ hwithin, hfile ▸ hne⟩
      · exact ⟨file, List.mem_cons_of_mem _ (List.mem_filter.mpr ⟨hmem, by simpa using hfile⟩),
          hwithin, hne⟩

theorem entryAt_put_self : (tree.put target bytes).entryAt target = .file bytes := by
  rw [entryAt, bytesAt?_put_self]

theorem entryAt_put_of_ne (hparents : tree.HasParents target) (h : location ≠ target) :
    (tree.put target bytes).entryAt location = tree.entryAt location := by
  rw [entryAt, bytesAt?_put_of_ne h, isDirectory_put hparents, entryAt]

/-! ## Trees that agree -/

/-- Only the files at these places differ, and there is no other directory. -/
structure AgreesApart (spared : Location → Prop) (tree after : FileTree) : Prop where
  root : after.root = tree.root
  directory : ∀ location,
    after.entryAt location = .directory ↔ tree.entryAt location = .directory
  entry : ∀ location, ¬ spared location → after.entryAt location = tree.entryAt location

variable {spared : Location → Prop}

theorem agreesApart_self : tree.AgreesApart spared tree :=
  ⟨rfl, fun _ => Iff.rfl, fun _ _ => rfl⟩

theorem AgreesApart.trans (h : tree.AgreesApart spared after)
    (h' : after.AgreesApart spared last) : tree.AgreesApart spared last where
  root := h'.root.trans h.root
  directory location := (h'.directory location).trans (h.directory location)
  entry location hspared := (h'.entry location hspared).trans (h.entry location hspared)

theorem AgreesApart.mono {spared' : Location → Prop} (h : tree.AgreesApart spared after)
    (himp : ∀ location, spared location → spared' location) :
    tree.AgreesApart spared' after where
  root := h.root
  directory := h.directory
  entry location hspared := h.entry location fun hin => hspared (himp location hin)

theorem walk_ok_cons {name : String} {rest : List String} :
    tree.walk location (name :: rest) = .ok target ↔
      tree.entryAt location = .directory ∧
        (if name = "" ∨ name = "." then tree.walk location rest
          else if name = ".." then
            if location.isEmpty then .error missingFile else tree.walk location.dropLast rest
          else tree.walk (location ++ [name]) rest) = .ok target := by
  rw [walk]
  split
  next h => simp [h]
  next h => simp [h]
  next h => simp [h]

theorem AgreesApart.walk_ok_iff (h : tree.AgreesApart spared after) {names : List String} :
    after.walk location names = .ok target ↔ tree.walk location names = .ok target := by
  induction names generalizing location with
  | nil => rfl
  | cons name rest ih =>
      rw [walk_ok_cons, walk_ok_cons, h.directory]
      split_ifs <;> simp [ih]

theorem AgreesApart.locate_ok_iff (h : tree.AgreesApart spared after) :
    after.locate path = .ok location ↔ tree.locate path = .ok location := by
  have hrelative : after.relative? path = tree.relative? path := by
    rw [relative?, relative?, h.root]
  unfold locate
  rw [hrelative]
  split
  next => exact h.walk_ok_iff
  next => rfl

theorem AgreesApart.at?_eq (h : tree.AgreesApart spared after)
    (hspared : ∀ location, tree.locate path = .ok location → ¬ spared location) :
    after.at? path = tree.at? path := by
  unfold at?
  cases hlocate : tree.locate path with
  | ok location =>
      rw [h.locate_ok_iff.mpr hlocate]
      exact h.entry location (hspared location hlocate)
  | error e =>
      cases hafter : after.locate path with
      | ok location =>
          rw [h.locate_ok_iff.mp hafter] at hlocate
          cases hlocate
      | error e' => rfl

theorem agreesApart_put (hparents : tree.HasParents target)
    (hentry : tree.entryAt target ≠ .directory) (hspared : spared target) :
    tree.AgreesApart spared (tree.put target bytes) where
  root := rfl
  directory location := by
    by_cases heq : location = target
    · subst heq
      simp [entryAt_put_self, hentry]
    · rw [entryAt_put_of_ne hparents heq]
  entry location hlocation := by
    refine entryAt_put_of_ne hparents ?_
    rintro rfl
    exact hlocation hspared

def contents? (tree : FileTree) (path : String) : Option ByteArray :=
  match tree.at? path with
  | .file bytes => some bytes
  | _ => none

theorem toOption_read : (tree.read path).toOption = tree.contents? path := by
  unfold read contents? at?
  cases tree.locate path with
  | error e => rfl
  | ok location => cases hentry : tree.entryAt location <;> simp [hentry, Except.toOption]

theorem write_ok (h : tree.write path bytes = .ok after) :
    ∃ location, tree.locate path = .ok location ∧ tree.entryAt location ≠ .directory ∧
      after = tree.put location bytes := by
  unfold write at h
  split at h
  next => cases h
  next location hlocate =>
    split at h
    next => cases h
    next hentry =>
      cases h
      exact ⟨location, hlocate, hentry, rfl⟩

def Writable (tree : FileTree) (path : String) : Prop :=
  ∃ location, tree.locate path = .ok location ∧ tree.entryAt location ≠ .directory

theorem Writable.exists_write (h : tree.Writable path) (bytes : ByteArray) :
    ∃ written, tree.write path bytes = .ok written := by
  obtain ⟨location, hlocate, hentry⟩ := h
  rw [write, hlocate]
  cases hkind : tree.entryAt location with
  | directory => exact absurd hkind hentry
  | missing => simp [hkind]
  | file content => simp [hkind]

theorem AgreesApart.writable_iff (h : tree.AgreesApart spared after) :
    after.Writable path ↔ tree.Writable path := by
  simp only [Writable, h.locate_ok_iff, ne_eq, h.directory]

def Places (tree : FileTree) (paths : List String) (location : Location) : Prop :=
  ∃ path ∈ paths, tree.locate path = .ok location

theorem AgreesApart.sameFile_iff {path' : String} (h : tree.AgreesApart spared after) :
    after.SameFile path path' ↔ tree.SameFile path path' := by
  simp only [SameFile, h.locate_ok_iff]

theorem AgreesApart.places_iff {paths : List String} (h : tree.AgreesApart spared after) :
    after.Places paths location ↔ tree.Places paths location := by
  simp only [Places, h.locate_ok_iff]

theorem AgreesApart.of_subset {paths paths' : List String}
    (h : tree.AgreesApart (tree.Places paths) after) (hsubset : paths ⊆ paths') :
    tree.AgreesApart (tree.Places paths') after :=
  h.mono fun _ ⟨path, hmem, hlocate⟩ => ⟨path, hsubset hmem, hlocate⟩

/-- After the first change the same paths lead to the same places. -/
theorem AgreesApart.followed {paths : List String}
    (h : tree.AgreesApart (tree.Places paths) after)
    (h' : after.AgreesApart (after.Places paths) last) :
    tree.AgreesApart (tree.Places paths) last :=
  h.trans (h'.mono fun _ hplace => h.places_iff.mp hplace)

theorem agreesApart_of_write (h : tree.write path bytes = .ok after) :
    tree.AgreesApart (tree.Places [path]) after := by
  obtain ⟨location, hlocate, hentry, rfl⟩ := write_ok h
  exact agreesApart_put (hasParents_of_locate hlocate) hentry
    ⟨path, List.mem_cons_self, hlocate⟩

theorem contents?_of_write (h : tree.write path bytes = .ok after) :
    after.contents? path = some bytes := by
  have hagrees := agreesApart_of_write h
  obtain ⟨location, hlocate, -, rfl⟩ := write_ok h
  rw [contents?, at?, hagrees.locate_ok_iff.mpr hlocate]
  simp [entryAt_put_self]

theorem agreesApart_append (tree : FileTree) (path text : String) :
    tree.AgreesApart (tree.Places [path]) (tree.append path text) := by
  unfold append
  split
  next => exact agreesApart_self
  next location hlocate =>
    split
    next hentry =>
      exact agreesApart_put (hasParents_of_locate hlocate) (by rw [hentry]; simp)
        ⟨path, List.mem_cons_self, hlocate⟩
    next => exact agreesApart_self

end FileTree

end ProbeLowering
