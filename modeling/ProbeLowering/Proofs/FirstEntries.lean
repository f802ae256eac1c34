import ProbeLowering.Dwarf.Facts
import ProbeLowering.Proofs.TypeChains

/-!
# First entries

Lookups go through listings, which end where something cannot be decoded.  A search that
decides a property of the entries comes to the first entry that has it, in the order of the
units and depth first in each, and it finds nothing only if no entry has it
(`Decides.lookup_iff`).
-/

namespace ProbeLowering.Dwarf

open DebugInfo (LookupError)

namespace Listing

variable {α β : Type}

def IsFirst (l : Listing α) (p : α → Prop) (x : α) : Prop :=
  ∃ before after, l.items = before ++ x :: after ∧ (∀ y ∈ before, ¬ p y) ∧ p x

variable {l : Listing α} {p : α → Prop} {x : α}

theorem IsFirst.mem (h : l.IsFirst p x) : x ∈ l.items := by
  obtain ⟨before, after, hitems, -, -⟩ := h
  rw [hitems]
  exact List.mem_append_right _ List.mem_cons_self

theorem IsFirst.holds (h : l.IsFirst p x) : p x := by
  obtain ⟨before, after, -, -, hx⟩ := h
  exact hx

theorem exists_isFirst (hmem : x ∈ l.items) (hx : p x) : ∃ y, l.IsFirst p y := by
  classical
  obtain ⟨y, hy⟩ : ∃ y, l.items.find? (fun y => decide (p y)) = some y :=
    Option.isSome_iff_exists.mp (List.find?_isSome.mpr ⟨x, hmem, by simpa using hx⟩)
  obtain ⟨hp, before, after, hitems, hbefore⟩ := List.find?_eq_some_iff_append.mp hy
  exact ⟨y, before, after, hitems, fun z hz => by simpa using hbefore z hz, by simpa using hp⟩

theorem items_findM?_append {test : α → Except Fault Bool} {before rest : List α}
    (h : ∀ y ∈ before, test y = .ok false) :
    (before ++ rest).findM? test = rest.findM? test := by
  induction before with
  | nil => rfl
  | cons y before ih =>
      rw [List.forall_mem_cons] at h
      rw [List.cons_append, List.findM?, h.1]
      exact ih h.2

theorem items_findSomeM?_append {test : α → Except Fault (Option β)} {before rest : List α}
    (h : ∀ y ∈ before, test y = .ok none) :
    (before ++ rest).findSomeM? test = rest.findSomeM? test := by
  induction before with
  | nil => rfl
  | cons y before ih =>
      rw [List.forall_mem_cons] at h
      rw [List.cons_append, List.findSomeM?, h.1]
      exact ih h.2

theorem exists_split_of_items_findSomeM? {test : α → Except Fault (Option β)} {items : List α}
    {found : β} (h : items.findSomeM? test = .ok (some found)) :
    ∃ before y after, items = before ++ y :: after ∧ (∀ z ∈ before, test z = .ok none) ∧
      test y = .ok (some found) := by
  induction items with
  | nil => cases h
  | cons y rest ih =>
      rw [List.findSomeM?] at h
      obtain ⟨result, hy, h⟩ := exists_ok_of_bind h
      cases result with
      | some result =>
          cases h
          exact ⟨[], y, rest, rfl, List.forall_mem_nil _, hy⟩
      | none =>
          obtain ⟨before, z, after, rfl, hbefore, hz⟩ := ih h
          exact ⟨y :: before, z, after, rfl, List.forall_mem_cons.mpr ⟨hy, hbefore⟩, hz⟩

theorem exists_split_of_findSomeM? {test : α → Except Fault (Option β)} {found : β}
    (h : l.findSomeM? test = .ok (some found)) :
    ∃ before y after, l.items = before ++ y :: after ∧ (∀ z ∈ before, test z = .ok none) ∧
      test y = .ok (some found) := by
  obtain ⟨result, hresult, h⟩ := exists_ok_of_bind h
  cases result with
  | some result =>
      cases h
      exact exists_split_of_items_findSomeM? hresult
  | none =>
      dsimp only at h
      split at h <;> cases h

theorem items_findM?_spec {test : α → Except Fault Bool} {items : List α} {found? : Option α}
    (h : items.findM? test = .ok found?) :
    match found? with
    | none => ∀ y ∈ items, test y = .ok false
    | some x => ∃ before after, items = before ++ x :: after ∧ (∀ y ∈ before, test y = .ok false) ∧
        test x = .ok true := by
  induction items with
  | nil =>
      cases h
      exact List.forall_mem_nil _
  | cons y rest ih =>
      rw [List.findM?] at h
      obtain ⟨passes, hy, h⟩ := exists_ok_of_bind h
      cases passes with
      | true =>
          cases h
          exact ⟨[], rest, rfl, List.forall_mem_nil _, hy⟩
      | false =>
          have hrest := ih h
          cases found? with
          | none => exact List.forall_mem_cons.mpr ⟨hy, hrest⟩
          | some x =>
              obtain ⟨before, after, rfl, hbefore, hx⟩ := hrest
              exact ⟨y :: before, after, rfl, List.forall_mem_cons.mpr ⟨hy, hbefore⟩, hx⟩

theorem isFirst_of_findM? {test : α → Except Fault Bool} (h : l.findM? test = .ok (some x)) :
    l.IsFirst (fun y => test y = .ok true) x := by
  obtain ⟨result, hresult, h⟩ := exists_ok_of_bind h
  cases result with
  | some result =>
      cases h
      obtain ⟨before, after, hitems, hbefore, hx⟩ := items_findM?_spec hresult
      exact ⟨before, after, hitems, fun y hy => by simp [hbefore y hy], hx⟩
  | none =>
      dsimp only at h
      split at h <;> cases h

theorem not_of_findM? {test : α → Except Fault Bool} (h : l.findM? test = .ok none) :
    ∀ y ∈ l.items, ¬ test y = .ok true := by
  obtain ⟨result, hresult, h⟩ := exists_ok_of_bind h
  cases result with
  | some result => cases h
  | none => exact fun y hy => by simp [items_findM?_spec hresult y hy]

theorem findM?_of_isFirst {test : α → Except Fault Bool} (hfirst : l.IsFirst p x)
    (hfails : ∀ y ∈ l.items, ¬ p y → test y = .ok false) (hpasses : test x = .ok true) :
    l.findM? test = .ok (some x) := by
  obtain ⟨before, after, hitems, hbefore, -⟩ := hfirst
  have htests : ∀ y ∈ before, test y = .ok false := fun y hy =>
    hfails y (hitems ▸ List.mem_append_left _ hy) (hbefore y hy)
  rw [findM?, hitems, items_findM?_append htests, List.findM?, hpasses]
  rfl

theorem findM?_of_forall {test : α → Except Fault Bool}
    (hfails : ∀ y ∈ l.items, test y = .ok false) (hfault : l.fault = none) :
    l.findM? test = .ok none := by
  have hitems : (l.items ++ []).findM? test = [].findM? test := items_findM?_append hfails
  rw [List.append_nil] at hitems
  rw [findM?, hitems, hfault]
  rfl

theorem findSomeM?_of_split {test : α → Except Fault (Option β)} {before after : List α}
    {found : β} (hitems : l.items = before ++ x :: after)
    (hbefore : ∀ y ∈ before, test y = .ok none) (hx : test x = .ok (some found)) :
    l.findSomeM? test = .ok (some found) := by
  rw [findSomeM?, hitems, items_findSomeM?_append hbefore, List.findSomeM?, hx]
  rfl

theorem findSomeM?_of_forall {test : α → Except Fault (Option β)}
    (hnone : ∀ y ∈ l.items, test y = .ok none) (hfault : l.fault = none) :
    l.findSomeM? test = .ok none := by
  have hitems : (l.items ++ []).findSomeM? test = [].findSomeM? test :=
    items_findSomeM?_append hnone
  rw [List.append_nil] at hitems
  rw [findSomeM?, hitems, hfault]
  rfl

end Listing

/-! ## First entries -/

/-- The first entry with the property, in the order of the units and depth first in its unit. -/
def FirstEntry (units : Listing CompilationUnit) (p : CompilationUnit → Die → Prop)
    (unit : CompilationUnit) (die : Die) : Prop :=
  units.IsFirst (fun unit => ∃ die ∈ unit.entries.items, p unit die) unit ∧
    unit.entries.IsFirst (p unit) die

/-- All entries can be gone through, and of each the test says whether it has the property. -/
structure Decides (units : Listing CompilationUnit)
    (test : CompilationUnit → Die → Except Fault Bool) (p : CompilationUnit → Die → Prop) :
    Prop where
  complete : ∀ unit ∈ units.items, unit.entries.fault = none
  passes : ∀ unit ∈ units.items, ∀ die ∈ unit.entries.items, p unit die → test unit die = .ok true
  fails : ∀ unit ∈ units.items, ∀ die ∈ unit.entries.items,
    ¬ p unit die → test unit die = .ok false

section Entries

variable {units : Listing CompilationUnit} {unit : CompilationUnit} {die : Die}
  {test : CompilationUnit → Die → Except Fault Bool} {p : CompilationUnit → Die → Prop}

theorem exists_firstEntry (hunit : unit ∈ units.items) (hdie : die ∈ unit.entries.items)
    (hp : p unit die) : ∃ unit die, FirstEntry units p unit die := by
  obtain ⟨first, hfirst⟩ := Listing.exists_isFirst
    (p := fun unit => ∃ die ∈ unit.entries.items, p unit die) hunit ⟨die, hdie, hp⟩
  have ⟨_, _, _, _, entry, hentry, hentryHolds⟩ := hfirst
  obtain ⟨found, hfound⟩ := Listing.exists_isFirst hentry hentryHolds
  exact ⟨first, found, hfirst, hfound⟩

/-- What is found is the first entry that passes, whether or not the test decides a property. -/
theorem firstEntry_of_findDie? (h : findDie? units test = .ok (some (unit, die))) :
    FirstEntry units (fun unit die => test unit die = .ok true) unit die := by
  obtain ⟨before, found, after, hunits, hbefore, hfound⟩ := Listing.exists_split_of_findSomeM? h
  obtain ⟨die?, hdie, hfound⟩ := exists_ok_of_bind hfound
  cases die? with
  | none => cases hfound
  | some die =>
      cases hfound
      have hfirst := Listing.isFirst_of_findM? hdie
      refine ⟨⟨before, after, hunits, fun earlier hearlier => ?_, _, hfirst.mem, hfirst.holds⟩,
        hfirst⟩
      obtain ⟨earlier?, hsearch, hnone⟩ := exists_ok_of_bind (hbefore earlier hearlier)
      cases earlier? with
      | some _ => cases hnone
      | none =>
          rintro ⟨die, hdie, htest⟩
          exact Listing.not_of_findM? hsearch die hdie htest

theorem findDie?_of_split {before after : List CompilationUnit}
    (hunits : units.items = before ++ unit :: after)
    (hbefore : ∀ earlier ∈ before, earlier.entries.findM? (test earlier) = .ok none)
    (hfound : unit.entries.findM? (test unit) = .ok (some die)) :
    findDie? units test = .ok (some (unit, die)) := by
  refine Listing.findSomeM?_of_split hunits (fun earlier hearlier => ?_) ?_
  · rw [hbefore earlier hearlier]
    rfl
  · rw [hfound]
    rfl

def Listing.only {α : Type} (l : Listing α) (h : l.items.length = 1) : α :=
  l.items.get ⟨0, by omega⟩

theorem Listing.items_eq_only {α : Type} {l : Listing α} (h : l.items.length = 1) :
    l.items = [l.only h] := by
  obtain ⟨x, hx⟩ := List.length_eq_one_iff.mp h
  simp [only, hx]

theorem findDie?_of_singleton (hunits : units.items = [unit])
    (hfound : unit.entries.findM? (test unit) = .ok (some die)) :
    findDie? units test = .ok (some (unit, die)) :=
  findDie?_of_split (hunits.trans (List.nil_append _).symm) (List.forall_mem_nil _) hfound

theorem findFunction_of_singleton {symbol : String} (hunits : units.items = [unit])
    (hfound : unit.entries.findM? (isFunction symbol unit) = .ok (some die)) :
    findFunction units symbol = .ok (unit, die) := by
  rw [findFunction, findDie?_of_singleton hunits hfound]
  rfl

theorem findRecord_of_singleton {name : String} (hunits : units.items = [unit])
    (hfound : unit.entries.findM? (isRecord name unit) = .ok (some die)) :
    findRecord units name = .ok (unit, die) := by
  rw [findRecord, findDie?_of_singleton hunits hfound]
  rfl

theorem Decides.findM?_eq_none (h : Decides units test p) (hunit : unit ∈ units.items)
    (hnone : ∀ die ∈ unit.entries.items, ¬ p unit die) :
    unit.entries.findM? (test unit) = .ok none :=
  Listing.findM?_of_forall (fun die hdie => h.fails unit hunit die hdie (hnone die hdie))
    (h.complete unit hunit)

theorem Decides.findDie?_of_first (h : Decides units test p)
    (hfirst : FirstEntry units p unit die) : findDie? units test = .ok (some (unit, die)) := by
  have hunit := hfirst.1.mem
  have hdie := hfirst.2.mem
  obtain ⟨⟨before, after, hunits, hbefore, -⟩, hentry⟩ := hfirst
  refine findDie?_of_split hunits (fun earlier hearlier => ?_) ?_
  · exact h.findM?_eq_none (hunits ▸ List.mem_append_left _ hearlier)
      fun die hdie hp => hbefore earlier hearlier ⟨die, hdie, hp⟩
  · exact Listing.findM?_of_isFirst hentry (h.fails unit hunit)
      (h.passes unit hunit die hdie hentry.holds)

theorem Decides.findDie?_of_forall (h : Decides units test p) (hcomplete : units.fault = none)
    (hnone : ∀ unit ∈ units.items, ∀ die ∈ unit.entries.items, ¬ p unit die) :
    findDie? units test = .ok none := by
  refine Listing.findSomeM?_of_forall (fun unit hunit => ?_) hcomplete
  rw [h.findM?_eq_none hunit (hnone unit hunit)]
  rfl

/-- A lookup comes to the first entry with the property, and misses it only if there is none. -/
theorem Decides.lookup_iff (h : Decides units test p) (hcomplete : units.fault = none)
    (lookup : Except LookupError (CompilationUnit × Die)) (missing : LookupError)
    (hlookup : lookup = decoded (findDie? units test) >>= fun found? =>
      match found? with
      | some found => pure found
      | none => throw missing) :
    (∀ unit die, lookup = .ok (unit, die) ↔ FirstEntry units p unit die) ∧
      (lookup = .error missing ↔
        ∀ unit ∈ units.items, ∀ die ∈ unit.entries.items, ¬ p unit die) := by
  by_cases hany : ∃ unit ∈ units.items, ∃ die ∈ unit.entries.items, p unit die
  · obtain ⟨unit, hunit, die, hdie, hp⟩ := hany
    obtain ⟨first, entry, hfirst⟩ := exists_firstEntry hunit hdie hp
    have hfound : lookup = .ok (first, entry) := by
      rw [hlookup, h.findDie?_of_first hfirst]
      rfl
    refine ⟨fun unit die => ⟨fun hother => ?_, fun hother => ?_⟩, ?_⟩
    · cases hfound.symm.trans hother
      exact hfirst
    · rw [hlookup, h.findDie?_of_first hother]
      rfl
    · rw [hfound]
      exact iff_of_false nofun fun hnone => hnone unit hunit die hdie hp
  · have hnone : ∀ unit ∈ units.items, ∀ die ∈ unit.entries.items, ¬ p unit die :=
      fun unit hunit die hdie hp => hany ⟨unit, hunit, die, hdie, hp⟩
    have hmissing : lookup = .error missing := by
      rw [hlookup, h.findDie?_of_forall hcomplete hnone]
      rfl
    rw [hmissing]
    refine ⟨fun unit die => iff_of_false nofun fun hfirst => ?_, iff_of_true rfl hnone⟩
    exact hnone unit hfirst.1.mem die hfirst.2.mem hfirst.2.holds

end Entries

end ProbeLowering.Dwarf
