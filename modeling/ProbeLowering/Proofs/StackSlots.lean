import Mathlib.Order.Bounds.Basic
import ProbeLowering.Dwarf.Location

/-!
# Slots on the stack

Slots are placed one after the other, and the layout keeps a single number: how far the
slots so far reach (`after_eq`).  A slot may give itself any offset, also a negative one or
one that is taken.  A slot that gives none is placed in free space: at the least multiple of
its alignment that no slot before it reaches beyond (`computed_slots`).
-/

namespace ProbeLowering.Dwarf

namespace StackLayout

structure Request where
  size : Int
  explicit? : Option Int
  deriving DecidableEq, Repr

structure Slot where
  offset : Int
  size : Int
  deriving DecidableEq, Repr

def Slot.finish (slot : Slot) : Int := slot.offset + slot.size

/-- How far the slots reach, from a start that is passed in any case. -/
def extent (start : Int) (taken : List Slot) : Int :=
  taken.foldl (fun reached slot => max reached slot.finish) start

def placeAt (layout : StackLayout) (r : Request) : Slot :=
  ⟨(layout.place r.size r.explicit?).1, r.size⟩

def behind (layout : StackLayout) (r : Request) : StackLayout :=
  (layout.place r.size r.explicit?).2

def slots : StackLayout → List Request → List Slot
  | _, [] => []
  | layout, r :: rest => layout.placeAt r :: slots (layout.behind r) rest

def after (layout : StackLayout) (requests : List Request) : StackLayout :=
  requests.foldl behind layout

section Runs

variable (layout : StackLayout) (requests : List Request) (i : Nat)

theorem getElem?_slots :
    (slots layout requests)[i]? = requests[i]?.map (layout.after (requests.take i)).placeAt := by
  induction requests generalizing layout i with
  | nil => rfl
  | cons r rest ih =>
      cases i with
      | zero => rfl
      | succ i => exact ih (layout.behind r) i

theorem slots_take : slots layout (requests.take i) = (slots layout requests).take i := by
  induction requests generalizing layout i with
  | nil => simp [slots]
  | cons r rest ih =>
      cases i with
      | zero => rfl
      | succ i => exact congrArg _ (ih (layout.behind r) i)

theorem behind_eq (r : Request) :
    layout.behind r = ⟨max layout.next (layout.placeAt r).finish⟩ :=
  rfl

/-- By induction on the requests: the layout keeps how far their slots reach. -/
theorem after_eq : layout.after requests = ⟨extent layout.next (slots layout requests)⟩ := by
  induction requests generalizing layout with
  | nil => rfl
  | cons r rest ih =>
      rw [after, List.foldl_cons, ← after, ih, behind_eq]
      rfl

end Runs

theorem extent_le_iff {start n : Int} {taken : List Slot} :
    extent start taken ≤ n ↔ start ≤ n ∧ ∀ slot ∈ taken, slot.finish ≤ n := by
  induction taken generalizing start with
  | nil => simp [extent]
  | cons slot rest ih =>
      rw [extent, List.foldl_cons, ← extent, ih, Int.max_le, List.forall_mem_cons, and_assoc]

theorem alignment_eq (size : Int) : alignment size = min (max size 1) 8 := by
  unfold alignment
  omega

theorem alignment_pos (size : Int) : 0 < alignment size := by
  unfold alignment
  omega

/-- The quotient is rounded towards zero, so this takes an offset that is not negative. -/
theorem alignUp_isLeast {offset align : Int} (hoffset : 0 ≤ offset) (halign : 0 < align) :
    IsLeast {n | align ∣ n ∧ offset ≤ n} (alignUp offset align) := by
  have hround : alignUp offset align = (offset + align - 1) / align * align := by
    rw [alignUp, Int.tdiv_eq_ediv_of_nonneg (by omega)]
  have hdiv := Int.ediv_mul_add_emod (offset + align - 1) align
  have hmod := Int.emod_lt_of_pos (offset + align - 1) halign
  refine ⟨⟨hround ▸ Int.dvd_mul_left _ align, by omega⟩, ?_⟩
  rintro _ ⟨⟨k, rfl⟩, hk⟩
  have hle : (offset + align - 1) / align ≤ k := by
    refine Int.lt_add_one_iff.mp (Int.ediv_lt_of_lt_mul halign ?_)
    rw [Int.add_mul, Int.one_mul, Int.mul_comm k]
    omega
  rw [hround, Int.mul_comm align k]
  exact Int.mul_le_mul_of_nonneg_right hle halign.le

/-- The least multiple of the alignment for the size that no slot reaches beyond. -/
def freeOffset (taken : List Slot) (size : Int) : Int :=
  alignUp (extent 0 taken) (alignment size)

theorem freeOffset_isLeast (taken : List Slot) (size : Int) :
    IsLeast {n | min (max size 1) 8 ∣ n ∧ extent 0 taken ≤ n} (freeOffset taken size) := by
  have hstart : 0 ≤ extent 0 taken := (extent_le_iff.mp le_rfl).1
  rw [← alignment_eq]
  exact alignUp_isLeast hstart (alignment_pos size)

theorem slots_of_request {requests : List Request} {i : Nat} {r : Request}
    (h : requests[i]? = some r) :
    (slots {} requests)[i]? =
      some ⟨r.explicit?.getD (freeOffset ((slots {} requests).take i) r.size), r.size⟩ := by
  rw [getElem?_slots, h, after_eq, slots_take]
  rfl

/--
Whatever is placed before it, a slot that gives no offset starts at the least multiple of its
alignment that is not below zero and the ends of all slots before it.  So it overlaps none
of them.  The other slots are where they say.
-/
theorem computed_slots (requests : List Request) (i : Nat) (size : Int) :
    (∀ n, requests[i]? = some ⟨size, some n⟩ → (slots {} requests)[i]? = some ⟨n, size⟩) ∧
      (requests[i]? = some ⟨size, none⟩ →
        ∃ offset, (slots {} requests)[i]? = some ⟨offset, size⟩ ∧ 0 ≤ offset ∧
          (∀ slot ∈ (slots {} requests).take i, slot.offset + slot.size ≤ offset) ∧
          IsLeast {n | min (max size 1) 8 ∣ n ∧ extent 0 ((slots {} requests).take i) ≤ n}
            offset) := by
  refine ⟨fun n h => slots_of_request h, fun h => ?_⟩
  have hleast := freeOffset_isLeast ((slots {} requests).take i) size
  obtain ⟨hzero, hbehind⟩ := extent_le_iff.mp hleast.1.2
  exact ⟨_, slots_of_request h, hzero, hbehind, hleast⟩

def mixedRequests : List Request := [⟨1, none⟩, ⟨8, some (-16)⟩, ⟨8, some 3⟩, ⟨4, none⟩]

theorem computed_slots_mixedRequests :
    mixedRequests[2]? = some ⟨8, some 3⟩ ∧ mixedRequests[3]? = some ⟨4, none⟩ ∧
      slots {} mixedRequests = [⟨0, 1⟩, ⟨-16, 8⟩, ⟨3, 8⟩, ⟨12, 4⟩] ∧
      (∀ slot ∈ [(⟨0, 1⟩ : Slot), ⟨-16, 8⟩, ⟨3, 8⟩], slot.offset + slot.size ≤ 12) ∧
      IsLeast {n : Int | 4 ∣ n ∧ 11 ≤ n} 12 := by
  have hslots : slots {} mixedRequests = [⟨0, 1⟩, ⟨-16, 8⟩, ⟨3, 8⟩, ⟨12, 4⟩] := by decide
  have hextent : extent 0 ((slots {} mixedRequests).take 3) = 11 := by decide
  obtain ⟨offset, hoffset, -, hbehind, hleast⟩ := (computed_slots mixedRequests 3 4).2 rfl
  rw [hslots] at hoffset hbehind
  obtain rfl : 12 = offset := (Slot.mk.inj (Option.some.inj hoffset)).1
  rw [hextent] at hleast
  exact ⟨rfl, rfl, hslots, hbehind, hleast⟩

end StackLayout

end ProbeLowering.Dwarf
