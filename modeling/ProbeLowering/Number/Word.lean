/-!
# Words

Offsets are integers of 64 bits with a sign.  A sum that leaves them wraps around, where
overflow is not checked.
-/

namespace ProbeLowering

def FitsInt64 (n : Int) : Prop :=
  -0x8000000000000000 ≤ n ∧ n < 0x8000000000000000

instance (n : Int) : Decidable (FitsInt64 n) := inferInstanceAs (Decidable (_ ∧ _))

/-- The integer of 64 bits that differs by a multiple of 2^64. -/
def wrapInt64 (n : Int) : Int := n.bmod 0x10000000000000000

@[simp] theorem wrapInt64_zero : wrapInt64 0 = 0 := rfl

theorem wrapInt64_add (n k : Int) : wrapInt64 (wrapInt64 n + k) = wrapInt64 (n + k) :=
  Int.bmod_add_bmod

theorem wrapInt64_add_wrapInt64 (n k : Int) : wrapInt64 (n + wrapInt64 k) = wrapInt64 (n + k) :=
  Int.add_bmod_bmod

theorem wrapInt64_add_right {n k : Int} (h : wrapInt64 n = wrapInt64 k) (m : Int) :
    wrapInt64 (n + m) = wrapInt64 (k + m) := by
  rw [← wrapInt64_add n, h, wrapInt64_add]

theorem fitsInt64_wrapInt64 (n : Int) : FitsInt64 (wrapInt64 n) := by
  have hle : -((0x10000000000000000 : Nat) / 2 : Int) ≤ wrapInt64 n := Int.le_bmod (by decide)
  have hlt : wrapInt64 n < ((0x10000000000000000 : Nat) + 1) / 2 := Int.bmod_lt (by decide)
  exact ⟨by omega, by omega⟩

theorem wrapInt64_eq_iff {n : Int} : wrapInt64 n = n ↔ FitsInt64 n := by
  constructor
  · intro h
    rw [← h]
    exact fitsInt64_wrapInt64 n
  · rintro ⟨hle, hlt⟩
    exact Int.bmod_eq_of_le (by omega) (by omega)

end ProbeLowering
