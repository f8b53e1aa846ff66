import Mathlib.Algebra.Group.Int.Defs
import Mathlib.Algebra.Group.Nat.Defs

/-!
# Overflow of signed integers

The operations of `Int64` wrap around.  Their results are those of the integers exactly when these
fit into 64 bits.  A counter of 32 bits counts right until it has reached the largest number.
-/

namespace SignedOverflow

def Fits (x : Int) : Prop := -2 ^ 63 ≤ x ∧ x < 2 ^ 63

instance (x : Int) : Decidable (Fits x) := inferInstanceAs (Decidable (-2 ^ 63 ≤ x ∧ x < 2 ^ 63))

theorem bmod_eq_self_iff (x : Int) : x.bmod (2 ^ 64) = x ↔ Fits x := by
  constructor
  · intro h
    rw [← h]
    exact ⟨Int.le_bmod (by decide), Int.bmod_lt (by decide)⟩
  · rintro ⟨hlower, hupper⟩
    exact Int.bmod_eq_of_le hlower hupper

theorem toInt_add_eq_iff (a b : Int64) :
    (a + b).toInt = a.toInt + b.toInt ↔ Fits (a.toInt + b.toInt) := by
  rw [Int64.toInt_add, bmod_eq_self_iff]

theorem toInt_mul_eq_iff (a b : Int64) :
    (a * b).toInt = a.toInt * b.toInt ↔ Fits (a.toInt * b.toInt) := by
  rw [Int64.toInt_mul, bmod_eq_self_iff]

/-- A sum that is too large wraps around to a negative number. -/
theorem toInt_add_of_le {a b : Int64} (h : 2 ^ 63 ≤ a.toInt + b.toInt) :
    (a + b).toInt = a.toInt + b.toInt - 2 ^ 64 := by
  have ha := a.toInt_lt
  have hb := b.toInt_lt
  rw [Int64.toInt_add, Int.bmod_def]
  split <;> omega

/-! ## Counters of 32 bits -/

def maxCount : Int := 2 ^ 31 - 1

theorem toInt_add_one {c : Int32} (h : c.toInt < maxCount) : (c + 1).toInt = c.toInt + 1 := by
  have hc := c.le_toInt
  have hone : (1 : Int32).toInt = 1 := rfl
  rw [maxCount] at h
  rw [Int32.toInt_add, hone]
  exact Int.bmod_eq_of_le (by omega) (by omega)

/-- One more than the largest number is the smallest one. -/
theorem toInt_add_one_of_max {c : Int32} (h : c.toInt = maxCount) : (c + 1).toInt = -2 ^ 31 := by
  have hone : (1 : Int32).toInt = 1 := rfl
  rw [Int32.toInt_add, hone, h]
  rfl

theorem toInt_sub_one {c : Int32} (h : 0 < c.toInt) : (c - 1).toInt = c.toInt - 1 := by
  have hc := c.toInt_lt
  have hone : (1 : Int32).toInt = 1 := rfl
  rw [Int32.toInt_sub, hone]
  exact Int.bmod_eq_of_le (by omega) (by omega)

theorem toInt_le_maxCount (c : Int32) : c.toInt ≤ maxCount := by
  have hc := c.toInt_lt
  rw [maxCount]
  omega

end SignedOverflow
