/-!
# Circular scans

A scan over `n` places begins at one of them, goes on at place 0 after the last one and ends at the
first place that is free, or when the next place is the one where it began.
-/

namespace CircularScan

/-- The place that was found, if any, and where the next scan begins.  `fuel` bounds the number of
places that are looked at. -/
def scan (n : Nat) (free : Nat → Bool) : Nat → Nat → Nat → Option (Option Nat × Nat)
  | 0, _, _ => none
  | fuel + 1, initial, index =>
      let next := (index + 1) % n
      if free index then some (some index, next)
      else if next = initial then some (none, next)
      else scan n free fuel initial next

variable {n : Nat} {free : Nat → Bool}

/-- The scan after `k` places that are not free. -/
theorem scan_from (free : Nat → Bool) (fuel : Nat) {initial : Nat} (k : Nat)
    (hinitial : initial < n) (hk : k < n) (hfuel : n ≤ fuel + k)
    (hused : ∀ j < k, free ((initial + j) % n) = false) :
    (∃ m < n, free ((initial + m) % n) = true ∧
      scan n free fuel initial ((initial + k) % n) =
        some (some ((initial + m) % n), (initial + m + 1) % n)) ∨
    ((∀ j < n, free ((initial + j) % n) = false) ∧
      scan n free fuel initial ((initial + k) % n) = some (none, initial)) := by
  induction fuel generalizing k with
  | zero => omega
  | succ fuel ih =>
    have hnext : ((initial + k) % n + 1) % n = (initial + k + 1) % n := by
      rw [Nat.mod_add_mod]
    rw [scan, hnext]
    cases hfree : free ((initial + k) % n) with
    | true =>
      rw [if_pos rfl]
      exact .inl ⟨k, hk, hfree, rfl⟩
    | false =>
      rw [if_neg Bool.false_ne_true]
      have hused' : ∀ j < k + 1, free ((initial + j) % n) = false := by
        intro j hj
        rcases Nat.lt_succ_iff_lt_or_eq.mp hj with hlt | rfl
        · exact hused j hlt
        · exact hfree
      -- the next place is the first one exactly after `n` places
      by_cases hlast : k + 1 = n
      · have hround : (initial + k + 1) % n = initial := by
          rw [Nat.add_assoc, hlast, Nat.add_mod_right, Nat.mod_eq_of_lt hinitial]
        rw [if_pos hround, hround]
        exact .inr ⟨hlast ▸ hused', rfl⟩
      · have hmore : (initial + k + 1) % n ≠ initial := by
          by_cases hsum : initial + k + 1 < n
          · rw [Nat.mod_eq_of_lt hsum]
            omega
          · rw [Nat.mod_eq_sub_mod (by omega), Nat.mod_eq_of_lt (by omega)]
            omega
        rw [if_neg hmore]
        exact ih (k + 1) (by omega) (by omega) hused'

/-- Every place is passed once. -/
theorem exists_offset {initial i : Nat} (hinitial : initial < n) (hi : i < n) :
    ∃ j < n, (initial + j) % n = i := by
  by_cases hle : initial ≤ i
  · refine ⟨i - initial, by omega, ?_⟩
    rw [Nat.add_sub_cancel' hle, Nat.mod_eq_of_lt hi]
  · refine ⟨i + n - initial, by omega, ?_⟩
    rw [Nat.add_sub_cancel' (by omega), Nat.add_mod_right, Nat.mod_eq_of_lt hi]

/-- A scan finds a free place, or there is none and the next scan begins at the same place. -/
theorem scan_spec {fuel initial : Nat} (hinitial : initial < n) (hfuel : n ≤ fuel) :
    (∃ i < n, free i = true ∧ ∃ next < n, scan n free fuel initial initial = some (some i, next)) ∨
    ((∀ i < n, free i = false) ∧ scan n free fuel initial initial = some (none, initial)) := by
  have hpos : 0 < n := by omega
  have hstart : (initial + 0) % n = initial := Nat.mod_eq_of_lt hinitial
  have hfrom := scan_from free fuel 0 hinitial hpos (by omega)
    (fun j hj => absurd hj (Nat.not_lt_zero j))
  rw [hstart] at hfrom
  rcases hfrom with ⟨m, hm, hfree, hscan⟩ | ⟨hnone, hscan⟩
  · exact .inl ⟨_, Nat.mod_lt _ hpos, hfree, _, Nat.mod_lt _ hpos, hscan⟩
  · refine .inr ⟨fun i hi => ?_, hscan⟩
    obtain ⟨j, hj, rfl⟩ := exists_offset hinitial hi
    exact hnone j hj

end CircularScan
