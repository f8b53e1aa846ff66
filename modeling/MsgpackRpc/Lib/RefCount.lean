import Mathlib.Logic.Function.Basic
import Mathlib.Data.List.Basic

/-!
# Reference counts

A table of handles, each of which points to a cell or to none, and counts of the handles that point
to a cell.  A cell without a count is free.  The lemmas say what a count has to become when a handle
takes a cell or lets go of it; a store whose operations do this keeps the counts of any table right.
-/

universe u v w

namespace RefCount

/-- A handle has been destroyed, is empty or points to a cell. -/
abbrev Handles (κ : Type u) := List (Option (Option κ))

variable {κ : Type u} [DecidableEq κ]

/-- How many handles point to the cell. -/
def pointing (t : Handles κ) (k : κ) : Nat := t.count (some (some k))

/-- What one handle adds to this number. -/
def points (x : Option (Option κ)) (k : κ) : Nat := if x = some (some k) then 1 else 0

@[simp] theorem points_destroyed (k : κ) : points none k = 0 := rfl

@[simp] theorem points_empty (k : κ) : points (some none) k = 0 := rfl

@[simp] theorem points_self (k : κ) : points (some (some k)) k = 1 := if_pos rfl

theorem points_of_ne {k k' : κ} (h : k' ≠ k) : points (some (some k')) k = 0 := by
  apply if_neg
  intro heq
  exact h (Option.some.inj (Option.some.inj heq))

theorem pointing_append (t : Handles κ) (x : Option (Option κ)) (k : κ) :
    pointing (t ++ [x]) k = pointing t k + points x k := by
  rw [pointing, List.count_append, List.count_singleton, points, pointing]
  simp only [beq_iff_eq]

variable {t : Handles κ} {i j : Nat} {x : Option (Option κ)}

/-- The pointer in a handle that has not been destroyed. -/
def pointerAt {κ : Type u} (t : Handles κ) (i : Nat) : Option (Option κ) := t[i]?.join

omit [DecidableEq κ] in
theorem pointerAt_eq_some {p : Option κ} : pointerAt t i = some p ↔ t[i]? = some (some p) :=
  Option.join_eq_some_iff

theorem pointing_set (h : t[i]? = some x) (y : Option (Option κ)) (k : κ) :
    pointing (t.set i y) k + points x k = pointing t k + points y k := by
  obtain ⟨hi, rfl⟩ := List.getElem?_eq_some_iff.mp h
  have hle : (if t[i] = some (some k) then 1 else 0) ≤ t.count (some (some k)) := by
    split
    · rename_i heq
      exact List.count_pos_iff.mpr (heq ▸ List.getElem_mem hi)
    · exact Nat.zero_le _
  rw [pointing, List.count_set hi, points, points, pointing]
  simp only [beq_iff_eq]
  omega

/-- A handle is emptied and then points to a cell. -/
theorem pointing_refill (h : t[i]? = some x) (y : Option (Option κ)) (k : κ) :
    pointing (t.set i y) k = pointing (t.set i (some none)) k + points y k := by
  have hempty := pointing_set h (some none) k
  have hset := pointing_set h y k
  rw [points_empty] at hempty
  omega

omit [DecidableEq κ] in
theorem set_self (h : t[i]? = some x) : t.set i x = t := by
  obtain ⟨hi, rfl⟩ := List.getElem?_eq_some_iff.mp h
  exact List.set_getElem_self hi

theorem pointing_pos {k : κ} (h : t[i]? = some (some (some k))) : 0 < pointing t k :=
  List.count_pos_iff.mpr (List.mem_of_getElem? h)

/-- Exchanging two handles, which may be the same one. -/
theorem pointing_swap {y : Option (Option κ)} (hi : t[i]? = some x) (hj : t[j]? = some y) (k : κ) :
    pointing ((t.set i y).set j x) k = pointing t k := by
  have hfirst := pointing_set hi y k
  have hat : (t.set i y)[j]? = some y := by
    by_cases hij : i = j
    · subst hij
      exact List.getElem?_set_self (List.getElem?_eq_some_iff.mp hi).1
    · rw [List.getElem?_set_ne hij, hj]
  have hsecond := pointing_set hat x k
  omega

/-- A new handle takes what another one pointed to. -/
theorem pointing_move {p : Option κ} (h : t[i]? = some (some p)) (k : κ) :
    pointing (t.set i (some none) ++ [some p]) k = pointing t k := by
  have hset := pointing_set h (some none) k
  rw [pointing_append]
  rw [points_empty] at hset
  exact hset

/-! ## Counts -/

/-- Every cell to which handles point has their number as its count, and the other cells are
free. -/
def Counted (count : κ → Option Int) (t : Handles κ) : Prop :=
  ∀ k, count k = if pointing t k = 0 then none else some (pointing t k : Int)

/-- The counts after one handle of the cell has let go. -/
def release (count : κ → Option Int) : Option κ → κ → Option Int
  | none => count
  | some k => Function.update count k ((count k).bind fun n => if n = 1 then none else some (n - 1))

/-- The counts after one more handle has taken the cell. -/
def acquire (count : κ → Option Int) : Option κ → κ → Option Int
  | none => count
  | some k => Function.update count k (some ((count k).getD 0 + 1))

namespace Counted

variable {count : κ → Option Int}

theorem nil : Counted (fun _ : κ => none) [] := fun _ => rfl

theorem congr {t' : Handles κ} (h : Counted count t) (heq : ∀ k, pointing t' k = pointing t k) :
    Counted count t' := by
  intro k
  rw [h k, heq k]

/-- The count of a cell to which a handle points. -/
theorem of_points (h : Counted count t) {k : κ} (hi : t[i]? = some (some (some k))) :
    count k = some (pointing t k : Int) := by
  have hpos := pointing_pos hi
  rw [h k, if_neg (Nat.ne_of_gt hpos)]

theorem eq_none_iff (h : Counted count t) (k : κ) : count k = none ↔ pointing t k = 0 := by
  rw [h k]
  split
  · rename_i hzero
    exact iff_of_true rfl hzero
  · rename_i hzero
    exact iff_of_false (fun hnone => nomatch hnone) hzero

/-- A handle lets go of what it points to. -/
theorem release {p : Option κ} (h : Counted count t) (hi : t[i]? = some (some p))
    {y : Option (Option κ)} (hy : ∀ k, points y k = 0) :
    Counted (release count p) (t.set i y) := by
  cases p with
  | none =>
    refine h.congr fun k => ?_
    have hset := pointing_set hi y k
    rw [points_empty, hy] at hset
    exact hset
  | some k =>
    intro k'
    have hset := pointing_set hi y k'
    rw [hy] at hset
    by_cases hk : k' = k
    · subst hk
      rw [RefCount.release, Function.update_self, h.of_points hi, Option.bind_some]
      rw [points_self] at hset
      by_cases hlast : pointing t k' = 1
      · rw [if_pos (by omega), if_pos (by omega)]
      · have hpos := pointing_pos hi
        rw [if_neg (by omega), if_neg (by omega)]
        congr 1
        omega
    · rw [RefCount.release, Function.update_of_ne hk, h k']
      rw [points_of_ne (Ne.symm hk)] at hset
      rw [show pointing (t.set i y) k' = pointing t k' from hset]

/-- One more handle for a cell: the table afterwards is known by its numbers only. -/
theorem acquire {p : Option κ} {t' : Handles κ} (h : Counted count t)
    (heq : ∀ k, pointing t' k = pointing t k + points (some p) k) :
    Counted (acquire count p) t' := by
  cases p with
  | none => exact h.congr heq
  | some k =>
    intro k'
    rw [heq k']
    by_cases hk : k' = k
    · subst hk
      rw [RefCount.acquire, Function.update_self, points_self, h k', if_neg (Nat.succ_ne_zero _)]
      split
      · rename_i hzero
        rw [hzero]
        rfl
      · rfl
    · rw [RefCount.acquire, Function.update_of_ne hk, points_of_ne (Ne.symm hk)]
      exact h k'

theorem acquire_append {p : Option κ} (h : Counted count t) :
    Counted (RefCount.acquire count p) (t ++ [some p]) :=
  h.acquire (pointing_append t (some p))

end Counted

/-! ## Stores of counted cells -/

/-- Cells that are counted when a handle takes one and when it lets go of it.  A count goes up to
`maxCount`; a cell without handles is free, and its value is lost. -/
structure Store (σ : Type v) (κ : Type u) (α : Type w) [DecidableEq κ] where
  count : σ → κ → Option Int
  value : σ → κ → Option α
  add : σ → κ → Option σ
  drop : σ → κ → Option σ
  maxCount : Int
  /-- What the operations need and keep. -/
  Valid : σ → Prop
  count_le : ∀ s k n, count s k = some n → n ≤ maxCount
  add_of_lt : ∀ s k n, Valid s → count s k = some n → 0 < n → n < maxCount →
    ∃ s', add s k = some s' ∧ Valid s' ∧ count s' = acquire (count s) (some k) ∧
      ∀ k', value s' k' = value s k'
  add_of_max : ∀ s s' k, Valid s → count s k = some maxCount → add s k = some s' →
    ∃ n, count s' k = some n ∧ n < 0
  drop_of_pos : ∀ s k n, Valid s → count s k = some n → 0 < n →
    ∃ s', drop s k = some s' ∧ Valid s' ∧ count s' = release (count s) (some k) ∧
      ∀ k', count s' k' ≠ none → value s' k' = value s k'

namespace Store

variable {σ : Type v} {α : Type w} (S : Store σ κ α)

/-- The value that a handle has through its cell. -/
def valueOf (s : σ) (handle : Option (Option κ)) : Option (Option α) :=
  handle.map fun pointer => pointer.bind (S.value s)

/-- Nothing is done for an empty handle. -/
def dropPointer (s : σ) : Option κ → Option σ
  | none => some s
  | some k => S.drop s k

def addPointer (s : σ) : Option κ → Option σ
  | none => some s
  | some k => S.add s k

structure Consistent (s : σ) (t : Handles κ) : Prop where
  valid : S.Valid s
  counted : Counted (S.count s) t

variable {S} {s s' : σ} {k : κ} {p : Option κ} {t' : Handles κ}

/-- The values of handles depend on the cells to which they point. -/
theorem map_valueOf_congr (h : ∀ k, 0 < pointing t k → S.value s' k = S.value s k) :
    t.map (S.valueOf s') = t.map (S.valueOf s) := by
  apply List.map_congr_left
  intro handle hmem
  cases handle with
  | none => rfl
  | some pointer =>
    cases pointer with
    | none => rfl
    | some k => exact congrArg some (h k (List.count_pos_iff.mpr hmem))

theorem join_map_valueOf (h : pointerAt t i = some p) :
    (t.map (S.valueOf s))[i]?.join = S.valueOf s (some p) := by
  rw [List.getElem?_map, pointerAt_eq_some.mp h, Option.map_some, Option.join_some]

namespace Consistent

/-- A handle lets go of its cell: it becomes `rest`, which points to none. -/
theorem exists_drop (h : S.Consistent s t) (hi : t[i]? = some (some p)) (rest : Option (Option κ))
    (hrest : ∀ k, points rest k = 0) :
    ∃ s', S.dropPointer s p = some s' ∧ S.Consistent s' (t.set i rest) ∧
      ∀ k, 0 < pointing (t.set i rest) k → S.value s' k = S.value s k := by
  cases p with
  | none => exact ⟨s, rfl, ⟨h.valid, h.counted.release hi hrest⟩, fun _ _ => rfl⟩
  | some k =>
    have hpos := pointing_pos hi
    obtain ⟨s', hdropped, hvalid, hcounts, hvalues⟩ :=
      S.drop_of_pos s k _ h.valid (h.counted.of_points hi) (by omega)
    have hcounted : Counted (S.count s') (t.set i rest) := by
      rw [hcounts]
      exact h.counted.release hi hrest
    refine ⟨s', hdropped, ⟨hvalid, hcounted⟩, fun k' hpos' => hvalues k' ?_⟩
    intro hfree
    rw [hcounted.eq_none_iff] at hfree
    omega

/-- One more handle takes a cell to which one points already. -/
theorem exists_add (h : S.Consistent s t) (hi : t[i]? = some (some (some k)))
    (hlt : (pointing t k : Int) < S.maxCount)
    (heq : ∀ k', pointing t' k' = pointing t k' + points (some (some k)) k') :
    ∃ s', S.add s k = some s' ∧ S.Consistent s' t' ∧ ∀ k', S.value s' k' = S.value s k' := by
  have hpos := pointing_pos hi
  obtain ⟨s', hadded, hvalid, hcounts, hvalues⟩ :=
    S.add_of_lt s k _ h.valid (h.counted.of_points hi) (by omega) hlt
  refine ⟨s', hadded, ⟨hvalid, ?_⟩, hvalues⟩
  rw [hcounts]
  exact h.counted.acquire heq

/-- The same for a handle that takes what another one has, which may be empty. -/
theorem exists_addPointer (h : S.Consistent s t) (hi : t[i]? = some (some p))
    (hlt : ∀ k, p = some k → (pointing t k : Int) < S.maxCount)
    (heq : ∀ k, pointing t' k = pointing t k + points (some p) k) :
    ∃ s', S.addPointer s p = some s' ∧ S.Consistent s' t' ∧ ∀ k, S.value s' k = S.value s k := by
  cases p with
  | none => exact ⟨s, rfl, ⟨h.valid, h.counted.congr heq⟩, fun _ => rfl⟩
  | some k => exact h.exists_add hi (hlt k rfl) heq

/-- With the largest number of handles, one more spoils the counts. -/
theorem not_counted_of_add (h : S.Consistent s t) (hi : t[i]? = some (some (some k)))
    (hmax : ¬ (pointing t k : Int) < S.maxCount) (hadded : S.add s k = some s') (t' : Handles κ) :
    ¬ Counted (S.count s') t' := by
  have hcount := h.counted.of_points hi
  have hle := S.count_le s k _ hcount
  have heq : (pointing t k : Int) = S.maxCount := by omega
  rw [heq] at hcount
  obtain ⟨n, hn, hnegative⟩ := S.add_of_max s s' k h.valid hcount hadded
  intro hcounted
  have hcounts := hcounted k
  rw [hn] at hcounts
  split at hcounts
  · cases hcounts
  · have hnat := Option.some.inj hcounts
    omega

theorem pointing_le (h : S.Consistent s t) (hi : t[i]? = some (some (some k))) :
    (pointing t k : Int) ≤ S.maxCount :=
  S.count_le s k _ (h.counted.of_points hi)

/-- A handle lets go of its cell, which may have been the same one, and takes that of another
handle. -/
theorem exists_reassign (h : S.Consistent s t) (hne : i ≠ j) (hi : t[i]? = some (some p))
    (hj : t[j]? = some (some (some k))) (hlt : p = some k ∨ (pointing t k : Int) < S.maxCount) :
    ∃ s₁ s₂, S.dropPointer s p = some s₁ ∧ S.add s₁ k = some s₂ ∧
      S.Consistent s₂ (t.set i (some (some k))) ∧
      ∀ k', 0 < pointing (t.set i (some (some k))) k' → S.value s₂ k' = S.value s k' := by
  obtain ⟨s₁, hdropped, hconsistent₁, hvalues₁⟩ := h.exists_drop hi (some none) fun _ => rfl
  have hj₁ : (t.set i (some none))[j]? = some (some (some k)) := by
    rw [List.getElem?_set_ne hne, hj]
  have hlt₁ : (pointing (t.set i (some none)) k : Int) < S.maxCount := by
    have hset := pointing_set hi (some none) k
    rw [points_empty] at hset
    rcases hlt with rfl | hlt
    · have hle := h.pointing_le hi
      rw [points_self] at hset
      omega
    · omega
  -- the cell that was let go of may be the one that is taken: the other handle keeps it
  have hrefill := pointing_refill hi (some (some k))
  obtain ⟨s₂, hadded, hconsistent₂, hvalues₂⟩ := hconsistent₁.exists_add hj₁ hlt₁ hrefill
  refine ⟨s₁, s₂, hdropped, hadded, hconsistent₂, fun k' hpos => ?_⟩
  rw [hvalues₂]
  apply hvalues₁
  by_cases hk : k = k'
  · exact hk ▸ pointing_pos hj₁
  · rw [hrefill, points_of_ne hk] at hpos
    exact hpos

/-- The same where the other handle may be empty. -/
theorem exists_reassignPointer {q : Option κ} (h : S.Consistent s t) (hne : i ≠ j)
    (hi : t[i]? = some (some p)) (hj : t[j]? = some (some q))
    (hlt : ∀ k, q = some k → p = some k ∨ (pointing t k : Int) < S.maxCount) :
    ∃ s₁ s₂, S.dropPointer s p = some s₁ ∧ S.addPointer s₁ q = some s₂ ∧
      S.Consistent s₂ (t.set i (some q)) ∧
      ∀ k, 0 < pointing (t.set i (some q)) k → S.value s₂ k = S.value s k := by
  cases q with
  | none =>
    obtain ⟨s₁, hdropped, hconsistent, hvalues⟩ := h.exists_drop hi (some none) fun _ => rfl
    exact ⟨s₁, s₁, hdropped, rfl, hconsistent, hvalues⟩
  | some k => exact h.exists_reassign hne hi hj (hlt k rfl)

theorem not_counted_of_reassign (h : S.Consistent s t) (hne : i ≠ j) (hi : t[i]? = some (some p))
    (hj : t[j]? = some (some (some k))) (hmax : ¬ (p = some k ∨ (pointing t k : Int) < S.maxCount))
    {s₁ s₂ : σ} (hdropped : S.dropPointer s p = some s₁) (hadded : S.add s₁ k = some s₂)
    (t' : Handles κ) : ¬ Counted (S.count s₂) t' := by
  rw [not_or] at hmax
  obtain ⟨s₁', hdropped', hconsistent₁, -⟩ := h.exists_drop hi (some none) fun _ => rfl
  obtain rfl : s₁ = s₁' := Option.some.inj (hdropped.symm.trans hdropped')
  have hj₁ : (t.set i (some none))[j]? = some (some (some k)) := by
    rw [List.getElem?_set_ne hne, hj]
  have hset := pointing_set hi (some none) k
  have hother : points (some p) k = 0 := if_neg fun heq => hmax.1 (Option.some.inj heq)
  rw [points_empty, hother] at hset
  exact hconsistent₁.not_counted_of_add hj₁ (by omega) hadded t'

end Consistent

end Store

end RefCount
