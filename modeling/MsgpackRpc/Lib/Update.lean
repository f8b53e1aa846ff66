import Mathlib.Algebra.BigOperators.Group.List.Basic
import Mathlib.Data.List.Perm.Basic

/-!
# One element of a list

What a whole list contributes to a commutative sum splits into the part of the element at one
position and a rest that does not change when this element is replaced.
-/

namespace List

universe u v

variable {α : Type u}

theorem perm_cons_eraseIdx {l : List α} {i : Nat} {x : α} (h : l[i]? = some x) :
    l ~ x :: l.eraseIdx i := by
  obtain ⟨hi, rfl⟩ := getElem?_eq_some_iff.mp h
  exact (getElem_cons_eraseIdx_perm hi).symm

theorem countP_eraseIdx (P : α → Bool) {l : List α} {i : Nat} {x : α} (h : l[i]? = some x) :
    l.countP P = (l.eraseIdx i).countP P + if P x then 1 else 0 := by
  rw [(perm_cons_eraseIdx h).countP_eq, countP_cons]

theorem any_eq_of_getElem? (p : α → Bool) {l : List α} {i : Nat} {x : α} (h : l[i]? = some x) :
    l.any p = (p x || (l.eraseIdx i).any p) := by
  rw [(perm_cons_eraseIdx h).any_eq, any_cons]

theorem any_set (p : α → Bool) {l : List α} {i : Nat} {x : α} (h : l[i]? = some x) (y : α) :
    (l.set i y).any p = (p y || (l.eraseIdx i).any p) := by
  have hset : (l.set i y)[i]? = some y := by
    rw [getElem?_set_self (getElem?_eq_some_iff.mp h).1]
  rw [any_eq_of_getElem? p hset, eraseIdx_set_eq]

/-- What some element has is lost only with the element that is replaced. -/
theorem exists_mem_set {P : α → Prop} {l : List α} {i : Nat} {x : α} (hx : l[i]? = some x) (y : α)
    (h : ∃ z ∈ l, P z) : P x ∨ ∃ z ∈ l.set i y, P z := by
  obtain ⟨z, hz, hP⟩ := h
  obtain ⟨j, hj⟩ := getElem?_of_mem hz
  by_cases heq : i = j
  · rw [heq, hj] at hx
    exact .inl (Option.some.inj hx ▸ hP)
  · rw [← getElem?_set_ne heq] at hj
    exact .inr ⟨z, mem_of_getElem? hj, hP⟩

theorem getElem?_of_prefix {l l' : List α} (h : l <+: l') {i : Nat} {x : α} (hx : l[i]? = some x) :
    l'[i]? = some x := by
  obtain ⟨rest, rfl⟩ := h
  rw [getElem?_append_left (getElem?_eq_some_iff.mp hx).1, hx]

variable {M : Type v} [AddCommMonoid M]

theorem exists_sum_map_set (w : α → M) {l : List α} {i : Nat} {x : α} (h : l[i]? = some x) :
    ∃ rest, (l.map w).sum = w x + rest ∧ ∀ y, ((l.set i y).map w).sum = w y + rest := by
  induction l generalizing i with
  | nil => simp at h
  | cons a l ih =>
    cases i with
    | zero =>
      obtain rfl : a = x := by simpa using h
      exact ⟨(l.map w).sum, by simp, fun y => by simp⟩
    | succ i =>
      obtain ⟨rest, hl, hset⟩ := ih (by simpa using h)
      refine ⟨w a + rest, ?_, fun y => ?_⟩
      · rw [map_cons, sum_cons, hl, add_left_comm]
      · rw [set_cons_succ, map_cons, sum_cons, hset y, add_left_comm]

end List
