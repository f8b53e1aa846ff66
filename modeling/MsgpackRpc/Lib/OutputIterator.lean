import Mathlib.Logic.Function.Basic

/-!
# Output iterators

Code that is generic in an output iterator uses `*it = c` and `++it`.  An iterator that appends
writes at the first of them and does nothing at the second; a pointer writes at its position and
moves at the second only.  Both write the same text as long as no assignment goes without its
advance, and the number of advances that are missing can be read off the position at the end.
-/

universe u v

structure OutputIterator (σ : Type u) (γ : Type v) where
  /-- `*it = c` -/
  assign : σ → γ → σ
  /-- `++it` -/
  advance : σ → σ

namespace OutputIterator

variable {σ : Type u} {γ : Type v}

/-- `*it = c; ++it;` -/
def put (it : OutputIterator σ γ) (s : σ) (c : γ) : σ := it.advance (it.assign s c)

/-- `std::copy` -/
def copy (it : OutputIterator σ γ) : List γ → σ → σ
  | [], s => s
  | c :: text, s => it.copy text (it.put s c)

/-- `std::back_insert_iterator`; the state is what has been appended to. -/
def appending : OutputIterator (List γ) γ where
  assign s c := s ++ [c]
  advance := id

/-- A pointer into a memory. -/
@[ext]
structure Cursor (γ : Type v) where
  memory : Nat → γ
  position : Nat

def positional : OutputIterator (Cursor γ) γ where
  assign s c := { s with memory := Function.update s.memory s.position c }
  advance s := { s with position := s.position + 1 }

/-- The text stands in the memory from the position on, and the position is just after it. -/
def Cursor.write (s : Cursor γ) (text : List γ) : Cursor γ where
  memory i := if i < s.position then s.memory i else text[i - s.position]?.getD (s.memory i)
  position := s.position + text.length

@[simp] theorem Cursor.write_position (s : Cursor γ) (text : List γ) :
    (s.write text).position = s.position + text.length := rfl

theorem Cursor.write_memory (s : Cursor γ) (text : List γ) (i : Nat) :
    (s.write text).memory i =
      if i < s.position then s.memory i else text[i - s.position]?.getD (s.memory i) := rfl

theorem Cursor.write_nil (s : Cursor γ) : s.write [] = s := by
  apply Cursor.ext
  · funext i
    rw [Cursor.write_memory, List.getElem?_nil, Option.getD_none, ite_self]
  · rfl

theorem Cursor.write_append (s : Cursor γ) (text text' : List γ) :
    (s.write text).write text' = s.write (text ++ text') := by
  apply Cursor.ext
  · funext i
    rw [Cursor.write_memory, Cursor.write_memory, Cursor.write_memory, Cursor.write_position]
    by_cases hbefore : i < s.position
    · rw [if_pos (by omega), if_pos hbefore, if_pos hbefore]
    · rw [if_neg hbefore, if_neg hbefore]
      by_cases hfirst : i < s.position + text.length
      · rw [if_pos hfirst, List.getElem?_append_left (by omega)]
      · rw [if_neg hfirst, List.getElem?_append_right (by omega), Nat.sub_add_eq,
          List.getElem?_eq_none (by omega : text.length ≤ i - s.position), Option.getD_none]
  · rw [Cursor.write_position, Cursor.write_position, Cursor.write_position, List.length_append,
      Nat.add_assoc]

/-! ## What code writes through the two iterators -/

/-- `text` is appended; through a pointer `missed` of its characters do not move the position, and
where none is missed the text stands in the memory. -/
structure Writes (append : List γ → List γ) (write : Cursor γ → Cursor γ) (text : List γ)
    (missed : Nat) : Prop where
  appends : ∀ s, append s = s ++ text
  position : ∀ s, (write s).position + missed = s.position + text.length
  writes : missed = 0 → ∀ s, write s = s.write text

namespace Writes

variable {append append' : List γ → List γ} {write write' : Cursor γ → Cursor γ}
  {text text' : List γ} {missed missed' : Nat}

theorem nothing : Writes (γ := γ) id id [] 0 where
  appends s := (List.append_nil s).symm
  position _ := rfl
  writes _ s := s.write_nil.symm

theorem assign (c : γ) : Writes (appending.assign · c) (positional.assign · c) [c] 1 where
  appends _ := rfl
  position _ := rfl
  writes hnone := nomatch hnone

theorem put (c : γ) : Writes (appending.put · c) (positional.put · c) [c] 0 where
  appends _ := rfl
  position _ := rfl
  writes _ s := by
    apply Cursor.ext
    · funext i
      change Function.update s.memory s.position c i = _
      rw [Cursor.write_memory]
      rcases Nat.lt_trichotomy i s.position with hlt | rfl | hgt
      · rw [Function.update_of_ne (Nat.ne_of_lt hlt), if_pos hlt]
      · rw [Function.update_self, if_neg (Nat.lt_irrefl _), Nat.sub_self]
        rfl
      · have houtside : [c].length ≤ i - s.position := by
          rw [List.length_singleton]
          omega
        rw [Function.update_of_ne (Nat.ne_of_gt hgt), if_neg (by omega),
          List.getElem?_eq_none houtside, Option.getD_none]
    · rfl

/-- One piece of code after the other. -/
theorem comp (h : Writes append write text missed) (h' : Writes append' write' text' missed') :
    Writes (append' ∘ append) (write' ∘ write) (text ++ text') (missed + missed') where
  appends s := by rw [Function.comp_apply, h.appends, h'.appends, List.append_assoc]
  position s := by
    have hfirst := h.position s
    have hsecond := h'.position (write s)
    rw [Function.comp_apply, List.length_append]
    omega
  writes hnone s := by
    rw [Function.comp_apply, h.writes (by omega), h'.writes (by omega), Cursor.write_append]

theorem copy (text : List γ) : Writes (appending.copy text) (positional.copy text) text 0 := by
  induction text with
  | nil => exact nothing
  | cons c text ih => exact (put c).comp ih

/-- A pointer writes the text that is appended, and ends just after it, exactly where no advance is
missing. -/
theorem write_eq_iff (h : Writes append write text missed) (s : Cursor γ) :
    write s = s.write (append []) ↔ missed = 0 := by
  rw [h.appends, List.nil_append]
  constructor
  · intro heq
    -- the position alone shows that an advance is missing
    have hposition := h.position s
    rw [heq, Cursor.write_position] at hposition
    omega
  · intro hnone
    exact h.writes hnone s

end Writes

end OutputIterator
