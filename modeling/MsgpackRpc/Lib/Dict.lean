/-!
# Dictionaries

A list whose elements are found by a key of their own; no two elements have the same key.
-/

universe u v

structure Dict {α : Type u} {κ : Type v} (key : α → κ) where
  elements : List α := []
  distinct : (elements.map key).Nodup := by first | (simp; done) | decide

namespace Dict

variable {α : Type u} {κ : Type v} {key : α → κ} [DecidableEq κ]

/-- The dictionary with one more element, unless its key is taken. -/
def tryEmplace (d : Dict key) (a : α) : Option (Dict key) :=
  if h : key a ∈ d.elements.map key then none
  else some { elements := a :: d.elements, distinct := List.nodup_cons.mpr ⟨h, d.distinct⟩ }

def find (d : Dict key) (k : κ) : Option α :=
  d.elements.find? fun a => key a = k

theorem find_tryEmplace {d d' : Dict key} {a : α} (h : d.tryEmplace a = some d') (k : κ) :
    d'.find k = if key a = k then some a else d.find k := by
  unfold tryEmplace at h
  split at h
  · cases h
  · cases h
    unfold find
    rw [List.find?_cons]
    by_cases hkey : key a = k
    · rw [if_pos hkey, decide_eq_true hkey]
    · rw [if_neg hkey, decide_eq_false hkey]

/-- `try_emplace` where a taken key is no failure. -/
def emplace (d : Dict key) (a : α) : Dict key := (d.tryEmplace a).getD d

theorem find_isSome_iff (d : Dict key) (k : κ) : (d.find k).isSome ↔ k ∈ d.elements.map key := by
  simp [find, List.mem_map]

theorem emplace_of_taken {d : Dict key} {a : α} (h : (d.find (key a)).isSome) :
    d.emplace a = d := by
  rw [find_isSome_iff] at h
  rw [emplace, tryEmplace, dif_pos h, Option.getD_none]

theorem find_emplace (d : Dict key) (a : α) (k : κ) :
    (d.emplace a).find k = (d.find k).or (if key a = k then some a else none) := by
  by_cases htaken : (d.find (key a)).isSome
  · rw [emplace_of_taken htaken]
    split
    · rename_i hkey
      rw [← hkey, Option.or_of_isSome htaken]
    · rw [Option.or_none]
  · have hfree : key a ∉ d.elements.map key := mt (find_isSome_iff d (key a)).mpr htaken
    have hemplaced : d.tryEmplace a =
        some { elements := a :: d.elements, distinct := List.nodup_cons.mpr ⟨hfree, d.distinct⟩ } :=
      dif_neg hfree
    rw [emplace, hemplaced, Option.getD_some, find_tryEmplace hemplaced]
    split
    · rename_i hkey
      rw [← hkey, Option.not_isSome_iff_eq_none.mp htaken, Option.none_or]
    · rw [Option.or_none]

/-- What was there first stays, and a key is found with the first element that has it. -/
theorem find_foldl_emplace (d : Dict key) (l : List α) (k : κ) :
    (l.foldl emplace d).find k = (d.find k).or (l.find? fun a => key a = k) := by
  induction l generalizing d with
  | nil => rw [List.foldl_nil, List.find?_nil, Option.or_none]
  | cons a l ih =>
    rw [List.foldl_cons, ih, find_emplace, Option.or_assoc, List.find?_cons]
    by_cases hkey : key a = k
    · rw [if_pos hkey, decide_eq_true hkey, Option.some_or]
    · rw [if_neg hkey, decide_eq_false hkey, Option.none_or]

end Dict
