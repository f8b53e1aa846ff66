/-!
# Regular expressions with groups

A regular expression is built from predicates on words, so that a class of characters, a literal and
the text of an encoding are all one constructor.  `Matches` is its meaning; `fullMatch` searches the
ways to split a word, the longest first, as a backtracking matcher does.
-/

universe u

inductive Regex (α : Type u) where
  | word (accepts : List α → Bool)
  | seq (first second : Regex α)
  | group (inner : Regex α)

namespace Regex

variable {α : Type u}

/-- The regular expression matches the word, with the texts of its groups. -/
inductive Matches : Regex α → List α → List (List α) → Prop where
  | word {accepts : List α → Bool} {s : List α} (h : accepts s = true) :
      Matches (.word accepts) s []
  | seq {first second : Regex α} {s s' : List α} {c c' : List (List α)} (h : Matches first s c)
      (h' : Matches second s' c') : Matches (.seq first second) (s ++ s') (c ++ c')
  | group {inner : Regex α} {s : List α} {c : List (List α)} (h : Matches inner s c) :
      Matches (.group inner) s (s :: c)

/-- One literal text. -/
def literal [BEq α] (text : List α) : Regex α := .word (· == text)

/-- One or more characters of a class. -/
def plus (p : α → Bool) : Regex α := .word fun s => !s.isEmpty && s.all p

/-! ## The matcher -/

/-- The ways to split a word, with the longest first part first. -/
def splits : List α → List (List α × List α)
  | [] => [([], [])]
  | a :: s => (splits s).map (fun (u, v) => (a :: u, v)) ++ [([], a :: s)]

/-- A prefix that is matched, the texts of the groups, and what is left. -/
structure Found (α : Type u) where
  text : List α
  captures : List (List α)
  rest : List α

def results : Regex α → List α → List (Found α)
  | .word accepts, s =>
      ((splits s).filter fun (u, _) => accepts u).map fun (u, v) => ⟨u, [], v⟩
  | .seq first second, s =>
      (results first s).flatMap fun f =>
        (results second f.rest).map fun g => ⟨f.text ++ g.text, f.captures ++ g.captures, g.rest⟩
  | .group inner, s => (results inner s).map fun f => { f with captures := f.text :: f.captures }

/-- The texts of the groups when the whole word is matched. -/
def fullMatch (r : Regex α) (s : List α) : Option (List (List α)) :=
  ((r.results s).find? fun f => f.rest.isEmpty).map Found.captures

/-! ## The meaning -/

theorem matches_word_iff {accepts : List α → Bool} {s : List α} {c : List (List α)} :
    Matches (.word accepts) s c ↔ accepts s = true ∧ c = [] := by
  constructor
  · intro h
    cases h with
    | word h => exact ⟨h, rfl⟩
  · rintro ⟨h, rfl⟩
    exact .word h

theorem matches_seq_iff {first second : Regex α} {s : List α} {c : List (List α)} :
    Matches (.seq first second) s c ↔ ∃ u cu v cv, Matches first u cu ∧ Matches second v cv ∧
      s = u ++ v ∧ c = cu ++ cv := by
  constructor
  · intro h
    cases h with
    | seq h h' => exact ⟨_, _, _, _, h, h', rfl, rfl⟩
  · rintro ⟨u, cu, v, cv, h, h', rfl, rfl⟩
    exact .seq h h'

theorem matches_group_iff {inner : Regex α} {s : List α} {c : List (List α)} :
    Matches (.group inner) s c ↔ ∃ ci, Matches inner s ci ∧ c = s :: ci := by
  constructor
  · intro h
    cases h with
    | group h => exact ⟨_, h, rfl⟩
  · rintro ⟨ci, h, rfl⟩
    exact .group h

theorem matches_literal_iff [BEq α] [LawfulBEq α] {text s : List α} {c : List (List α)} :
    Matches (literal text) s c ↔ s = text ∧ c = [] := by
  rw [literal, matches_word_iff, beq_iff_eq]

theorem matches_plus_iff {p : α → Bool} {s : List α} {c : List (List α)} :
    Matches (plus p) s c ↔ (s ≠ [] ∧ ∀ a ∈ s, p a = true) ∧ c = [] := by
  rw [plus, matches_word_iff, Bool.and_eq_true, Bool.not_eq_true', List.isEmpty_eq_false_iff,
    List.all_eq_true]

theorem matches_literal_seq_iff [BEq α] [LawfulBEq α] {text : List α} {r : Regex α} {s : List α}
    {c : List (List α)} :
    Matches (.seq (literal text) r) s c ↔ ∃ v, Matches r v c ∧ s = text ++ v := by
  rw [matches_seq_iff]
  constructor
  · rintro ⟨_, _, v, cv, htext, hr, rfl, rfl⟩
    obtain ⟨rfl, rfl⟩ := matches_literal_iff.mp htext
    exact ⟨v, hr, rfl⟩
  · rintro ⟨v, hr, rfl⟩
    exact ⟨text, [], v, c, matches_literal_iff.mpr ⟨rfl, rfl⟩, hr, rfl, rfl⟩

theorem matches_group_seq_iff {inner r : Regex α} {s : List α} {c : List (List α)} :
    Matches (.seq (.group inner) r) s c ↔ ∃ u cu v cv, Matches inner u cu ∧ Matches r v cv ∧
      s = u ++ v ∧ c = u :: (cu ++ cv) := by
  rw [matches_seq_iff]
  constructor
  · rintro ⟨u, _, v, cv, hgroup, hr, rfl, rfl⟩
    obtain ⟨cu, hinner, rfl⟩ := matches_group_iff.mp hgroup
    exact ⟨u, cu, v, cv, hinner, hr, rfl, rfl⟩
  · rintro ⟨u, cu, v, cv, hinner, hr, rfl, rfl⟩
    exact ⟨u, u :: cu, v, cv, .group hinner, hr, rfl, rfl⟩

/-! ## The matcher finds what matches -/

theorem mem_splits {s u v : List α} : (u, v) ∈ splits s ↔ s = u ++ v := by
  induction s generalizing u with
  | nil =>
    rw [splits, List.mem_singleton, Prod.mk.injEq, List.nil_eq_append_iff]
  | cons a s ih =>
    rw [splits, List.mem_append, List.mem_map, List.mem_singleton]
    constructor
    · rintro (⟨⟨u', v'⟩, hmem, heq⟩ | heq)
      · cases heq
        rw [ih.mp hmem, List.cons_append]
      · cases heq
        rfl
    · intro h
      cases u with
      | nil =>
        right
        rw [h, List.nil_append]
      | cons b u =>
        left
        cases h
        exact ⟨(u, v), ih.mpr rfl, rfl⟩

theorem mem_results {r : Regex α} {s : List α} {f : Found α} :
    f ∈ r.results s ↔ s = f.text ++ f.rest ∧ r.Matches f.text f.captures := by
  induction r generalizing s f with
  | word accepts =>
    simp only [results, List.mem_map, List.mem_filter, matches_word_iff]
    constructor
    · rintro ⟨⟨u, v⟩, ⟨hmem, haccepts⟩, rfl⟩
      exact ⟨mem_splits.mp hmem, haccepts, rfl⟩
    · rintro ⟨hs, haccepts, hcaptures⟩
      refine ⟨(f.text, f.rest), ⟨mem_splits.mpr hs, haccepts⟩, ?_⟩
      rw [← hcaptures]
  | seq first second ihf ihs =>
    simp only [results, List.mem_flatMap, List.mem_map, matches_seq_iff]
    constructor
    · rintro ⟨g, hg, g', hg', rfl⟩
      obtain ⟨hs, hfirst⟩ := ihf.mp hg
      obtain ⟨hrest, hsecond⟩ := ihs.mp hg'
      refine ⟨?_, g.text, g.captures, g'.text, g'.captures, hfirst, hsecond, rfl, rfl⟩
      rw [hs, hrest, List.append_assoc]
    · rintro ⟨hs, u, cu, v, cv, hfirst, hsecond, htext, hcaptures⟩
      have hsplit : s = u ++ (v ++ f.rest) := by rw [hs, htext, List.append_assoc]
      refine ⟨⟨u, cu, v ++ f.rest⟩, ihf.mpr ⟨hsplit, hfirst⟩, ⟨v, cv, f.rest⟩,
        ihs.mpr ⟨rfl, hsecond⟩, ?_⟩
      rw [← htext, ← hcaptures]
  | group inner ih =>
    simp only [results, List.mem_map, matches_group_iff]
    constructor
    · rintro ⟨g, hg, rfl⟩
      obtain ⟨hs, hinner⟩ := ih.mp hg
      exact ⟨hs, g.captures, hinner, rfl⟩
    · rintro ⟨hs, ci, hinner, hcaptures⟩
      refine ⟨⟨f.text, ci, f.rest⟩, ih.mpr ⟨hs, hinner⟩, ?_⟩
      rw [← hcaptures]

/-- The groups that the matcher reports are those of a match. -/
theorem matches_of_fullMatch {r : Regex α} {s : List α} {c : List (List α)}
    (h : r.fullMatch s = some c) : r.Matches s c := by
  obtain ⟨f, hfind, rfl⟩ := Option.map_eq_some_iff.mp h
  have hrest : f.rest.isEmpty = true := by simpa using List.find?_some hfind
  obtain ⟨hs, hmatches⟩ := mem_results.mp (List.mem_of_find?_eq_some hfind)
  rw [hs, List.isEmpty_iff.mp hrest, List.append_nil]
  exact hmatches

/-- Where the groups of a word have one reading, the matcher finds it. -/
theorem fullMatch_eq_some_of_unique {r : Regex α} {s : List α} {c : List (List α)}
    (h : r.Matches s c) (hunique : ∀ c', r.Matches s c' → c' = c) : r.fullMatch s = some c := by
  cases hfind : r.fullMatch s with
  | some c' => rw [hunique c' (matches_of_fullMatch hfind)]
  | none =>
    have hnone := List.find?_eq_none.mp (Option.map_eq_none_iff.mp hfind)
    have hmem : ⟨s, c, []⟩ ∈ r.results s := mem_results.mpr ⟨(List.append_nil s).symm, h⟩
    exact absurd rfl (hnone _ hmem)

end Regex
