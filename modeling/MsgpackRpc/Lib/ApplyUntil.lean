import Mathlib.Data.List.Forall2

/-!
# Applying a list until an item fails

A loop reads one item after the other and applies to its state what it reads.  A failure ends the
loop and leaves the state as the items before have made it.
-/

universe u v w x

namespace ApplyUntil

variable {α : Type u} {β : Type v} {ε : Type w} {σ : Type x}

def applyUntil (read : α → Except ε β) (apply : σ → β → σ) : List α → σ → Except ε Unit × σ
  | [], s => (.ok (), s)
  | a :: as, s =>
      match read a with
      | .error e => (.error e, s)
      | .ok b => applyUntil read apply as (apply s b)

/-- The items are read as these values. -/
abbrev Reads (read : α → Except ε β) : List α → List β → Prop :=
  List.Forall₂ fun a b => read a = .ok b

variable {read : α → Except ε β} {apply : σ → β → σ} {s s' : σ} {as : List α}

/-- A loop over two lists is the loop over the first one and then, if it has not failed, over the
second one. -/
theorem applyUntil_append (as as' : List α) (s : σ) :
    applyUntil read apply (as ++ as') s =
      match applyUntil read apply as s with
      | (.ok (), s) => applyUntil read apply as' s
      | (.error e, s) => (.error e, s) := by
  induction as generalizing s with
  | nil => rfl
  | cons a as ih =>
    rw [List.cons_append, applyUntil, applyUntil]
    cases read a with
    | error e => rfl
    | ok b => exact ih (apply s b)

theorem applyUntil_ok_iff :
    applyUntil read apply as s = (.ok (), s') ↔ ∃ bs, Reads read as bs ∧ s' = bs.foldl apply s := by
  constructor
  · intro h
    induction as generalizing s with
    | nil =>
      cases h
      exact ⟨[], .nil, rfl⟩
    | cons a as ih =>
      rw [applyUntil] at h
      split at h
      · cases h
      · rename_i b hb
        obtain ⟨bs, hbs, hs'⟩ := ih h
        exact ⟨b :: bs, .cons hb hbs, hs'⟩
  · rintro ⟨bs, hbs, rfl⟩
    induction hbs generalizing s with
    | nil => rfl
    | cons first _ ih =>
      rw [applyUntil, first, List.foldl_cons]
      exact ih

/-- A loop that fails fails at one item, after it has applied what the items before it are. -/
theorem applyUntil_error_iff {e : ε} :
    applyUntil read apply as s = (.error e, s') ↔
      ∃ before a after bs, as = before ++ a :: after ∧ Reads read before bs ∧
        read a = .error e ∧ s' = bs.foldl apply s := by
  constructor
  · intro h
    induction as generalizing s with
    | nil => cases h
    | cons a as ih =>
      rw [applyUntil] at h
      split at h
      · rename_i e' he'
        cases h
        exact ⟨[], a, as, [], rfl, .nil, he', rfl⟩
      · rename_i b hb
        obtain ⟨before, a', after, bs, rfl, hbs, ha', hs'⟩ := ih h
        exact ⟨a :: before, a', after, b :: bs, rfl, .cons hb hbs, ha', hs'⟩
  · rintro ⟨before, a, after, bs, rfl, hbs, ha, rfl⟩
    have hbefore : applyUntil read apply before s = (.ok (), bs.foldl apply s) :=
      applyUntil_ok_iff.mpr ⟨bs, hbs, rfl⟩
    rw [applyUntil_append, hbefore]
    dsimp only
    rw [applyUntil, ha]

/-- A loop over a part of a larger state is the loop over the larger state. -/
theorem applyUntil_map {γ : Type u} {δ : Type v} {τ : Type x} {read' : γ → Except ε δ}
    {apply' : τ → δ → τ} {item : α → γ} {value : β → δ} {state : σ → τ}
    (hread : ∀ a, read' (item a) = (read a).map value)
    (happly : ∀ s b, apply' (state s) (value b) = state (apply s b)) (as : List α) (s : σ) :
    applyUntil read' apply' (as.map item) (state s) =
      ((applyUntil read apply as s).1, state (applyUntil read apply as s).2) := by
  induction as generalizing s with
  | nil => rfl
  | cons a as ih =>
    rw [List.map_cons, applyUntil, applyUntil, hread]
    cases read a with
    | error e => rfl
    | ok b =>
      rw [Except.map]
      dsimp only
      rw [happly]
      exact ih (apply s b)

end ApplyUntil
