import Mathlib.Logic.Basic

/-!
# Machines driven by a schedule

A machine moves only when its schedule tells it to: an action names who moves and what the
environment answers, so a list of actions is one interleaving and the machine itself is a function.
The rules below lift what one step keeps to whole runs.
-/

universe u v

/-- `step s a` is the state after action `a`, and `none` where `a` cannot happen in `s`. -/
structure Machine (σ : Type u) (α : Type v) where
  init : σ
  step : σ → α → Option σ

namespace Machine

variable {σ : Type u} {α : Type v} (M : Machine σ α)

def run : σ → List α → Option σ
  | s, [] => some s
  | s, a :: as => (M.step s a).bind fun s' => run s' as

/-- Every step that the schedule takes from `s` satisfies `ok`, which sees the state before the
step, the action and the state after it. -/
def Meets (ok : σ → α → σ → Prop) : σ → List α → Prop
  | _, [] => True
  | s, a :: as =>
      match M.step s a with
      | none => True
      | some s' => ok s a s' ∧ Meets ok s' as

instance Meets.decidable (ok : σ → α → σ → Prop) [∀ s a s', Decidable (ok s a s')] :
    ∀ (s : σ) (as : List α), Decidable (M.Meets ok s as)
  | _, [] => isTrue trivial
  | s, a :: as =>
      match hstep : M.step s a with
      | none => isTrue (by simp only [Meets, hstep])
      | some s' =>
          have : Decidable (M.Meets ok s' as) := Meets.decidable ok s' as
          decidable_of_iff (ok s a s' ∧ M.Meets ok s' as) (by simp only [Meets, hstep])

variable {M}

@[simp] theorem run_nil (s : σ) : M.run s [] = some s := rfl

theorem run_cons {s s' : σ} {a : α} {as : List α} (h : M.run s (a :: as) = some s') :
    ∃ t, M.step s a = some t ∧ M.run t as = some s' :=
  Option.bind_eq_some_iff.mp h

theorem meets_cons {ok : σ → α → σ → Prop} {s t : σ} {a : α} {as : List α}
    (hstep : M.step s a = some t) : M.Meets ok s (a :: as) ↔ ok s a t ∧ M.Meets ok t as := by
  simp only [Meets, hstep]

/-- Along a run whose steps satisfy `ok`, every step has what an invariant and `ok` give it. -/
theorem Meets.imp {Inv : σ → Prop} {ok ok' : σ → α → σ → Prop} {s : σ} {as : List α}
    (h : M.Meets ok s as)
    (hkeep : ∀ s a s', Inv s → ok s a s' → M.step s a = some s' → Inv s')
    (himp : ∀ s a s', Inv s → ok s a s' → M.step s a = some s' → ok' s a s')
    (hinit : Inv s) : M.Meets ok' s as := by
  induction as generalizing s with
  | nil => trivial
  | cons a as ih =>
    cases hstep : M.step s a with
    | none => simp only [Meets, hstep]
    | some t =>
      rw [meets_cons hstep] at h ⊢
      exact ⟨himp s a t hinit h.1 hstep, ih h.2 (hkeep s a t hinit h.1 hstep)⟩

/-- Two conditions that agree on the steps from the states of an invariant, which the second one
keeps, are met by the same runs. -/
theorem meets_congr {Inv : σ → Prop} {ok ok' : σ → α → σ → Prop} {s : σ} {as : List α}
    (hkeep : ∀ s a s', Inv s → ok' s a s' → M.step s a = some s' → Inv s')
    (hiff : ∀ s a s', Inv s → M.step s a = some s' → (ok s a s' ↔ ok' s a s'))
    (hinit : Inv s) : M.Meets ok s as ↔ M.Meets ok' s as := by
  have hforth : ∀ s a s', Inv s → ok s a s' → M.step s a = some s' → ok' s a s' :=
    fun s a s' h hok hstep => (hiff s a s' h hstep).mp hok
  have hback : ∀ s a s', Inv s → ok' s a s' → M.step s a = some s' → ok s a s' :=
    fun s a s' h hok hstep => (hiff s a s' h hstep).mpr hok
  constructor
  · intro hmeets
    refine hmeets.imp ?_ hforth hinit
    intro s a s' h hok hstep
    exact hkeep s a s' h (hforth s a s' h hok hstep) hstep
  · intro hmeets
    exact hmeets.imp hkeep hback hinit

theorem Meets.mono {ok ok' : σ → α → σ → Prop} (himp : ∀ s a s', ok s a s' → ok' s a s') {s : σ}
    {as : List α} (h : M.Meets ok s as) : M.Meets ok' s as := by
  have hkeep : ∀ s a s', True → ok s a s' → M.step s a = some s' → True :=
    fun _ _ _ _ _ _ => trivial
  exact h.imp hkeep (fun s a s' _ hok _ => himp s a s' hok) trivial

theorem meets_of_forall_mem {P : α → Prop} {s : σ} {as : List α} (h : ∀ a ∈ as, P a) :
    M.Meets (fun _ a _ => P a) s as := by
  induction as generalizing s with
  | nil => trivial
  | cons a as ih =>
    rw [List.forall_mem_cons] at h
    cases hstep : M.step s a with
    | none => simp only [Meets, hstep]
    | some t =>
      rw [meets_cons hstep]
      exact ⟨h.1, ih h.2⟩

theorem Meets.and {ok ok' : σ → α → σ → Prop} {s : σ} {as : List α} (h : M.Meets ok s as)
    (h' : M.Meets ok' s as) : M.Meets (fun s a s' => ok s a s' ∧ ok' s a s') s as := by
  induction as generalizing s with
  | nil => trivial
  | cons a as ih =>
    cases hstep : M.step s a with
    | none => simp only [Meets, hstep]
    | some t =>
      rw [meets_cons hstep] at h h' ⊢
      exact ⟨⟨h.1, h'.1⟩, ih h.2 h'.2⟩

theorem meets_iff_forall {ok : σ → α → σ → Prop} {s : σ} {as : List α} :
    M.Meets ok s as ↔ ∀ before a after t t', as = before ++ a :: after →
      M.run s before = some t → M.step t a = some t' → ok t a t' := by
  induction as generalizing s with
  | nil =>
    refine iff_of_true trivial fun before a after t t' heq => ?_
    exact absurd heq (List.append_ne_nil_of_right_ne_nil before (List.cons_ne_nil a after)).symm
  | cons b as ih =>
    cases hstep : M.step s b with
    | none =>
      simp only [Meets, hstep, true_iff]
      intro before a after t t' heq hrun hnext
      cases before with
      | nil =>
        cases heq
        rw [run_nil, Option.some.injEq] at hrun
        rw [← hrun, hstep] at hnext
        cases hnext
      | cons a' before =>
        cases heq
        obtain ⟨u, hu, -⟩ := run_cons hrun
        rw [hstep] at hu
        cases hu
    | some u =>
      rw [meets_cons hstep, ih]
      constructor
      · intro ⟨hfirst, hrest⟩ before a after t t' heq hrun hnext
        cases before with
        | nil =>
          cases heq
          rw [run_nil, Option.some.injEq] at hrun
          subst hrun
          rw [hstep, Option.some.injEq] at hnext
          exact hnext ▸ hfirst
        | cons a' before =>
          cases heq
          obtain ⟨u', hu', hrun⟩ := run_cons hrun
          rw [hstep, Option.some.injEq] at hu'
          exact hrest before a after t t' rfl (hu' ▸ hrun) hnext
      · intro h
        refine ⟨h [] b as s u rfl rfl hstep, fun before a after t t' heq hrun hnext => ?_⟩
        refine h (b :: before) a after t t' (heq ▸ rfl) ?_ hnext
        rw [run, hstep, Option.bind_some, hrun]

/-- What every step that satisfies `ok` keeps holds after every run of such steps. -/
theorem run_invariant {Inv : σ → Prop} {ok : σ → α → σ → Prop}
    (hkeep : ∀ s a s', Inv s → ok s a s' → M.step s a = some s' → Inv s')
    {s s' : σ} {as : List α} (hinit : Inv s) (hmeets : M.Meets ok s as)
    (hrun : M.run s as = some s') : Inv s' := by
  induction as generalizing s with
  | nil => exact Option.some.inj hrun ▸ hinit
  | cons a as ih =>
    obtain ⟨t, hstep, hrest⟩ := run_cons hrun
    rw [meets_cons hstep] at hmeets
    exact ih (hkeep s a t hinit hmeets.1 hstep) hmeets.2 hrest

/-- The same for what relates a state to the actions that have led to it. -/
theorem run_history {Inv : σ → List α → Prop} {ok : α → Prop}
    (hkeep : ∀ s a s' past, Inv s past → ok a → M.step s a = some s' → Inv s' (past ++ [a]))
    {s s' : σ} {past as : List α} (hinit : Inv s past) (hok : ∀ a ∈ as, ok a)
    (hrun : M.run s as = some s') : Inv s' (past ++ as) := by
  induction as generalizing s past with
  | nil =>
    rw [List.append_nil]
    exact Option.some.inj hrun ▸ hinit
  | cons a as ih =>
    obtain ⟨t, hstep, hrest⟩ := run_cons hrun
    rw [List.forall_mem_cons] at hok
    rw [List.append_cons]
    exact ih (hkeep s a t past hinit hok.1 hstep) hok.2 hrest

theorem run_append (s : σ) (as bs : List α) :
    M.run s (as ++ bs) = (M.run s as).bind fun t => M.run t bs := by
  induction as generalizing s with
  | nil => rfl
  | cons a as ih =>
    rw [List.cons_append, run, run, Option.bind_assoc]
    apply Option.bind_congr
    intro t _
    exact ih t

/-- What every step keeps holds after every run. -/
theorem run_keeps {Inv : σ → Prop} (hkeep : ∀ s a s', Inv s → M.step s a = some s' → Inv s')
    {s s' : σ} {as : List α} (hinit : Inv s) (hrun : M.run s as = some s') : Inv s' := by
  have hmeets : M.Meets (fun _ _ _ => True) s as := meets_of_forall_mem fun _ _ => trivial
  exact run_invariant (fun s a s' h _ hstep => hkeep s a s' h hstep) hinit hmeets hrun

/-- Some schedule leads from the initial state to this one. -/
def Reachable (M : Machine σ α) (s : σ) : Prop := ∃ as, M.run M.init as = some s

theorem Reachable.step {s s' : σ} {a : α} (h : M.Reachable s) (hstep : M.step s a = some s') :
    M.Reachable s' := by
  obtain ⟨as, hrun⟩ := h
  refine ⟨as ++ [a], ?_⟩
  rw [run_append, hrun, Option.bind_some, run, hstep]
  rfl

/-- A property that no step can establish held before every run at whose end it holds. -/
theorem holds_before {P : σ → Prop} (hback : ∀ s a s', M.step s a = some s' → P s' → P s)
    {s s' : σ} {as : List α} (hrun : M.run s as = some s') (hfinal : P s') : P s := by
  induction as generalizing s with
  | nil => exact Option.some.inj hrun ▸ hfinal
  | cons a as ih =>
    obtain ⟨t, hstep, hrest⟩ := run_cons hrun
    exact hback s a t hstep (ih hrest)

theorem meets_of_holds_after {P : σ → Prop} (hback : ∀ s a s', M.step s a = some s' → P s' → P s)
    {s s' : σ} {as : List α} (hrun : M.run s as = some s') (hfinal : P s') :
    M.Meets (fun _ _ t => P t) s as := by
  induction as generalizing s with
  | nil => trivial
  | cons a as ih =>
    obtain ⟨t, hstep, hrest⟩ := run_cons hrun
    rw [meets_cons hstep]
    exact ⟨holds_before hback hrest hfinal, ih hrest⟩

/-- A property that no step can establish survives a run exactly when every step satisfies `ok`,
where `ok` is what a step needs for keeping it. -/
theorem holds_after_iff {P Inv : σ → Prop} {ok : σ → α → σ → Prop}
    (hback : ∀ s a s', M.step s a = some s' → P s' → P s)
    (hkeep : ∀ s a s', Inv s → M.step s a = some s' → Inv s')
    (hiff : ∀ s a s', Inv s → P s → M.step s a = some s' → (P s' ↔ ok s a s'))
    {s s' : σ} {as : List α} (hinv : Inv s) (hinit : P s) (hrun : M.run s as = some s') :
    P s' ↔ M.Meets ok s as := by
  induction as generalizing s with
  | nil =>
    obtain rfl : s = s' := Option.some.inj hrun
    exact iff_of_true hinit trivial
  | cons a as ih =>
    obtain ⟨t, hstep, hrest⟩ := run_cons hrun
    rw [meets_cons hstep, ← hiff s a t hinv hinit hstep]
    constructor
    · intro hfinal
      have ht := holds_before hback hrest hfinal
      exact ⟨ht, (ih (hkeep s a t hinv hstep) ht hrest).mp hfinal⟩
    · intro ⟨ht, hmeets⟩
      exact (ih (hkeep s a t hinv hstep) ht hrest).mpr hmeets

/-- A property holds after every step of a run exactly when every step satisfies `ok`, where `ok` is
what a step from a state with the property needs for keeping it. -/
theorem meets_iff {P Inv : σ → Prop} {dom : α → Prop} {ok : σ → α → σ → Prop}
    (hkeep : ∀ s a s', Inv s → dom a → M.step s a = some s' → Inv s')
    (hiff : ∀ s a s', Inv s → P s → dom a → M.step s a = some s' → (P s' ↔ ok s a s'))
    {s : σ} {as : List α} (hinv : Inv s) (hinit : P s) (hdom : ∀ a ∈ as, dom a) :
    M.Meets (fun _ _ t => P t) s as ↔ M.Meets ok s as := by
  induction as generalizing s with
  | nil => exact iff_of_true trivial trivial
  | cons a as ih =>
    rw [List.forall_mem_cons] at hdom
    cases hstep : M.step s a with
    | none => simp only [Meets, hstep]
    | some t =>
      rw [meets_cons hstep, meets_cons hstep, ← hiff s a t hinv hinit hdom.1 hstep]
      apply and_congr_right
      intro ht
      exact ih (hkeep s a t hinv hdom.1 hstep) ht hdom.2

end Machine
