/-!
# Acquiring one resource after the other

A loop acquires resources for the items of a list.  When one item fails, what the items before it
have acquired is released, and the failure is passed on.
-/

universe u v w x y

namespace Acquire

variable {α : Type u} {β : Type v} {ε : Type w} {ω : Type x}

/-- Releases the resources, the last one first. -/
def releaseAll (release : β → ω → ω) (resources : List β) (world : ω) : ω :=
  resources.foldr release world

@[simp] theorem releaseAll_nil (release : β → ω → ω) (world : ω) :
    releaseAll release [] world = world := rfl

@[simp] theorem releaseAll_cons (release : β → ω → ω) (resource : β) (resources : List β)
    (world : ω) :
    releaseAll release (resource :: resources) world =
      release resource (releaseAll release resources world) := rfl

theorem releaseAll_append (release : β → ω → ω) (resources rest : List β) (world : ω) :
    releaseAll release (resources ++ rest) world =
      releaseAll release resources (releaseAll release rest world) :=
  List.foldr_append ..

/-- A failure unwinds the items that came before it. -/
def acquireAll (acquire : α → ω → Except ε (List β) × ω) (release : β → ω → ω) :
    List α → ω → Except ε (List β) × ω
  | [], world => (.ok [], world)
  | a :: as, world =>
      match acquire a world with
      | (.error failure, world) => (.error failure, world)
      | (.ok resources, world) =>
          match acquireAll acquire release as world with
          | (.ok rest, world) => (.ok (resources ++ rest), world)
          | (.error failure, world) => (.error failure, releaseAll release resources world)

variable {acquire : α → ω → Except ε (List β) × ω} {release : β → ω → ω}

/-- What a loop that succeeds has done at its first item and after it. -/
theorem acquireAll_cons_ok {a : α} {as : List α} {world world' : ω} {resources : List β}
    (h : acquireAll acquire release (a :: as) world = (.ok resources, world')) :
    ∃ first rest between, acquire a world = (.ok first, between) ∧
      acquireAll acquire release as between = (.ok rest, world') ∧ resources = first ++ rest := by
  rw [acquireAll] at h
  split at h
  · cases h
  · rename_i first between hfirst
    split at h
    · rename_i rest after hrest
      cases h
      exact ⟨first, rest, between, hfirst, hrest, rfl⟩
    · cases h

/-- What holds of every item, and of two stretches of the loop in turn, holds of the loop. -/
theorem acquireAll_ok_induct {P : ω → ω → List β → Prop} (hnil : ∀ world, P world world [])
    (happend : ∀ world between world' first rest, P world between first →
      P between world' rest → P world world' (first ++ rest))
    (hstep : ∀ a world world' resources, acquire a world = (.ok resources, world') →
      P world world' resources)
    {as : List α} {world world' : ω} {resources : List β}
    (h : acquireAll acquire release as world = (.ok resources, world')) :
    P world world' resources := by
  induction as generalizing world resources with
  | nil =>
    cases h
    exact hnil _
  | cons a as ih =>
    obtain ⟨first, rest, between, hfirst, hrest, rfl⟩ := acquireAll_cons_ok h
    have hhead : P world between first := hstep a world between first hfirst
    exact happend world between world' first rest hhead (ih hrest)

theorem acquireAll_append_ok {as bs : List α} {world between : ω} {resources : List β}
    (h : acquireAll acquire release as world = (.ok resources, between)) :
    acquireAll acquire release (as ++ bs) world =
      match acquireAll acquire release bs between with
      | (.ok rest, world') => (.ok (resources ++ rest), world')
      | (.error failure, world') => (.error failure, releaseAll release resources world') := by
  induction as generalizing world resources with
  | nil =>
    cases h
    split <;> simp_all
  | cons a as ih =>
    obtain ⟨first, rest, next, hfirst, hrest, rfl⟩ := acquireAll_cons_ok h
    rw [List.cons_append, acquireAll, hfirst]
    dsimp only
    rw [ih hrest]
    cases acquireAll acquire release bs between with
    | mk result world' =>
      cases result with
      | ok others => simp only [List.append_assoc]
      | error failure => simp only [releaseAll_append]

/-- A loop that fails fails at one item: those before it succeed and are released. -/
theorem exists_of_acquireAll_error {as : List α} {world world' : ω} {failure : ε}
    (h : acquireAll acquire release as world = (.error failure, world')) :
    ∃ before a after resources between failed, as = before ++ a :: after ∧
      acquireAll acquire release before world = (.ok resources, between) ∧
      acquire a between = (.error failure, failed) ∧
      world' = releaseAll release resources failed := by
  induction as generalizing world world' with
  | nil => cases h
  | cons a as ih =>
    rw [acquireAll] at h
    split at h
    · rename_i failed hfailed
      cases h
      exact ⟨[], a, as, [], world, world', rfl, rfl, hfailed, rfl⟩
    · rename_i first next hfirst
      split at h
      · cases h
      · rename_i last hlast
        cases h
        obtain ⟨before, b, after, resources, between, failed, has, hbefore, hb, hreleased⟩ :=
          ih hlast
        refine ⟨a :: before, b, after, first ++ resources, between, failed, ?_, ?_, hb, ?_⟩
        · rw [has, List.cons_append]
        · simp only [acquireAll, hfirst, hbefore]
        · rw [hreleased, releaseAll_append]

/-- An item that fails after others have succeeded makes the loop fail. -/
theorem acquireAll_error_of {before : List α} {a : α} {world between failed : ω}
    {resources : List β} {failure : ε} (after : List α)
    (hbefore : acquireAll acquire release before world = (.ok resources, between))
    (ha : acquire a between = (.error failure, failed)) :
    acquireAll acquire release (before ++ a :: after) world =
      (.error failure, releaseAll release resources failed) := by
  rw [acquireAll_append_ok hbefore, acquireAll, ha]

/-- `view` is a part of the world that a release restores. -/
structure Restores {ν : Type y} (acquire : α → ω → Except ε (List β) × ω) (release : β → ω → ω)
    (view : ω → ν) : Prop where
  congr : ∀ resource world world', view world = view world' →
    view (release resource world) = view (release resource world')
  ok : ∀ a world world' resources, acquire a world = (.ok resources, world') →
    view (releaseAll release resources world') = view world
  error : ∀ a world world' failure, acquire a world = (.error failure, world') →
    view world' = view world

namespace Restores

variable {ν : Type y} {view : ω → ν}

theorem releaseAll_congr (h : Restores acquire release view) {world world' : ω}
    (hview : view world = view world') (resources : List β) :
    view (releaseAll release resources world) = view (releaseAll release resources world') := by
  induction resources with
  | nil => exact hview
  | cons resource resources ih => exact h.congr resource _ _ ih

/-- Releasing everything that a loop has acquired restores the view. -/
theorem acquireAll_ok (h : Restores acquire release view) {as : List α} {world world' : ω}
    {resources : List β}
    (hall : acquireAll acquire release as world = (.ok resources, world')) :
    view (releaseAll release resources world') = view world := by
  refine acquireAll_ok_induct (P := fun world world' resources =>
    view (releaseAll release resources world') = view world) (fun _ => rfl) ?_ h.ok hall
  intro world between world' first rest hfirst hrest
  rw [releaseAll_append]
  exact (h.releaseAll_congr hrest first).trans hfirst

/-- A loop that fails has restored the view. -/
theorem acquireAll_error (h : Restores acquire release view) {as : List α} {world world' : ω}
    {failure : ε} (hall : acquireAll acquire release as world = (.error failure, world')) :
    view world' = view world := by
  obtain ⟨before, a, after, resources, between, failed, -, hbefore, ha, hreleased⟩ :=
    exists_of_acquireAll_error hall
  have hfailed : view failed = view between := h.error a between failed failure ha
  rw [hreleased]
  calc view (releaseAll release resources failed)
      = view (releaseAll release resources between) := h.releaseAll_congr hfailed resources
    _ = view world := h.acquireAll_ok hbefore

end Restores

end Acquire
