import MsgpackRpc.Lib.Update
import MsgpackRpc.Executors.GeneralExecutor
import Mathlib.Algebra.GroupWithZero.Nat

/-!
# An exception in a thread of the executor

What holds of the threads, the slot of the exception and the contexts after any steps of
`run_in_thread`: whoever stops a context or calls the registered functions has filled the slot
first, and the functions are called only when all contexts are stopped.
-/

namespace MsgpackRpc.Executors

namespace GeneralExecutor

/-- Every context is stopped. -/
def AllStopped (e : GeneralExecutor) : Prop :=
  ∀ id pair, e.pair? id = some pair → pair.stopped = true

/-- What the phase of a thread says about the executor; `R` holds of the exceptions that handlers
have thrown. -/
def ThreadSound (e : GeneralExecutor) (R : ExceptionPtr → Prop) : ThreadPhase → Prop
  | .unstarted => False
  | .running => True
  | .caught x => R x
  | .interrupting x todo =>
      R x ∧ e.exceptionInThread.isSome = true ∧
        ∀ id pair, e.pair? id = some pair → id ∈ todo ∨ pair.stopped = true
  | .notifying x => R x ∧ e.exceptionInThread.isSome = true ∧ e.AllStopped
  | .finished => e.exceptionInThread.isSome = true

structure ThreadsSound (e : GeneralExecutor) (R : ExceptionPtr → Prop) : Prop where
  recorded : ∀ x, e.exceptionInThread = some x → R x
  stopped : ∀ id pair, e.pair? id = some pair → pair.stopped = true →
    e.exceptionInThread.isSome = true
  unguarded : ∀ id pair, e.pair? id = some pair → pair.guarded = false →
    e.exceptionInThread.isSome = true
  threads : ∀ id pair, e.pair? id = some pair → e.ThreadSound R pair.thread

/-- The contexts of `e'` are contexts of `e` and stay stopped, and so does the slot stay filled. -/
structure Later (e e' : GeneralExecutor) : Prop where
  pairs : ∀ id pair', e'.pair? id = some pair' →
    ∃ pair, e.pair? id = some pair ∧ (pair.stopped = true → pair'.stopped = true)
  slot : e.exceptionInThread.isSome = true → e'.exceptionInThread.isSome = true

theorem AllStopped.later {e e' : GeneralExecutor} (h : e.AllStopped) (hlater : Later e e') :
    e'.AllStopped := by
  intro id pair' hpair'
  obtain ⟨pair, hpair, hkeeps⟩ := hlater.pairs id pair' hpair'
  exact hkeeps (h id pair hpair)

theorem ThreadSound.later {e e' : GeneralExecutor} {R R' : ExceptionPtr → Prop}
    {phase : ThreadPhase} (h : e.ThreadSound R phase) (hlater : Later e e')
    (hR : ∀ x, R x → R' x) : e'.ThreadSound R' phase := by
  cases phase with
  | unstarted => exact h
  | running => trivial
  | caught x => exact hR x h
  | interrupting x todo =>
    obtain ⟨hx, hslot, htodo⟩ := h
    refine ⟨hR x hx, hlater.slot hslot, fun id pair' hpair' => ?_⟩
    obtain ⟨pair, hpair, hkeeps⟩ := hlater.pairs id pair' hpair'
    exact (htodo id pair hpair).imp_right hkeeps
  | notifying x =>
    obtain ⟨hx, hslot, hall⟩ := h
    exact ⟨hR x hx, hlater.slot hslot, hall.later hlater⟩
  | finished => exact hlater.slot h

/-! ## Updates of one pair -/

theorem pair?_modifyPair_eq_some {e : GeneralExecutor} {id id' : ContextId}
    {f : ContextThreadPair → ContextThreadPair} {pair' : ContextThreadPair}
    (h : (e.modifyPair id f).pair? id' = some pair') :
    ∃ pair, e.pair? id' = some pair ∧ pair' = if id' = id then f pair else pair := by
  rw [pair?_modifyPair] at h
  split at h
  · rename_i heq
    obtain ⟨pair, hpair, rfl⟩ := Option.map_eq_some_iff.mp h
    exact ⟨pair, hpair, (if_pos heq).symm⟩
  · rename_i hne
    exact ⟨pair', h, (if_neg hne).symm⟩

theorem later_modifyPair (e : GeneralExecutor) (id : ContextId)
    {f : ContextThreadPair → ContextThreadPair}
    (hf : ∀ pair, pair.stopped = true → (f pair).stopped = true) : Later e (e.modifyPair id f) where
  pairs id' pair' hpair' := by
    obtain ⟨pair, hpair, rfl⟩ := pair?_modifyPair_eq_some hpair'
    refine ⟨pair, hpair, fun hstopped => ?_⟩
    split
    · exact hf pair hstopped
    · exact hstopped
  slot h := h

theorem later_setThread (e : GeneralExecutor) (id : ContextId) (phase : ThreadPhase) :
    Later e (e.setThread id phase) :=
  later_modifyPair e id fun _ h => h

theorem Later.refl (e : GeneralExecutor) : Later e e where
  pairs _ pair hpair := ⟨pair, hpair, fun hstopped => hstopped⟩
  slot h := h

theorem Later.trans {e e' e'' : GeneralExecutor} (h : Later e e') (h' : Later e' e'') :
    Later e e'' where
  pairs id pair'' hpair'' := by
    obtain ⟨pair', hpair', hkeeps'⟩ := h'.pairs id pair'' hpair''
    obtain ⟨pair, hpair, hkeeps⟩ := h.pairs id pair' hpair'
    exact ⟨pair, hpair, fun hstopped => hkeeps' (hkeeps hstopped)⟩
  slot hslot := h'.slot (h.slot hslot)

/-- A thread changes its phase, and what the new phase says holds. -/
theorem ThreadsSound.setThread {e : GeneralExecutor} {R : ExceptionPtr → Prop}
    (h : e.ThreadsSound R) (id : ContextId) {phase : ThreadPhase} (hphase : e.ThreadSound R phase) :
    (e.setThread id phase).ThreadsSound R where
  recorded := h.recorded
  stopped id' pair' hpair' hstopped := by
    obtain ⟨pair, hpair, rfl⟩ := pair?_modifyPair_eq_some hpair'
    apply h.stopped id' pair hpair
    split at hstopped <;> exact hstopped
  unguarded id' pair' hpair' hguarded := by
    obtain ⟨pair, hpair, rfl⟩ := pair?_modifyPair_eq_some hpair'
    apply h.unguarded id' pair hpair
    split at hguarded <;> exact hguarded
  threads id' pair' hpair' := by
    obtain ⟨pair, hpair, rfl⟩ := pair?_modifyPair_eq_some hpair'
    have hlater := later_setThread e id phase
    split
    · exact hphase.later hlater fun _ hx => hx
    · exact (h.threads id' pair hpair).later hlater fun _ hx => hx

theorem ThreadsSound.stopContext {e : GeneralExecutor} {R : ExceptionPtr → Prop}
    (h : e.ThreadsSound R) (id : ContextId) (hslot : e.exceptionInThread.isSome = true) :
    (e.stopContext id).ThreadsSound R where
  recorded := h.recorded
  stopped _ _ _ _ := hslot
  unguarded _ _ _ _ := hslot
  threads id' pair' hpair' := by
    obtain ⟨pair, hpair, rfl⟩ := pair?_modifyPair_eq_some hpair'
    have hlater : Later e (e.stopContext id) := later_modifyPair e id fun _ _ => rfl
    have hthread := (h.threads id' pair hpair).later hlater fun _ hx => hx
    split <;> exact hthread

/-- The slot is filled with an exception that was thrown. -/
theorem ThreadsSound.store {e : GeneralExecutor} {R : ExceptionPtr → Prop} (h : e.ThreadsSound R)
    {x : ExceptionPtr} (hx : R x) : ThreadsSound { e with exceptionInThread := some x } R where
  recorded y hy := by
    cases hy
    exact hx
  stopped _ _ _ _ := rfl
  unguarded _ _ _ _ := rfl
  threads id pair hpair := by
    refine (h.threads id pair hpair).later ⟨fun _ pair' hpair' => ?_, fun _ => rfl⟩ fun _ hy => hy
    exact ⟨pair', hpair', fun hstopped => hstopped⟩

theorem ThreadsSound.mono {e : GeneralExecutor} {R R' : ExceptionPtr → Prop}
    (h : e.ThreadsSound R) (hR : ∀ x, R x → R' x) : e.ThreadsSound R' where
  recorded x hx := hR x (h.recorded x hx)
  stopped := h.stopped
  unguarded := h.unguarded
  threads id pair hpair := (h.threads id pair hpair).later (.refl e) hR

def IsCaught : ThreadPhase → Prop
  | .caught _ => True
  | _ => False

def IsTelling : ThreadPhase → Prop
  | .interrupting _ _ | .notifying _ => True
  | _ => False

/-- Some thread is in such a phase. -/
def HasThread (e : GeneralExecutor) (P : ThreadPhase → Prop) : Prop :=
  ∃ id pair, e.pair? id = some pair ∧ P pair.thread

/-- No thread can make a step of `run_in_thread`. -/
def Stuck (e : GeneralExecutor) : Prop := ∀ id, e.runInThread id = none

theorem Stuck.joined {e : GeneralExecutor} (h : e.Stuck) (hall : e.AllStopped) :
    e.joined = true := by
  have hended : ∀ id pair, e.pair? id = some pair →
      pair.thread = .unstarted ∨ pair.thread = .finished := by
    intro id pair hpair
    have hstopped : pair.stopped = true := hall id pair hpair
    have hnone := h id
    rw [runInThread, hpair] at hnone
    cases hthread : pair.thread with
    | unstarted => exact .inl rfl
    | finished => exact .inr rfl
    | interrupting x todo => cases todo <;> simp [hthread] at hnone
    | _ => simp [hthread, hstopped] at hnone
  simp only [GeneralExecutor.joined, List.all_cons, List.all_nil, Bool.and_true, Bool.and_eq_true,
    List.all_eq_true, decide_eq_true_eq]
  constructor
  · intro pair hmem
    obtain ⟨i, hi⟩ := List.getElem?_of_mem hmem
    exact hended ⟨.transport, i⟩ pair hi
  · intro pair hmem
    obtain ⟨i, hi⟩ := List.getElem?_of_mem hmem
    exact hended ⟨.callback, i⟩ pair hi

/-! ## How many steps the threads can make -/

/-- More than the steps of a thread from this phase, where there are at most `n` contexts. -/
def weight (n : Nat) : ThreadPhase → Nat
  | .unstarted | .finished => 0
  | .running => n + 4
  | .caught _ => n + 3
  | .interrupting _ todo => todo.length + 2
  | .notifying _ => 1

def poolWork (n : Nat) (pairs : List ContextThreadPair) : Nat :=
  (pairs.map fun pair => weight n pair.thread).sum

def work (e : GeneralExecutor) (n : Nat) : Nat :=
  poolWork n (e.pools .transport) + poolWork n (e.pools .callback)

end GeneralExecutor

end MsgpackRpc.Executors
