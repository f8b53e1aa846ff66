import MsgpackRpc.Lib.Machine
import Mathlib.Data.List.Perm.Basic

/-!
# The list of connections and who owns what it lists

The list holds weak pointers.  `async_close_all` turns each of them into a `shared_ptr` of its own
while it holds the mutex, and the destructor of a connection takes the same mutex, so what counts is
who still owns a connection when that `shared_ptr` goes out of scope.
-/

namespace MsgpackRpc.Transport

/-- The address of a connection, which is its key in the list. -/
abbrev ConnectionId := Nat

/-- The `shared_ptr`s to a connection outside `async_close_all`. -/
structure Owners where
  /-- Those in pending handlers of the socket and in variables of other threads. -/
  handles : Nat := 0
  /-- Those in the tasks that `async_close` has posted. -/
  closeTasks : Nat := 0
  deriving DecidableEq, Repr

namespace Owners

def count (o : Owners) : Nat := o.handles + o.closeTasks

def copy (o : Owners) : Owners := { o with handles := o.handles + 1 }

def drop (o : Owners) : Owners := { o with handles := o.handles - 1 }

/-- `async_close` posts a task that holds `shared_from_this()`. -/
def asyncClose (o : Owners) : Owners := { o with closeTasks := o.closeTasks + 1 }

def finishClose (o : Owners) : Owners := { o with closeTasks := o.closeTasks - 1 }

end Owners

/-- Where the thread in `async_close_all` stands; it holds `mutex_` everywhere but at `idle`. -/
inductive Sweep where
  | idle
  /-- The elements that the loop has still to visit. -/
  | next (rest : List ConnectionId)
  /-- The weak pointer was locked, and `async_close` is not yet called. -/
  | close (connection : ConnectionId) (rest : List ConnectionId)
  /-- The close task is posted; the local `shared_ptr` goes out of scope next. -/
  | leave (connection : ConnectionId) (rest : List ConnectionId)
  /-- The local was the last owner: its thread is in the destructor of the connection. -/
  | destroy (connection : ConnectionId) (rest : List ConnectionId)
  deriving DecidableEq, Repr

namespace Sweep

/-- The local `shared_ptr` of the iteration. -/
def holds : Sweep → Option ConnectionId
  | close c _ | leave c _ => some c
  | _ => none

/-- The element that is visited and those that follow it. -/
def remaining : Sweep → List ConnectionId
  | idle => []
  | next rest => rest
  | close c rest | leave c rest | destroy c rest => c :: rest

end Sweep

/-- `ConnectionList` with the connections whose pointers it was given. -/
structure ConnectionList where
  /-- The keys of `list_`. -/
  list : List ConnectionId := []
  owners : ConnectionId → Owners := fun _ => {}
  /-- Destructors on other threads that have still to call `remove`. -/
  destructors : List ConnectionId := []
  sweep : Sweep := .idle

inductive ConnectionListAction where
  /-- `on_accept` makes a connection at a free address and appends it. -/
  | append (c : ConnectionId)
  /-- An owner hands its pointer on: to a handler, or to a variable. -/
  | copy (c : ConnectionId)
  /-- `weak_ptr::lock`, as in `ServerConnection`. -/
  | lock (c : ConnectionId)
  /-- An owner calls `async_close`. -/
  | asyncClose (c : ConnectionId)
  /-- A handler or a variable that owns the connection goes away. -/
  | drop (c : ConnectionId)
  /-- A posted close task has run and goes away. -/
  | finishClose (c : ConnectionId)
  /-- A destructor on another thread gets the mutex. -/
  | remove (c : ConnectionId)
  /-- `async_close_all` gets the mutex; `order` is how the map iterates. -/
  | closeAll (order : List ConnectionId)
  /-- The thread in `async_close_all` goes on. -/
  | sweep
  deriving DecidableEq, Repr

namespace ConnectionList

/-- `shared_ptr::use_count`. -/
def useCount (s : ConnectionList) (c : ConnectionId) : Nat :=
  (s.owners c).count + if s.sweep.holds = some c then 1 else 0

def setOwners (s : ConnectionList) (c : ConnectionId) (o : Owners) : ConnectionList :=
  { s with owners := fun c' => if c' = c then o else s.owners c' }

/-- Another thread gives up a pointer, and runs the destructor where it was the last one. -/
def release (s : ConnectionList) (c : ConnectionId) (o : Owners) : ConnectionList :=
  let s := s.setOwners c o
  if s.useCount c = 0 then { s with destructors := c :: s.destructors } else s

/-- The next step of the thread in `async_close_all`, and `none` where it cannot make one. -/
def asyncCloseAll (s : ConnectionList) : Option ConnectionList :=
  match s.sweep with
  | .idle => none
  | .next [] => some { s with sweep := .idle }
  | .next (c :: rest) =>
      if s.useCount c = 0 then some { s with sweep := .next rest }
      else some { s with sweep := .close c rest }
  | .close c rest =>
      some { s.setOwners c (s.owners c).asyncClose with sweep := .leave c rest }
  | .leave c rest =>
      if (s.owners c).count = 0 then some { s with sweep := .destroy c rest }
      else some { s with sweep := .next rest }
  -- `remove` locks the mutex that this thread holds
  | .destroy _ _ => none

def step (s : ConnectionList) : ConnectionListAction → Option ConnectionList
  | .append c =>
      if s.sweep = .idle ∧ s.useCount c = 0 ∧ c ∉ s.destructors then
        -- `try_emplace` leaves a key alone that is there
        some { s.setOwners c { handles := 1 } with
          list := if c ∈ s.list then s.list else c :: s.list }
      else none
  | .copy c =>
      if (s.owners c).count = 0 then none else some (s.setOwners c (s.owners c).copy)
  | .lock c => if s.useCount c = 0 then none else some (s.setOwners c (s.owners c).copy)
  | .asyncClose c =>
      if (s.owners c).count = 0 then none else some (s.setOwners c (s.owners c).asyncClose)
  | .drop c => if (s.owners c).handles = 0 then none else some (s.release c (s.owners c).drop)
  | .finishClose c =>
      if (s.owners c).closeTasks = 0 then none else some (s.release c (s.owners c).finishClose)
  | .remove c =>
      if s.sweep = .idle ∧ c ∈ s.destructors then
        some { s with list := s.list.erase c, destructors := s.destructors.erase c }
      else none
  | .closeAll order =>
      if s.sweep = .idle ∧ order.isPerm s.list = true then some { s with sweep := .next order }
      else none
  | .sweep => s.asyncCloseAll

end ConnectionList

def connectionListMachine : Machine ConnectionList ConnectionListAction where
  init := {}
  step := ConnectionList.step

namespace ConnectionList

/-- What each action does, with what it needs. -/
inductive Steps (s : ConnectionList) : ConnectionListAction → ConnectionList → Prop where
  | append {c} (hfree : s.sweep = .idle) :
      Steps s (.append c) { s.setOwners c { handles := 1 } with
        list := if c ∈ s.list then s.list else c :: s.list }
  /-- Another thread gains a pointer. -/
  | gained {a c o} (hother : a ≠ .sweep)
      (htasks : (s.owners c).closeTasks ≤ o.closeTasks) : Steps s a (s.setOwners c o)
  /-- Another thread gives up a pointer. -/
  | released {a c o} (hother : a ≠ .sweep)
      (htasks : a = .finishClose c ∨ o.closeTasks = (s.owners c).closeTasks) :
      Steps s a (s.release c o)
  | removed {c} (hfree : s.sweep = .idle) :
      Steps s (.remove c)
        { s with list := s.list.erase c, destructors := s.destructors.erase c }
  | begun {order} (hfree : s.sweep = .idle) (hperm : order.Perm s.list) :
      Steps s (.closeAll order) { s with sweep := .next order }
  | swept {s'} (hsweep : s.asyncCloseAll = some s') : Steps s .sweep s'

theorem steps_of_step {s s' : ConnectionList} {a : ConnectionListAction}
    (h : connectionListMachine.step s a = some s') : Steps s a s' := by
  have h : s.step a = some s' := h
  cases a with
  | append c =>
    obtain ⟨⟨hfree, -, -⟩, h⟩ := Option.ite_none_right_eq_some.mp h
    cases h
    exact .append hfree
  | copy c =>
    obtain ⟨-, h⟩ := Option.ite_none_left_eq_some.mp h
    cases h
    exact .gained nofun (Nat.le_refl _)
  | lock c =>
    obtain ⟨-, h⟩ := Option.ite_none_left_eq_some.mp h
    cases h
    exact .gained nofun (Nat.le_refl _)
  | asyncClose c =>
    obtain ⟨-, h⟩ := Option.ite_none_left_eq_some.mp h
    cases h
    exact .gained nofun (Nat.le_succ _)
  | drop c =>
    obtain ⟨-, h⟩ := Option.ite_none_left_eq_some.mp h
    cases h
    exact .released nofun (.inr rfl)
  | finishClose c =>
    obtain ⟨-, h⟩ := Option.ite_none_left_eq_some.mp h
    cases h
    exact .released nofun (.inl rfl)
  | remove c =>
    obtain ⟨⟨hfree, -⟩, h⟩ := Option.ite_none_right_eq_some.mp h
    cases h
    exact .removed hfree
  | closeAll order =>
    obtain ⟨⟨hfree, hperm⟩, h⟩ := Option.ite_none_right_eq_some.mp h
    cases h
    exact .begun hfree (List.isPerm_iff.mp hperm)
  | sweep => exact .swept h

@[simp] theorem setOwners_sweep (s : ConnectionList) (c : ConnectionId) (o : Owners) :
    (s.setOwners c o).sweep = s.sweep := rfl

@[simp] theorem setOwners_list (s : ConnectionList) (c : ConnectionId) (o : Owners) :
    (s.setOwners c o).list = s.list := rfl

@[simp] theorem release_sweep (s : ConnectionList) (c : ConnectionId) (o : Owners) :
    (s.release c o).sweep = s.sweep := by
  rw [release]
  split <;> rfl

@[simp] theorem release_list (s : ConnectionList) (c : ConnectionId) (o : Owners) :
    (s.release c o).list = s.list := by
  rw [release]
  split <;> rfl

/-! ## The sweep -/

/-- What the loop of `async_close_all` relies on: its thread is not in the destructor of a
connection, it can make its next step, and what it visits and will visit is still in the list. -/
structure SweepsSafely (s : ConnectionList) : Prop where
  outside : ∀ c rest, s.sweep ≠ .destroy c rest
  moves : s.sweep ≠ .idle → s.asyncCloseAll ≠ none
  listed : ∀ c ∈ s.sweep.remaining, c ∈ s.list

/-- Nothing that the loop has still to visit was erased. -/
def Lists (s : ConnectionList) : Prop := ∀ c ∈ s.sweep.remaining, c ∈ s.list

theorem asyncCloseAll_ne_none {s : ConnectionList} (hbusy : s.sweep ≠ .idle)
    (houtside : ∀ c rest, s.sweep ≠ .destroy c rest) : s.asyncCloseAll ≠ none := by
  rw [asyncCloseAll]
  split
  · exact absurd ‹_› hbusy
  · exact Option.some_ne_none _
  · split <;> exact Option.some_ne_none _
  · exact Option.some_ne_none _
  · split <;> exact Option.some_ne_none _
  · exact absurd ‹_› (houtside _ _)

theorem sweepsSafely_iff {s : ConnectionList} (h : s.Lists) :
    s.SweepsSafely ↔ ∀ c rest, s.sweep ≠ .destroy c rest :=
  ⟨SweepsSafely.outside, fun houtside =>
    ⟨houtside, fun hbusy => asyncCloseAll_ne_none hbusy houtside, h⟩⟩

/-- A step of the sweep leaves the list alone, and goes on with elements it had. -/
theorem asyncCloseAll_frame {s s' : ConnectionList} (h : s.asyncCloseAll = some s') :
    s'.list = s.list ∧ s'.sweep.remaining ⊆ s.sweep.remaining := by
  rw [asyncCloseAll] at h
  split at h
  · cases h
  · cases h
    exact ⟨rfl, List.nil_subset _⟩
  · rename_i c rest hsweep
    rw [hsweep]
    split at h <;> cases h
    · exact ⟨rfl, List.subset_cons_self c rest⟩
    · exact ⟨rfl, List.Subset.refl _⟩
  · rename_i c rest hsweep
    cases h
    rw [hsweep]
    exact ⟨rfl, List.Subset.refl _⟩
  · rename_i c rest hsweep
    rw [hsweep]
    split at h <;> cases h
    · exact ⟨rfl, List.Subset.refl _⟩
    · exact ⟨rfl, List.subset_cons_self c rest⟩
  · cases h

theorem lists_step {s s' : ConnectionList} {a : ConnectionListAction} (h : s.Lists)
    (hstep : connectionListMachine.step s a = some s') : s'.Lists := by
  cases steps_of_step hstep with
  | append hfree | removed hfree =>
    intro c hmem
    simp [hfree, Sweep.remaining] at hmem
  | gained => exact h
  | released =>
    rw [Lists, release_sweep, release_list]
    exact h
  | begun _ hperm => exact fun c hmem => hperm.mem_iff.mp hmem
  | swept hsweep =>
    obtain ⟨hlist, hsub⟩ := asyncCloseAll_frame hsweep
    intro c hmem
    rw [hlist]
    exact h c (hsub hmem)

/-- Where the sweep lets go of the connection it has asked to close, another thread owns it. -/
def LeavesOwner (s : ConnectionList) (a : ConnectionListAction) : Prop :=
  a = .sweep → ∀ c rest, s.sweep = .leave c rest → 0 < (s.owners c).count

theorem outside_asyncCloseAll {s s' : ConnectionList} (h : s.asyncCloseAll = some s') :
    (∀ c rest, s'.sweep ≠ .destroy c rest) ↔ s.LeavesOwner .sweep := by
  rw [asyncCloseAll] at h
  split at h
  · cases h
  · cases h
    exact iff_of_true (by simp) (by simp_all [LeavesOwner])
  · split at h <;> cases h <;> exact iff_of_true (by simp) (by simp_all [LeavesOwner])
  · cases h
    exact iff_of_true (by simp) (by simp_all [LeavesOwner])
  · rename_i c rest hsweep
    split at h <;> cases h
    · rename_i hlast
      refine iff_of_false (fun hout => hout c rest rfl) fun howner => ?_
      exact absurd (howner rfl c rest hsweep) (by omega)
    · rename_i hnot
      refine iff_of_true (by simp) fun _ c' rest' heq => ?_
      rw [hsweep] at heq
      cases heq
      omega
  · cases h

theorem sweepsSafely_step_iff {s s' : ConnectionList} {a : ConnectionListAction} (h : s.Lists)
    (hsafe : s.SweepsSafely) (hstep : connectionListMachine.step s a = some s') :
    s'.SweepsSafely ↔ s.LeavesOwner a := by
  rw [sweepsSafely_iff (lists_step h hstep)]
  cases steps_of_step hstep with
  | append hfree | removed hfree =>
    exact iff_of_true (by simp [hfree]) nofun
  | begun => exact iff_of_true (by simp) nofun
  | gained hother => exact iff_of_true hsafe.outside fun heq => absurd heq hother
  | released hother =>
    rw [release_sweep]
    exact iff_of_true hsafe.outside fun heq => absurd heq hother
  | swept hsweep => exact outside_asyncCloseAll hsweep

/-- Some connections are listed, with whatever owners they have, and nobody sweeps. -/
def listing (list : List ConnectionId) (owners : ConnectionId → Owners) : ConnectionList :=
  { list, owners }

theorem lists_listing (list : List ConnectionId) (owners : ConnectionId → Owners) :
    (listing list owners).Lists := by
  intro c hmem
  cases hmem

theorem sweepsSafely_listing (list : List ConnectionId) (owners : ConnectionId → Owners) :
    (listing list owners).SweepsSafely :=
  (sweepsSafely_iff (lists_listing list owners)).mpr nofun

end ConnectionList

open ConnectionList

/-- The sweep is safe in every state of a run exactly when another owner is left each time it lets
go of a connection. -/
theorem sweeps_safely_iff (list : List ConnectionId) (owners : ConnectionId → Owners)
    (schedule : List ConnectionListAction) :
    connectionListMachine.Meets (fun _ _ s => s.SweepsSafely) (listing list owners) schedule ↔
      connectionListMachine.Meets (fun s a _ => s.LeavesOwner a) (listing list owners)
        schedule := by
  have hiff : ∀ s a s', s.Lists → SweepsSafely s → True →
      connectionListMachine.step s a = some s' → (SweepsSafely s' ↔ LeavesOwner s a) :=
    fun _ _ _ hl hs _ hstep => sweepsSafely_step_iff hl hs hstep
  exact Machine.meets_iff (fun _ _ _ h _ hstep => lists_step h hstep) hiff
    (lists_listing list owners) (sweepsSafely_listing list owners) fun _ _ => trivial

/-- The close task of the only connection finishes on another thread, and so does its aborted read,
before the iteration that posted the task ends: the loop destroys the connection and then waits for
the mutex it holds. -/
theorem sweep_destroys :
    ¬ ∀ (list : List ConnectionId) (owners : ConnectionId → Owners)
      (schedule : List ConnectionListAction),
      connectionListMachine.Meets (fun _ _ s => s.SweepsSafely) (listing list owners) schedule := by
  intro h
  obtain ⟨-, -, -, -, -, hlast, -⟩ := h [0] (fun _ => { handles := 1 })
    [.closeAll [0], .sweep, .sweep, .drop 0, .finishClose 0, .sweep]
  exact hlast.outside 0 [] rfl

/-! ## When the transport has one thread -/

namespace ConnectionList

/-- The close task that was posted last is still there when its iteration ends. -/
def TaskWaits (s : ConnectionList) : Prop :=
  ∀ c rest, s.sweep = .leave c rest → 0 < (s.owners c).closeTasks

/-- The close task of the visited connection does not run before its iteration ends. -/
def RunsLater (s : ConnectionList) (a : ConnectionListAction) : Prop :=
  ∀ c rest, s.sweep = .leave c rest → a ≠ .finishClose c

@[simp] theorem release_owners (s : ConnectionList) (c : ConnectionId) (o : Owners) :
    (s.release c o).owners = (s.setOwners c o).owners := by
  rw [release]
  split <;> rfl

theorem closeTasks_setOwners {s : ConnectionList} {c : ConnectionId} {o : Owners}
    (c' : ConnectionId) (htasks : c' = c → (s.owners c).closeTasks ≤ o.closeTasks) :
    (s.owners c').closeTasks ≤ ((s.setOwners c o).owners c').closeTasks := by
  simp only [setOwners]
  split
  · rename_i heq
    rw [heq]
    exact htasks heq
  · exact Nat.le_refl _

theorem taskWaits_asyncCloseAll {s s' : ConnectionList} (h : s.asyncCloseAll = some s') :
    s'.TaskWaits := by
  rw [asyncCloseAll] at h
  split at h
  · cases h
  · cases h
    exact nofun
  · split at h <;> cases h <;> exact nofun
  · cases h
    intro c rest heq
    cases heq
    simp [setOwners, Owners.asyncClose]
  · split at h <;> cases h <;> exact nofun
  · cases h

theorem taskWaits_step {s s' : ConnectionList} {a : ConnectionListAction} (h : s.TaskWaits)
    (hok : s.RunsLater a) (hstep : connectionListMachine.step s a = some s') : s'.TaskWaits := by
  cases steps_of_step hstep with
  | append hfree | removed hfree =>
    intro c rest heq
    simp [hfree] at heq
  | begun => exact nofun
  | gained _ htasks =>
    intro c rest heq
    exact Nat.lt_of_lt_of_le (h c rest heq) (closeTasks_setOwners c fun _ => htasks)
  | @released _ c' o _ htasks =>
    intro c rest heq
    rw [release_sweep] at heq
    rw [release_owners]
    refine Nat.lt_of_lt_of_le (h c rest heq) (closeTasks_setOwners c fun hc => ?_)
    obtain rfl | htasks := htasks
    · exact absurd (hc ▸ rfl) (hok c rest heq)
    · exact Nat.le_of_eq htasks.symm
  | swept hsweep => exact taskWaits_asyncCloseAll hsweep

theorem leavesOwner_of_taskWaits {s : ConnectionList} {a : ConnectionListAction}
    (h : s.TaskWaits) : s.LeavesOwner a := by
  intro _ c rest heq
  have htask : 0 < (s.owners c).closeTasks := h c rest heq
  rw [Owners.count]
  omega

end ConnectionList

/-- The sweep is safe where the tasks it posts wait for it, as they do when its thread is the only
one that runs them. -/
theorem sweeps_safely_of_runsLater (list : List ConnectionId) (owners : ConnectionId → Owners)
    (schedule : List ConnectionListAction)
    (h : connectionListMachine.Meets (fun s a _ => s.RunsLater a) (listing list owners) schedule) :
    connectionListMachine.Meets (fun _ _ s => s.SweepsSafely) (listing list owners) schedule := by
  have hkeep : ∀ s a s', (s.Lists ∧ SweepsSafely s ∧ TaskWaits s) → RunsLater s a →
      connectionListMachine.step s a = some s' → s'.Lists ∧ SweepsSafely s' ∧ TaskWaits s' := by
    intro s a s' ⟨hlists, hsafe, hwaits⟩ hok hstep
    exact ⟨lists_step hlists hstep,
      (sweepsSafely_step_iff hlists hsafe hstep).mpr (leavesOwner_of_taskWaits hwaits),
      taskWaits_step hwaits hok hstep⟩
  have hsafe : ∀ s a s', (s.Lists ∧ SweepsSafely s ∧ TaskWaits s) → RunsLater s a →
      connectionListMachine.step s a = some s' → SweepsSafely s' :=
    fun s a s' hs hok hstep => (hkeep s a s' hs hok hstep).2.1
  exact h.imp hkeep hsafe ⟨lists_listing list owners, sweepsSafely_listing list owners, nofun⟩

end MsgpackRpc.Transport
