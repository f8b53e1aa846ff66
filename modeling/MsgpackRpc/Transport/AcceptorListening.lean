import MsgpackRpc.Lib.Update
import MsgpackRpc.Transport.Acceptor

/-!
# Accepting again and again

The turn to listen is passed on from the task that `start` posts to the first `async_accept`, and
from the handler of each to the next.  The handler passes it on only if it does not throw and finds
the state `PROCESSING`, which `start` stores after it has posted the task.
-/

namespace MsgpackRpc.Transport

/-- The completion of an `async_accept` is a success. -/
def AcceptorAction.acceptSucceeds : AcceptorAction → Bool
  | .accept _ error _ => error.isNone
  | _ => true

namespace Acceptor

/-- `start` has posted the first task. -/
def posted (s : Acceptor) : Bool :=
  match s.starting with
  | some .post => false
  | some .processingStarted => true
  | none => s.state != .init

/-- The tasks that start an `async_accept`, and the operations that are pending or whose handler has
not run. -/
def turns (s : Acceptor) : Nat :=
  s.tasks.count .asyncAcceptNext + s.accepts.length

/-- Once `start` has posted the first task, exactly one task, operation or handler listens, and no
handler has thrown. -/
structure Listens (s : Acceptor) : Prop where
  turns : s.posted = true → s.turns = 1
  thrown : s.thrown = none

instance Listens.decidable (s : Acceptor) : Decidable s.Listens :=
  decidable_of_iff ((s.posted = true → s.turns = 1) ∧ s.thrown = none)
    ⟨fun h => ⟨h.1, h.2⟩, fun h => ⟨h.turns, h.thrown⟩⟩

/-- A handler of an `async_accept` runs in `PROCESSING` and the accepted socket has its
endpoints. -/
def acceptsReady (s : Acceptor) : AcceptorAction → Bool
  | .accept _ _ endpoints => s.state.isProcessing && endpoints.isNone
  | _ => true

/-- What every run without `stop` keeps. -/
structure Unstopped (s : Acceptor) : Prop where
  starting : s.starting ≠ none → s.state = .starting
  idle : s.posted = false → s.turns = 0
  tasks : ∀ task ∈ s.tasks, task = .asyncAcceptNext
  state : s.state ≠ .stopped

theorem unstopped_init : Unstopped {} where
  starting hne := absurd rfl hne
  idle _ := rfl
  tasks := nofun
  state := nofun

theorem turns_post (s : Acceptor) (task : AcceptorTask) :
    (s.post task).turns = s.turns + if task = .asyncAcceptNext then 1 else 0 := by
  unfold turns post
  rw [List.count_append, List.count_singleton]
  simp only [beq_iff_eq]
  omega

theorem turns_of_task {s : Acceptor} {i : Nat} (htask : s.tasks[i]? = some .asyncAcceptNext) :
    turns { s with tasks := s.tasks.eraseIdx i, accepts := s.accepts ++ [s.acceptor] } =
      s.turns := by
  have hone := List.countP_eraseIdx (· == AcceptorTask.asyncAcceptNext) htask
  simp only [beq_self_eq_true, if_true] at hone
  show (s.tasks.eraseIdx i).count .asyncAcceptNext + (s.accepts ++ [s.acceptor]).length = s.turns
  unfold turns List.count
  rw [hone, List.length_append, List.length_singleton]
  omega

theorem turns_of_accept {s : Acceptor} {i : Nat} {started : SocketState}
    (haccept : s.accepts[i]? = some started) :
    s.turns = turns { s with accepts := s.accepts.eraseIdx i } + 1 := by
  have hlength := (List.perm_cons_eraseIdx haccept).length_eq
  rw [List.length_cons] at hlength
  show s.tasks.count _ + s.accepts.length =
    s.tasks.count .asyncAcceptNext + (s.accepts.eraseIdx i).length + 1
  omega

/-- Whoever holds the turn to listen has got it from `start`. -/
theorem posted_of_accept {s : Acceptor} {i : Nat} {started : SocketState} (h : s.Unstopped)
    (haccept : s.accepts[i]? = some started) : s.posted = true := by
  rw [← Bool.not_eq_false]
  intro hposted
  have hidle := h.idle hposted
  have hlost := turns_of_accept haccept
  omega

theorem unstopped_step {s s' : Acceptor} {a : AcceptorAction} (h : s.Unstopped)
    (hdom : a ≠ .stop ∧ a.acceptSucceeds = true) (hstep : acceptorMachine.step s a = some s') :
    s'.Unstopped := by
  cases steps_of_step hstep with
  | started hinit =>
    have hnone : s.starting = none := by
      by_contra hne
      rw [h.starting hne] at hinit
      cases hinit
    have hidle := h.idle (by simp [posted, hnone, hinit])
    exact ⟨fun _ => rfl, fun _ => hidle, h.tasks, nofun⟩
  | startedAgain => exact h
  | posted hstarting =>
    have hstate := h.starting (by rw [hstarting]; nofun)
    refine ⟨fun _ => hstate, fun hposted => (by cases hposted), fun task hmem => ?_, h.state⟩
    rcases List.mem_append.mp hmem with hmem | hmem
    · exact h.tasks task hmem
    · exact List.mem_singleton.mp hmem
  | processing =>
    exact ⟨fun hne => absurd rfl hne, fun hposted => (by cases hposted), h.tasks, nofun⟩
  | stopPosted => exact absurd rfl hdom.1
  | released => exact ⟨h.starting, h.idle, h.tasks, h.state⟩
  | acceptNext _ htask =>
    refine ⟨h.starting, fun hposted => ?_, fun task hmem => ?_, h.state⟩
    · rw [turns_of_task htask]
      exact h.idle hposted
    · exact h.tasks task (List.mem_of_mem_eraseIdx hmem)
  | stopRun _ htask => cases h.tasks _ (List.mem_of_getElem? htask)
  | handled _ haccept _ haccepts =>
    have hposted := posted_of_accept h haccept
    cases haccepts with
    | aborted => cases hdom.2
    | failed => cases hdom.2
    | disconnected =>
      exact ⟨h.starting, fun hnot => absurd hposted (ne_true_of_eq_false hnot), h.tasks, h.state⟩
    | accepted =>
      exact ⟨h.starting, fun hnot => absurd hposted (ne_true_of_eq_false hnot), h.tasks, h.state⟩
    | acceptedLast =>
      exact ⟨h.starting, fun hnot => absurd hposted (ne_true_of_eq_false hnot), h.tasks, h.state⟩

/-- The turn is lost by a handler that throws or does not find `PROCESSING`, and by nothing else. -/
theorem listens_step_iff {s s' : Acceptor} {a : AcceptorAction} (h : s.Unstopped)
    (hlistens : s.Listens) (hdom : a ≠ .stop ∧ a.acceptSucceeds = true)
    (hstep : acceptorMachine.step s a = some s') : s'.Listens ↔ s.acceptsReady a = true := by
  cases steps_of_step hstep with
  | started => exact iff_of_true ⟨fun hposted => (by cases hposted), hlistens.thrown⟩ rfl
  | startedAgain => exact iff_of_true hlistens rfl
  | posted hstarting =>
    -- nobody has had the turn before
    have hidle := h.idle (by simp only [Acceptor.posted, hstarting])
    refine iff_of_true ⟨fun _ => ?_, hlistens.thrown⟩ rfl
    show (s.post .asyncAcceptNext).turns = 1
    rw [turns_post, hidle]
    rfl
  | processing hstarting =>
    have hone := hlistens.turns (by simp only [Acceptor.posted, hstarting])
    exact iff_of_true ⟨fun _ => hone, hlistens.thrown⟩ rfl
  | stopPosted => exact absurd rfl hdom.1
  | released => exact iff_of_true ⟨hlistens.turns, hlistens.thrown⟩ rfl
  | acceptNext _ htask =>
    refine iff_of_true ⟨fun hposted => ?_, hlistens.thrown⟩ rfl
    rw [turns_of_task htask]
    exact hlistens.turns hposted
  | stopRun _ htask => cases h.tasks _ (List.mem_of_getElem? htask)
  | handled _ haccept _ haccepts =>
    have hposted := posted_of_accept h haccept
    have hone := hlistens.turns hposted
    have hlost := turns_of_accept haccept
    cases haccepts with
    | aborted => cases hdom.2
    | failed => cases hdom.2
    | disconnected =>
      refine iff_of_false ?_ ?_
      · intro hnow
        cases hnow.thrown
      · simp [acceptsReady]
    | accepted hstate =>
      -- the handler has passed its turn to the next `async_accept`
      have hstate : s.state = .processing := hstate
      refine iff_of_true ⟨fun _ => ?_, hlistens.thrown⟩ ?_
      · simp only [turns, List.length_append, List.length_singleton] at hone hlost ⊢
        omega
      · simp [acceptsReady, State.isProcessing, hstate]
    | acceptedLast hstate =>
      have hstate : s.state ≠ .processing := hstate
      refine iff_of_false ?_ ?_
      · intro hnow
        have hagain := hnow.turns hposted
        simp only [turns] at hone hlost hagain
        omega
      · simp [acceptsReady, State.isProcessing, hstate]

end Acceptor

/-- Without `stop`, an acceptor whose `async_accept`s succeed listens in every state of a run
exactly when each handler runs after `start` has stored `PROCESSING` and its socket has its
endpoints. -/
theorem listens_iff (schedule : List AcceptorAction) (hstop : .stop ∉ schedule)
    (haccepts : ∀ a ∈ schedule, a.acceptSucceeds = true) :
    acceptorMachine.Meets (fun _ _ s => s.Listens) {} schedule ↔
      acceptorMachine.Meets (fun s a _ => s.acceptsReady a = true) {} schedule := by
  have hdom : ∀ a ∈ schedule, a ≠ .stop ∧ a.acceptSucceeds = true := by
    intro a hmem
    exact ⟨fun ha => hstop (ha ▸ hmem), haccepts a hmem⟩
  have hinit : Acceptor.Listens {} := ⟨fun hposted => (by cases hposted), rfl⟩
  exact Machine.meets_iff (fun _ _ _ h hdom hstep => Acceptor.unstopped_step h hdom hstep)
    (fun _ _ _ h hlistens hdom hstep => Acceptor.listens_step_iff h hlistens hdom hstep)
    Acceptor.unstopped_init hinit hdom

/-- `start` returns, two clients connect one after another, and the next `async_accept` waits. -/
def acceptTwice : List AcceptorAction :=
  [.start, .startNext, .startNext, .task 0 {}, .accept 0 none none, .accept 0 none none]

theorem listens_acceptTwice :
    acceptorMachine.Meets (fun _ _ s => s.Listens) {} acceptTwice :=
  (listens_iff acceptTwice (by decide) (by decide)).mpr (by decide)

/-- A client connects before `start` has stored `PROCESSING`. -/
def acceptEarly : List AcceptorAction :=
  [.start, .startNext, .task 0 {}, .accept 0 none none]

/-- The client is accepted, and nobody after it: the handler has found `STARTING`. -/
theorem listening_ends :
    ¬ ∀ schedule : List AcceptorAction, .stop ∉ schedule →
      (∀ a ∈ schedule, a.acceptSucceeds = true) →
      acceptorMachine.Meets (fun _ _ s => s.Listens) {} schedule := by
  intro h
  have hmeets := h acceptEarly (by decide) (by decide)
  revert hmeets
  decide

/-- A client that has reset its connection: the constructor of the connection throws. -/
example : ((acceptorMachine.run {} [.start, .startNext, .startNext, .task 0 {},
      .accept 0 none (some (.other (text "Transport endpoint is not connected")))]).map (·.turns)) =
    some 0 := by
  decide

end MsgpackRpc.Transport
