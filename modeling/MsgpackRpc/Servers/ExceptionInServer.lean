import MsgpackRpc.Executors.ExecutorThreads
import MsgpackRpc.Servers.ServerLifecycle

/-!
# An exception in a server

A thread of the executor ends with an exception while one call of `run_until_signal` is about to be
made, waits or goes on; nobody sends a signal and nobody else stops the server.
-/

namespace MsgpackRpc.Servers

open Addresses (URI)
open Executors

namespace CallPhase

/-- How far `run_until_signal` has come. -/
def rank : CallPhase → Nat
  | asyncWait => 0
  | run => 1
  | lastException => 2
  | loadIsStarted => 3
  | exchangeIsStopped => 4
  | stopAcceptors => 5
  | clearAcceptors => 6
  | resetProcessor => 7
  | stopExecutor => 8
  | asyncStopThreadsGently => 9
  | join => 10
  | clearTransport => 11
  | clearCallbacks => 12
  | resetExecutor => 13
  | finish => 14
  | done _ => 15
  | localEndpointUris | executor => 16

/-- The call asks for the endpoints or for the executor, or has returned. -/
def isQuery : CallPhase → Bool
  | localEndpointUris | executor | done _ => true
  | _ => false

end CallPhase

namespace ServerImpl

/-- A handler has thrown this exception. -/
def Raised (past : List ServerImplAction) (x : ExceptionPtr) : Prop := ∃ id, .raise id x ∈ past

/-- What the members of the server say when `run_until_signal` has come this far. -/
structure StoppedUpTo (s : ServerImpl) (rank : Nat) : Prop where
  isStopped : s.isStopped = decide (5 ≤ rank)
  acceptors : 7 ≤ rank → s.acceptors = []
  processor : 8 ≤ rank → s.processor = false
  executorStopped : s.generalExecutor.isStopped = decide (9 ≤ rank)
  executor : s.executor = decide (rank ≤ 13)

/-- What `run_until_signal` has seen and done by the phase it is in. -/
structure WaitingCall (R : ExceptionPtr → Prop) (s : ServerImpl) (c : ServerCall) : Prop where
  bounded : c.phase.rank ≤ 15
  waits : c.phase.rank = 1 → 0 < s.signalHandler.pending
  told : 2 ≤ c.phase.rank → s.signalHandler.stopped = true
  read : 3 ≤ c.phase.rank → ∃ x, c.lastException = some x ∧ R x
  upTo : s.StoppedUpTo c.phase.rank
  outcome : ∀ outcome, c.phase = .done outcome → outcome = c.outcome

/-- The exception is on its way from the thread to `run_until_signal`. -/
structure OnItsWay (n : Nat) (R : ExceptionPtr → Prop) (s : ServerImpl) : Prop where
  isStarted : s.isStarted = true
  sound : s.generalExecutor.ThreadsSound R
  callbacks : 0 < s.generalExecutor.exceptionCallbacks
  contexts : s.generalExecutor.contexts.length ≤ n
  ready : s.signalHandler.ready = 0
  undelivered : s.signalHandler.undelivered = 0
  told : s.signalHandler.stopped = true →
    s.generalExecutor.AllStopped ∧ s.generalExecutor.exceptionInThread.isSome = true
  telling : s.generalExecutor.exceptionInThread.isSome = true →
    s.signalHandler.stopped = true ∨ s.generalExecutor.HasThread GeneralExecutor.IsTelling
  caught : (∃ x, R x) → s.generalExecutor.exceptionInThread.isSome = true ∨
    s.generalExecutor.HasThread GeneralExecutor.IsCaught
  main : ∃ c, s.calls[0]? = some c ∧ s.WaitingCall R c
  others : ∀ i c, s.calls[i + 1]? = some c → c.phase.isQuery = true

theorem StoppedUpTo.same {s s' : ServerImpl} {rank : Nat} (h : s.StoppedUpTo rank)
    (hstopped : s'.isStopped = s.isStopped) (hacceptors : s.acceptors = [] → s'.acceptors = [])
    (hprocessor : s'.processor = s.processor) (hexecutor : s'.executor = s.executor)
    (hflag : s'.generalExecutor.isStopped = s.generalExecutor.isStopped) :
    s'.StoppedUpTo rank where
  isStopped := hstopped.trans h.isStopped
  acceptors hrank := hacceptors (h.acceptors hrank)
  processor := hprocessor ▸ h.processor
  executorStopped := hflag.trans h.executorStopped
  executor := hexecutor.trans h.executor

theorem WaitingCall.same {R : ExceptionPtr → Prop} {s s' : ServerImpl} {c : ServerCall}
    (h : s.WaitingCall R c) (hsignal : s'.signalHandler = s.signalHandler)
    (hstopped : s'.isStopped = s.isStopped) (hacceptors : s.acceptors = [] → s'.acceptors = [])
    (hprocessor : s'.processor = s.processor) (hexecutor : s'.executor = s.executor)
    (hflag : s'.generalExecutor.isStopped = s.generalExecutor.isStopped) : s'.WaitingCall R c where
  bounded := h.bounded
  waits := hsignal ▸ h.waits
  told := hsignal ▸ h.told
  read := h.read
  upTo := h.upTo.same hstopped hacceptors hprocessor hexecutor hflag
  outcome := h.outcome

/-- Once the exception has been read, the call goes on with it. -/
theorem WaitingCall.goes {R : ExceptionPtr → Prop} {s s' : ServerImpl} {c : ServerCall}
    {phase : CallPhase} (h : s.WaitingCall R c) (hread : 3 ≤ c.phase.rank)
    (hrank : c.phase.rank < phase.rank) (hbounded : phase.rank ≤ 15)
    (hsignal : s'.signalHandler = s.signalHandler) (hupTo : s'.StoppedUpTo phase.rank)
    (houtcome : ∀ outcome, phase = .done outcome → outcome = c.outcome) :
    s'.WaitingCall R { c with phase } where
  bounded := hbounded
  waits heq := by
    have heq : phase.rank = 1 := heq
    omega
  told _ := by
    rw [hsignal]
    exact h.told (by omega)
  read _ := h.read hread
  upTo := hupTo
  outcome := houtcome

theorem main_set {R : ExceptionPtr → Prop} {s s' : ServerImpl} {c c' : ServerCall}
    (hcall : s.calls[0]? = some c) (hcalls : s'.calls = s.calls.set 0 c')
    (hmain : s'.WaitingCall R c') : ∃ c, s'.calls[0]? = some c ∧ s'.WaitingCall R c := by
  refine ⟨c', ?_, hmain⟩
  rw [hcalls]
  exact List.getElem?_set_self (List.getElem?_eq_some_iff.mp hcall).1

theorem OnItsWay.others_set {n : Nat} {R : ExceptionPtr → Prop} {s s' : ServerImpl}
    {c' : ServerCall} (h : s.OnItsWay n R) (hcalls : s'.calls = s.calls.set 0 c') :
    ∀ i d, s'.calls[i + 1]? = some d → d.phase.isQuery = true := by
  intro i d hd
  rw [hcalls, List.getElem?_set_ne (Nat.succ_ne_zero i).symm] at hd
  exact h.others i d hd

/-- A step of `run_until_signal` that leaves the executor alone. -/
theorem OnItsWay.advance {n : Nat} {R : ExceptionPtr → Prop} {s s' : ServerImpl}
    {c c' : ServerCall} (h : s.OnItsWay n R) (hcall : s.calls[0]? = some c)
    (hcalls : s'.calls = s.calls.set 0 c') (hstarted : s'.isStarted = s.isStarted)
    (hexecutor : s'.generalExecutor = s.generalExecutor)
    (hready : s'.signalHandler.ready = 0) (hundelivered : s'.signalHandler.undelivered = 0)
    (hstopped : s'.signalHandler.stopped = s.signalHandler.stopped)
    (hmain : s'.WaitingCall R c') : s'.OnItsWay n R := by
  constructor
  case isStarted => exact hstarted.trans h.isStarted
  case sound => exact hexecutor ▸ h.sound
  case callbacks => exact hexecutor ▸ h.callbacks
  case contexts => exact hexecutor ▸ h.contexts
  case ready => exact hready
  case undelivered => exact hundelivered
  case told =>
    rw [hexecutor, hstopped]
    exact h.told
  case telling =>
    rw [hexecutor, hstopped]
    exact h.telling
  case caught =>
    rw [hexecutor]
    exact h.caught
  case main => exact main_set hcall hcalls hmain
  case others => exact h.others_set hcalls

/-- A step after the exception was read that leaves the executor and the signals alone. -/
theorem OnItsWay.goes {n : Nat} {R : ExceptionPtr → Prop} {s s' : ServerImpl} {c : ServerCall}
    {phase : CallPhase} (h : s.OnItsWay n R) (hcall : s.calls[0]? = some c)
    (hmain : s.WaitingCall R c) (hread : 3 ≤ c.phase.rank) (hrank : c.phase.rank < phase.rank)
    (hbounded : phase.rank ≤ 15) (hcalls : s'.calls = s.calls.set 0 { c with phase })
    (hstarted : s'.isStarted = s.isStarted) (hexecutor : s'.generalExecutor = s.generalExecutor)
    (hsignal : s'.signalHandler = s.signalHandler) (hupTo : s'.StoppedUpTo phase.rank)
    (houtcome : ∀ outcome, phase = .done outcome → outcome = c.outcome) : s'.OnItsWay n R := by
  have hready : s'.signalHandler.ready = 0 := hsignal ▸ h.ready
  have hundelivered : s'.signalHandler.undelivered = 0 := hsignal ▸ h.undelivered
  have hgoes := hmain.goes hread hrank hbounded hsignal hupTo houtcome
  exact h.advance hcall hcalls hstarted hexecutor hready hundelivered
    (congrArg StopSignalHandler.stopped hsignal) hgoes

section Main

variable {n : Nat} {R : ExceptionPtr → Prop} {s s' : ServerImpl} {routine : ServerRoutine}
  {last : Option ExceptionPtr}

end Main

/-- The steps that `run_until_signal` has still to make. -/
def stepsLeft (s : ServerImpl) : Nat :=
  match s.calls[0]? with
  | some c => 15 - c.phase.rank
  | none => 0

/-- What the executor's threads and `run_until_signal` can still do. -/
def remaining (n : Nat) (s : ServerImpl) : Nat := s.generalExecutor.work n + s.stepsLeft

/-- What `stop` leaves behind. -/
structure HasStopped (s : ServerImpl) : Prop where
  isStopped : s.isStopped = true
  acceptors : s.acceptors = []
  processor : s.processor = false
  executor : s.executor = false
  executorStopped : s.generalExecutor.isStopped = true

theorem WaitingCall.done {R : ExceptionPtr → Prop} {s : ServerImpl} {c : ServerCall}
    (h : s.WaitingCall R c) {outcome : CallOutcome} (hdone : c.phase = .done outcome) :
    (∃ x, outcome = .rethrown x ∧ R x) ∧ s.HasStopped := by
  have hrank : c.phase.rank = 15 := by rw [hdone, CallPhase.rank]
  obtain ⟨x, hlast, hx⟩ := h.read (by omega)
  have hupTo := h.upTo
  rw [hrank] at hupTo
  refine ⟨⟨x, ?_, hx⟩, hupTo.isStopped, hupTo.acceptors (by omega), hupTo.processor (by omega),
    hupTo.executor, hupTo.executorStopped⟩
  rw [h.outcome outcome hdone, ServerCall.outcome, hlast]

end ServerImpl

open ServerImpl

end MsgpackRpc.Servers
