import MsgpackRpc.Lib.Machine
import MsgpackRpc.Addresses.URI
import MsgpackRpc.Executors.GeneralExecutor
import MsgpackRpc.Transport.Acceptor

/-!
# The lifecycle of a server

Any number of threads call `stop`, `run_until_signal`, `local_endpoint_uris` and `executor` of one
started server while signals arrive and the threads of its executor run.  A call is a list of steps,
each of which reads or writes one thing that the calls share.  The acceptors of the server are those
of `Transport.Acceptor`, whose handlers run in between.
-/

namespace MsgpackRpc.Servers

open Addresses (URI)
open Executors
open Transport (AcceptorAction acceptorMachine)

/-! ## Waiting for a signal -/

/-- `StopSignalHandler`: a context and the set of signals that its handlers wait for. -/
structure StopSignalHandler where
  /-- The context is stopped, and nobody restarts it. -/
  stopped : Bool := false
  /-- The calls of `async_wait` that have no signal yet. -/
  pending : Nat := 0
  /-- The handlers that a signal has made ready to run. -/
  ready : Nat := 0
  /-- The signals that nobody waited for. -/
  undelivered : Nat := 0
  deriving DecidableEq, Repr

namespace StopSignalHandler

/-- `signal_set_.async_wait(..)`; a signal that came before completes it at once. -/
def asyncWait (h : StopSignalHandler) : StopSignalHandler :=
  if h.undelivered = 0 then { h with pending := h.pending + 1 }
  else { h with undelivered := h.undelivered - 1, ready := h.ready + 1 }

/-- A signal completes every wait. -/
def signal (h : StopSignalHandler) : StopSignalHandler :=
  if h.pending = 0 then { h with undelivered := h.undelivered + 1 }
  else { h with pending := 0, ready := h.ready + h.pending }

def stop (h : StopSignalHandler) : StopSignalHandler := { h with stopped := true }

/-- A turn of `context_.run()`, and whether `run` returns.  It returns from a stopped context, and
the last piece of work stops the context; without a handler that is ready it blocks. -/
def run (h : StopSignalHandler) : Option (StopSignalHandler × Bool) :=
  if h.stopped then some (h, true)
  else if 0 < h.ready then some ({ h with ready := h.ready - 1 }, false)
  else if h.pending = 0 then some (h.stop, true)
  else none

end StopSignalHandler

/-! ## The calls -/

inductive ServerRoutine where
  | stop
  | runUntilSignal
  | localEndpointUris
  | executor
  deriving DecidableEq, Repr

inductive CallOutcome where
  | returned
  | rethrown (exception : ExceptionPtr)
  | uris (uris : List URI)
  /-- The copy of `executor_`, and whether it points to an executor. -/
  | executor (isSet : Bool)
  /-- A null pointer was dereferenced. -/
  | nullDereference
  deriving DecidableEq, Repr

/-- What a call does next. -/
inductive CallPhase where
  | asyncWait
  | run
  | lastException
  | loadIsStarted
  | exchangeIsStopped
  | stopAcceptors
  | clearAcceptors
  | resetProcessor
  | stopExecutor
  | asyncStopThreadsGently
  | join
  | clearTransport
  | clearCallbacks
  | resetExecutor
  /-- `stop` has returned. -/
  | finish
  | localEndpointUris
  | executor
  | done (outcome : CallOutcome)
  deriving DecidableEq, Repr

structure ServerCall where
  routine : ServerRoutine
  phase : CallPhase
  /-- The local variable of `run_until_signal`. -/
  lastException : Option ExceptionPtr := none
  deriving DecidableEq, Repr

namespace ServerCall

def enter : ServerRoutine → ServerCall
  | .stop => { routine := .stop, phase := .loadIsStarted }
  | .runUntilSignal => { routine := .runUntilSignal, phase := .asyncWait }
  | .localEndpointUris => { routine := .localEndpointUris, phase := .localEndpointUris }
  | .executor => { routine := .executor, phase := .executor }

/-- How the call ends once `stop` has returned in it: `run_until_signal` rethrows. -/
def outcome (c : ServerCall) : CallOutcome :=
  match c.lastException with
  | some exception => .rethrown exception
  | none => .returned

end ServerCall

/-- One of the acceptors in the vector of a server. -/
structure ServerAcceptor where
  /-- `local_address().to_uri()` -/
  uri : URI
  acceptor : Transport.Acceptor := {}
  deriving DecidableEq, Repr

/-- A server, the executor it points to and the calls of its member functions. -/
structure ServerImpl where
  acceptors : List ServerAcceptor := []
  /-- Whether `processor_` and `executor_` are set. -/
  processor : Bool := true
  executor : Bool := true
  isStarted : Bool := false
  isStopped : Bool := false
  signalHandler : StopSignalHandler := {}
  generalExecutor : GeneralExecutor
  calls : List ServerCall := []
  /-- The call that was the first to set `is_stopped_`. -/
  stopper : Option Nat := none

inductive ServerImplAction where
  | call (routine : ServerRoutine)
  | advance (i : Nat)
  | signal
  /-- A thread of the executor goes on. -/
  | thread (id : ContextId)
  /-- A handler on a thread of the executor throws. -/
  | raise (id : ContextId) (exception : ExceptionPtr)
  /-- A handler of the acceptor at this place runs. -/
  | acceptor (k : Nat) (a : AcceptorAction)
  deriving DecidableEq, Repr

namespace ServerImpl

def create (config : ExecutorConfig) (uris : List URI) : ServerImpl where
  acceptors := uris.map fun uri => { uri }
  generalExecutor := .create config

def startAcceptors (s : ServerImpl) : ServerImpl :=
  { s with acceptors := s.acceptors.map fun a => { a with acceptor := a.acceptor.startAlone } }

def stopAcceptors (s : ServerImpl) : ServerImpl :=
  { s with acceptors := s.acceptors.map fun a =>
      { a with acceptor := a.acceptor.post .stopInThread } }

/-- `start`, when nobody else has the server yet.  The function that stops the wait for a signal is
registered before there are any threads. -/
def start (s : ServerImpl) : ServerImpl :=
  { s.startAcceptors with
    isStarted := true
    generalExecutor := { s.generalExecutor.onException.startThreads with isStarted := true } }

def setCall (s : ServerImpl) (i : Nat) (c : ServerCall) (phase : CallPhase) : ServerImpl :=
  { s with calls := s.calls.set i { c with phase } }

/-- What `executor_->` does where the pointer is set. -/
def withExecutor (s : ServerImpl) (i : Nat) (c : ServerCall) (next : ServerImpl) : ServerImpl :=
  if s.executor then next else s.setCall i c (.done .nullDereference)

def advance (s : ServerImpl) (i : Nat) (c : ServerCall) : Option ServerImpl :=
  match c.phase with
  | .asyncWait =>
      some { s.setCall i c .run with signalHandler := s.signalHandler.asyncWait }
  | .run =>
      s.signalHandler.run.map fun (signalHandler, returns) =>
        { s.setCall i c (if returns then .lastException else .run) with signalHandler }
  | .lastException =>
      some (s.withExecutor i c
        (s.setCall i { c with lastException := s.generalExecutor.lastException } .loadIsStarted))
  | .loadIsStarted => some (s.setCall i c (if s.isStarted then .exchangeIsStopped else .finish))
  | .exchangeIsStopped =>
      if s.isStopped then some (s.setCall i c .finish)
      else some { s.setCall i c .stopAcceptors with isStopped := true, stopper := some i }
  | .stopAcceptors =>
      some { s.setCall i c .clearAcceptors with acceptors := s.stopAcceptors.acceptors }
  | .clearAcceptors => some { s.setCall i c .resetProcessor with acceptors := [] }
  | .resetProcessor => some { s.setCall i c .stopExecutor with processor := false }
  | .stopExecutor =>
      some (s.withExecutor i c
        (if s.generalExecutor.isStopped then s.setCall i c .resetExecutor
        else { s.setCall i c .asyncStopThreadsGently with
          generalExecutor := { s.generalExecutor with isStopped := true } }))
  | .asyncStopThreadsGently =>
      some { s.setCall i c .join with
        generalExecutor := s.generalExecutor.asyncStopThreadsGently }
  | .join => if s.generalExecutor.joined then some (s.setCall i c .clearTransport) else none
  | .clearTransport =>
      some { s.setCall i c .clearCallbacks with
        generalExecutor := s.generalExecutor.clear .transport }
  | .clearCallbacks =>
      some { s.setCall i c .resetExecutor with
        generalExecutor := s.generalExecutor.clear .callback }
  | .resetExecutor => some { s.setCall i c .finish with executor := false }
  | .finish => some (s.setCall i c (.done c.outcome))
  | .localEndpointUris => some (s.setCall i c (.done (.uris (s.acceptors.map ServerAcceptor.uri))))
  | .executor => some (s.setCall i c (.done (.executor s.executor)))
  | .done _ => none

/-- What a handler of an acceptor does; the calls of its member functions are the server's. -/
def acceptorStep (s : ServerImpl) (k : Nat) (a : AcceptorAction) : Option ServerImpl :=
  if a.isHandler then do
    let held ← s.acceptors[k]?
    let acceptor ← acceptorMachine.step held.acceptor a
    some { s with acceptors := s.acceptors.set k { held with acceptor } }
  else none

def step (s : ServerImpl) : ServerImplAction → Option ServerImpl
  | .call routine => some { s with calls := s.calls ++ [.enter routine] }
  | .advance i => (s.calls[i]?).bind (s.advance i)
  | .signal => some { s with signalHandler := s.signalHandler.signal }
  | .thread id =>
      (s.generalExecutor.runInThread id).map fun (generalExecutor, exceptions) =>
        { s with
          generalExecutor
          signalHandler := exceptions.foldl (fun h _ => h.stop) s.signalHandler }
  | .raise id exception =>
      (s.generalExecutor.raise id exception).map fun generalExecutor => { s with generalExecutor }
  | .acceptor k a => s.acceptorStep k a

end ServerImpl

/-- Schedules run from a server that was created with a configuration and started. -/
def serverImplMachine : Machine ServerImpl ServerImplAction where
  init := (ServerImpl.create {} []).start
  step := ServerImpl.step

namespace ServerImpl

theorem acceptorStep_eq_some {s s' : ServerImpl} {k : Nat} {a : AcceptorAction}
    (h : s.acceptorStep k a = some s') :
    ∃ held acceptor, s.acceptors[k]? = some held ∧
      acceptorMachine.step held.acceptor a = some acceptor ∧
      s' = { s with acceptors := s.acceptors.set k { held with acceptor } } := by
  obtain ⟨-, h⟩ := Option.ite_none_right_eq_some.mp h
  obtain ⟨held, hheld, h⟩ := Option.bind_eq_some_iff.mp h
  obtain ⟨acceptor, hstep, h⟩ := Option.bind_eq_some_iff.mp h
  cases h
  exact ⟨held, acceptor, hheld, hstep, rfl⟩

end ServerImpl

end MsgpackRpc.Servers
