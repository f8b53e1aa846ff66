import MsgpackRpc.Lib.Machine
import MsgpackRpc.Transport.Connection

/-!
# Acceptors

An `Acceptor` listens by handing one `async_accept` after another to asio; the handler of each
starts the next one.  The handlers and the posted tasks run on one context thread, so each of them
is one step; `start` is split at its accesses, and `stop` only posts.
-/

namespace MsgpackRpc.Transport

/-- The tasks posted to the context of the acceptor. -/
inductive AcceptorTask where
  | asyncAcceptNext
  | stopInThread
  deriving DecidableEq, Repr

/-- What the throwing calls of `stop_in_thread` on the socket that listens answer. -/
structure AcceptorCalls where
  cancel : Option ErrorCode := none
  close : Option ErrorCode := none
  deriving DecidableEq, Repr

/-- `cancel` on a closed acceptor fails with `bad_descriptor`. -/
def AcceptorCalls.admissible (calls : AcceptorCalls) : SocketState → Bool
  | .opened => true
  | .closed => calls.cancel == some .badDescriptor

/-- The exceptions that can leave a handler. -/
inductive AcceptorThrown where
  | acceptError (error : ErrorCode)
  | systemError (error : ErrorCode)
  deriving DecidableEq, Repr

/-- A connection that `on_accept` has created and handed to `on_connection_`. -/
structure AcceptedConnection where
  /-- Somebody still owns the connection, so that a `weak_ptr` to it can be locked. -/
  alive : Bool := true
  /-- `async_close` has been called. -/
  closeRequested : Bool := false
  deriving DecidableEq, Repr

/-- The connections that an acceptor has created, in order, and its `ConnectionList`, whose keys are
positions among them. -/
structure AcceptedConnections where
  created : List AcceptedConnection := []
  list : List Nat := []
  deriving DecidableEq, Repr

namespace AcceptedConnections

/-- The constructor of a connection and `ConnectionList::append`. -/
def append (cs : AcceptedConnections) : AcceptedConnections where
  created := cs.created ++ [{}]
  list := cs.list ++ [cs.created.length]

/-- The destructor of a connection calls `ConnectionList::remove`. -/
def remove (cs : AcceptedConnections) (i : Nat) : AcceptedConnections where
  created := cs.created.modify i fun c => { c with alive := false }
  list := cs.list.filter (· != i)

def asyncCloseAll (cs : AcceptedConnections) : AcceptedConnections where
  created := cs.created.mapIdx fun i c =>
    if i ∈ cs.list ∧ c.alive = true then { c with closeRequested := true } else c
  list := cs.list

end AcceptedConnections

/-- Where the call of `start` stands whose compare-exchange succeeded.  It assigns `on_connection_`
before the post, and nobody looks at the callback earlier. -/
inductive AcceptorStartPc where
  | post
  | processingStarted
  deriving DecidableEq, Repr

/-- An acceptor with the operations that are on their way for it.  An outstanding `async_accept`
remembers the state of the acceptor in which it was started; `returned` tells whether
`stop_in_thread` has returned once. -/
structure Acceptor where
  state : State := .init
  starting : Option AcceptorStartPc := none
  acceptor : SocketState := .opened
  tasks : List AcceptorTask := []
  accepts : List SocketState := []
  connections : AcceptedConnections := {}
  returned : Bool := false
  thrown : Option AcceptorThrown := none
  deriving DecidableEq, Repr

inductive AcceptorAction where
  | start
  | startNext
  | stop
  /-- The last owner of a connection releases it. -/
  | release (i : Nat)
  | task (i : Nat) (calls : AcceptorCalls)
  /-- The handler of an `async_accept` runs; `endpoints` is what the constructor of the connection
  meets when it asks the accepted socket for its endpoints. -/
  | accept (i : Nat) (error endpoints : Option ErrorCode)
  deriving DecidableEq, Repr

namespace Acceptor

def post (s : Acceptor) (task : AcceptorTask) : Acceptor :=
  { s with tasks := s.tasks ++ [task] }

/-- The executor outlives the acceptor, so that `get_executor()` does not throw. -/
def asyncAcceptNext (s : Acceptor) : Acceptor :=
  { s with accepts := s.accepts ++ [s.acceptor] }

/-- `on_connection_` is the callback of `ServerImpl`, which starts the new connection. -/
def onAccept (s : Acceptor) (error endpoints : Option ErrorCode) : Acceptor :=
  match error, endpoints with
  | some .operationAborted, _ => s
  | some error, _ => { s with thrown := some (.acceptError error) }
  | none, some error => { s with thrown := some (.systemError error) }
  | none, none =>
      let s := { s with connections := s.connections.append }
      if s.state.isProcessing then s.asyncAcceptNext else s

def stopInThread (s : Acceptor) (calls : AcceptorCalls) : Acceptor :=
  let (state, required) := s.state.handleStopRequested
  let s := { s with state }
  if !required then
    { s with returned := true }
  else
    match calls.cancel, calls.close with
    | some error, _ => { s with thrown := some (.systemError error) }
    | none, some error => { s with acceptor := .closed, thrown := some (.systemError error) }
    | none, none =>
        { s with
          acceptor := .closed
          connections := s.connections.asyncCloseAll
          returned := true }

def step (s : Acceptor) : AcceptorAction → Option Acceptor
  | .start =>
      match s.state.handleStartRequest with
      | .ok state => some { s with state, starting := some .post }
      -- the exception goes to the caller of `start`
      | .error _ => some s
  | .startNext =>
      match s.starting with
      | none => none
      | some .post =>
          some { s.post .asyncAcceptNext with starting := some .processingStarted }
      | some .processingStarted =>
          some { s with state := s.state.handleProcessingStarted, starting := none }
  | .stop => some (s.post .stopInThread)
  | .release i => some { s with connections := s.connections.remove i }
  | .task i calls =>
      match s.thrown, s.tasks[i]? with
      | none, some .asyncAcceptNext =>
          some { s with tasks := s.tasks.eraseIdx i }.asyncAcceptNext
      | none, some .stopInThread =>
          if calls.admissible s.acceptor then
            some ({ s with tasks := s.tasks.eraseIdx i }.stopInThread calls)
          else none
      -- an exception that has left a handler has ended the context thread
      | _, _ => none
  | .accept i error endpoints =>
      match s.thrown, s.accepts[i]? with
      | none, some started =>
          if started.admits s.acceptor error then
            some ({ s with accepts := s.accepts.eraseIdx i }.onAccept error endpoints)
          else none
      | _, _ => none

end Acceptor

/-- A fresh acceptor, driven by a schedule. -/
def acceptorMachine : Machine Acceptor AcceptorAction where
  init := {}
  step := Acceptor.step

/-- A handler runs or an owner of a connection lets go, with no call of a member function. -/
def AcceptorAction.isHandler : AcceptorAction → Bool
  | .start | .startNext | .stop => false
  | .release _ | .task _ _ | .accept _ _ _ => true

namespace Acceptor

/-- A call of `start` before anybody else has the acceptor. -/
def startAlone (s : Acceptor) : Acceptor :=
  match s.state.handleStartRequest with
  | .ok state => { s.post .asyncAcceptNext with state := state.handleProcessingStarted }
  | .error _ => s

theorem reachable_startAlone : acceptorMachine.Reachable (startAlone {}) :=
  ⟨[.start, .startNext, .startNext], rfl⟩

/-! ## What a handler can do -/

/-- The handler of an `async_accept`, one constructor for each way through it. -/
inductive Accepts (s : Acceptor) : Option ErrorCode → Option ErrorCode → Acceptor → Prop where
  | aborted (endpoints) : Accepts s (some .operationAborted) endpoints s
  | failed (error endpoints) (habort : error ≠ .operationAborted) :
      Accepts s (some error) endpoints { s with thrown := some (.acceptError error) }
  | disconnected (error) :
      Accepts s none (some error) { s with thrown := some (.systemError error) }
  | accepted (hstate : s.state = .processing) :
      Accepts s none none { s with
        connections := s.connections.append
        accepts := s.accepts ++ [s.acceptor] }
  | acceptedLast (hstate : s.state ≠ .processing) :
      Accepts s none none { s with connections := s.connections.append }

theorem onAccept_accepts (s : Acceptor) (error endpoints : Option ErrorCode) :
    Accepts s error endpoints (s.onAccept error endpoints) := by
  unfold onAccept
  cases error with
  | some error =>
    by_cases habort : error = .operationAborted
    · subst habort
      exact .aborted endpoints
    · cases error with
      | operationAborted => exact absurd rfl habort
      | _ => exact .failed _ endpoints habort
  | none =>
    cases endpoints with
    | some error => exact .disconnected error
    | none =>
      by_cases hstate : s.state = .processing
      · simp only [State.isProcessing_eq_true.mpr hstate, if_true]
        exact .accepted hstate
      · rw [if_neg (by rwa [State.isProcessing_eq_true])]
        exact .acceptedLast hstate

/-- `stop_in_thread` returns at once in `STOPPED`; otherwise a call throws, or it sweeps the
list. -/
inductive Stops (s : Acceptor) : Acceptor → Prop where
  | alreadyStopped (hstate : s.state = .stopped) :
      Stops s { s with state := .stopped, returned := true }
  | failed (acceptor : SocketState) (error : ErrorCode) :
      Stops s { s with state := .stopped, acceptor, thrown := some (.systemError error) }
  | stopped : Stops s { s with
      state := .stopped
      acceptor := .closed
      connections := s.connections.asyncCloseAll
      returned := true }

theorem stopInThread_stops (s : Acceptor) (calls : AcceptorCalls) :
    Stops s (s.stopInThread calls) := by
  unfold stopInThread State.handleStopRequested
  by_cases hstate : s.state = .stopped
  · simp only [hstate, bne_self_eq_false, Bool.not_false, if_true]
    exact .alreadyStopped hstate
  · have hrequired : (s.state != .stopped) = true := by simpa using hstate
    simp only [hrequired, Bool.not_true, Bool.false_eq_true, if_false]
    obtain ⟨cancel, close⟩ := calls
    cases cancel with
    | some error => exact .failed s.acceptor error
    | none =>
      cases close with
      | some error => exact .failed .closed error
      | none => exact .stopped

/-- One constructor for each way through a step; the handler of an `async_accept` and
`stop_in_thread` have their own. -/
inductive Steps (s : Acceptor) : AcceptorAction → Acceptor → Prop where
  | started (hinit : s.state = .init) :
      Steps s .start { s with state := .starting, starting := some .post }
  | startedAgain : Steps s .start s
  | posted (hstarting : s.starting = some .post) :
      Steps s .startNext { s.post .asyncAcceptNext with starting := some .processingStarted }
  | processing (hstarting : s.starting = some .processingStarted) :
      Steps s .startNext { s with state := .processing, starting := none }
  | stopPosted : Steps s .stop (s.post .stopInThread)
  | released {i} : Steps s (.release i) { s with connections := s.connections.remove i }
  | acceptNext {i calls} (hthrown : s.thrown = none)
      (htask : s.tasks[i]? = some .asyncAcceptNext) :
      Steps s (.task i calls)
        { s with tasks := s.tasks.eraseIdx i, accepts := s.accepts ++ [s.acceptor] }
  | stopRun {i calls s'} (hthrown : s.thrown = none)
      (htask : s.tasks[i]? = some .stopInThread)
      (hstops : Stops { s with tasks := s.tasks.eraseIdx i } s') : Steps s (.task i calls) s'
  | handled {i error endpoints started s'} (hthrown : s.thrown = none)
      (haccept : s.accepts[i]? = some started)
      (hadmits : started.admits s.acceptor error = true)
      (haccepts : Accepts { s with accepts := s.accepts.eraseIdx i } error endpoints s') :
      Steps s (.accept i error endpoints) s'

theorem steps_of_step {s s' : Acceptor} {a : AcceptorAction}
    (h : acceptorMachine.step s a = some s') : Steps s a s' := by
  have h : s.step a = some s' := h
  cases a with
  | start =>
    simp only [step] at h
    split at h <;> cases h
    · rename_i state hstart
      obtain ⟨hinit, rfl⟩ := State.handleStartRequest_eq_ok hstart
      exact .started hinit
    · exact .startedAgain
  | startNext =>
    simp only [step] at h
    split at h <;> cases h
    · exact .posted ‹_›
    · exact .processing ‹_›
  | stop =>
    cases h
    exact .stopPosted
  | release i =>
    cases h
    exact .released
  | task i calls =>
    simp only [step] at h
    split at h
    · rename_i hthrown htask
      cases h
      exact .acceptNext hthrown htask
    · rename_i hthrown htask
      obtain ⟨-, h⟩ := Option.ite_none_right_eq_some.mp h
      cases h
      exact .stopRun hthrown htask (stopInThread_stops _ calls)
    · cases h
  | accept i error endpoints =>
    simp only [step] at h
    split at h
    · rename_i started hthrown haccept
      obtain ⟨hadmits, h⟩ := Option.ite_none_right_eq_some.mp h
      cases h
      exact .handled hthrown haccept hadmits (onAccept_accepts _ error endpoints)
    · cases h

end Acceptor

end MsgpackRpc.Transport
