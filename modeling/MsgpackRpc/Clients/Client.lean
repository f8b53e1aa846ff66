import MsgpackRpc.Transport.ConnectionSystem

/-!
# Clients

`MessageSender`, `SentMessageQueue` and `ClientConnector` with the connections that the connector
starts one after another.  A routine is one call on its way through these classes, in a caller's
thread or in a context; its steps are the accesses to an atomic, the sections of a mutex and the
posts, in the order of the source.
-/

namespace MsgpackRpc.Clients

open MsgpackRpc.Transport

/-- An element of `SentMessageQueue`; `seq` counts the pushes before it. -/
structure Entry (μ : Type) where
  seq : Nat
  message : μ
  id : Option UInt32
  deriving DecidableEq, Repr

/-- Where a routine stands: the step that it takes next. -/
inductive Pc (μ : Type) where
  -- `MessageSender::send` and `send_next`
  | push (message : μ) (id : Option UInt32)
  | loadSending
  | getConnection
  | next (c : Nat)
  | exchangeSending (c : Nat) (entry : Entry μ)
  -- `Connection::async_send`: the `is_processing()` test and the post
  | asyncSend (c : Nat) (entry : Entry μ)
  | postSend (c : Nat) (entry : Entry μ)
  -- `MessageSender::handle_sent_message` for the write of `entry`
  | pop (entry : Entry μ)
  | storeSent
  -- `ClientConnector::on_connection_closed` of connection `c`
  | closedLoad (c : Nat)
  | closedReset (c : Nat)
  | handleDisconnection
  | asyncConnect
  -- `ClientConnector::on_connection` and `on_connection_failure`
  | connectionLoad
  | connectionRegister
  | failureLoad
  | asyncWait
  -- `ClientConnector::stop`
  | stopExchange
  | stopClose
  | stopCancel
  | done
  deriving DecidableEq, Repr

/-- The connection that the next step of a routine is about. -/
def Pc.target {μ : Type} : Pc μ → Option Nat
  | .next c | .exchangeSending c _ | .asyncSend c _ | .postSend c _ | .closedLoad c
  | .closedReset c => some c
  | _ => none

/-- The routine tells that connection `c` is closed and has not dropped it yet. -/
def Pc.closes {μ : Type} (c : Nat) : Pc μ → Bool
  | .closedLoad c' | .closedReset c' => c' == c
  | _ => false

/-- A routine and, if it runs in the context of a connection, this connection. -/
structure Routine (μ : Type) where
  context : Option Nat := none
  pc : Pc μ
  deriving DecidableEq, Repr

/-- A started client.  Connections are named by their place in `connections`, which keeps the ones
that are closed.  The fields after `thrown` only record what has happened. -/
structure Client (μ : Type) where
  queue : List (Entry μ) := []
  isSending : Bool := false
  connection : Option Nat := none
  isStopped : Bool := false
  /-- The attempts of `async_connect` whose callback is still to come. -/
  connecting : Nat := 1
  retryArmed : Bool := false
  connections : List (Connection (Entry μ)) := []
  routines : List (Routine μ) := []
  thrown : Option Thrown := none
  pushed : List (Entry μ) := []
  /-- The entries given to `IConnection::async_send`. -/
  handed : List (Entry μ) := []
  /-- The entries whose write has completed successfully. -/
  written : List (Entry μ) := []
  removed : List (Entry μ) := []
  /-- The connections that have invoked `on_closed`, once for each time. -/
  closedBy : List Nat := []
  deriving DecidableEq

inductive ClientAction (μ : Type) where
  | send (message : μ) (id : Option UInt32)
  | stop
  | routine (i : Nat)
  | connected
  | connectFailed
  | retryExpired
  | context (c : Nat) (e : Connection.Event)
  deriving DecidableEq, Repr

/-- What `ClientImpl::start` and `ClientConnector::on_connection` make a callback of connection `c`
run.  Received messages go to the list of calls. -/
def Routine.ofCallback {ω μ : Type} (c : Nat) : Callback ω (Entry μ) → Option (Routine μ)
  | .onReceived _ => none
  | .onSent entry => some { context := some c, pc := .pop entry }
  | .onClosed _ => some { context := some c, pc := .closedLoad c }

def Routine.isRunning {μ : Type} (r : Routine μ) : Bool :=
  match r.pc with
  | .done => false
  | _ => true

namespace Client

variable {ω μ : Type}

def spawn (s : Client μ) (pc : Pc μ) : Client μ :=
  { s with routines := s.routines ++ [{ pc }] }

def withRoutines (s : Client μ) (routines : List (Routine μ)) : Client μ :=
  { s with routines }

/-- `is_processing()` of connection `c`. -/
def processing (s : Client μ) (c : Nat) : Bool :=
  s.connections[c]?.any fun k => k.state.isProcessing

def postTo (s : Client μ) (c : Nat) (task : Transport.Task (Entry μ)) : Client μ :=
  match s.connections[c]? with
  | some k => { s with connections := s.connections.set c (k.post task) }
  | none => s

/-- One step of a routine: the client and the routine after it.  `pop` on an empty queue has no
defined behaviour. -/
def advance (s : Client μ) (r : Routine μ) : Option (Client μ × Routine μ) :=
  match r.pc with
  | .push message id =>
      let entry : Entry μ := { seq := s.pushed.length, message, id }
      some ({ s with queue := s.queue ++ [entry], pushed := s.pushed ++ [entry] },
        { r with pc := .loadSending })
  | .loadSending => some (s, { r with pc := if s.isSending then .done else .getConnection })
  | .getConnection =>
      match s.connection with
      | none => some (s, { r with pc := .done })
      | some c => some (s, { r with pc := .next c })
  -- a copy: the message stays in the queue
  | .next c =>
      match s.queue.head? with
      | none => some (s, { r with pc := .done })
      | some entry => some (s, { r with pc := .exchangeSending c entry })
  | .exchangeSending c entry =>
      if s.isSending then
        some (s, { r with pc := .done })
      else
        some ({ s with isSending := true }, { r with pc := .asyncSend c entry })
  -- a connection that does not process drops the message
  | .asyncSend c entry =>
      some ({ s with handed := s.handed ++ [entry] },
        { r with pc := if s.processing c then .postSend c entry else .done })
  | .postSend c entry => some (s.postTo c (.asyncSendInThread entry), { r with pc := .done })
  -- the front, whichever message has been written
  | .pop _ =>
      match s.queue with
      | [] => none
      | front :: queue =>
          some ({ s with queue, removed := s.removed ++ [front] }, { r with pc := .storeSent })
  -- `handle_sent_message` returns to the callback, which calls `send_next`
  | .storeSent => some ({ s with isSending := false }, { r with pc := .loadSending })
  | .closedLoad c => some (s, { r with pc := if s.isStopped then .done else .closedReset c })
  -- whichever connection is registered
  | .closedReset _ => some ({ s with connection := none }, { r with pc := .handleDisconnection })
  | .handleDisconnection => some ({ s with isSending := false }, { r with pc := .asyncConnect })
  | .asyncConnect => some ({ s with connecting := s.connecting + 1 }, { r with pc := .done })
  | .connectionLoad =>
      some (s, { r with pc := if s.isStopped then .done else .connectionRegister })
  -- one section of `connection_mutex_`; what follows runs in the context of the new connection
  | .connectionRegister =>
      match Connection.start {} with
      | .error _ => none
      | .ok k =>
          some ({ s with
            connection := some s.connections.length
            connections := s.connections ++ [k] },
            { context := some s.connections.length, pc := .loadSending })
  | .failureLoad => some (s, { r with pc := if s.isStopped then .done else .asyncWait })
  -- `expires_after` cancels the waits before this one
  | .asyncWait => some ({ s with retryArmed := true }, { r with pc := .done })
  | .stopExchange =>
      some ({ s with isStopped := true },
        { r with pc := if s.isStopped then .done else .stopClose })
  | .stopClose =>
      match s.connection with
      | none => some (s, { r with pc := .stopCancel })
      | some c =>
          some ({ s.postTo c (.closeInThread {}) with connection := none },
            { r with pc := .stopCancel })
  | .stopCancel => some ({ s with retryArmed := false }, { r with pc := .done })
  | .done => none

/-- A routine is still running in the context of connection `c`. -/
def busy (s : Client μ) (c : Nat) : Bool :=
  s.routines.any fun r => r.context == some c && r.isRunning

/-- A handler of connection `c` has run; its callbacks go on as routines. -/
def deliver (s : Client μ) (c : Nat) (r : Handled ω (Entry μ)) : Client μ :=
  { s with
    connections := s.connections.set c r.connection
    routines := s.routines ++ r.callbacks.filterMap (Routine.ofCallback c)
    thrown := r.thrown
    written := s.written ++ r.callbacks.filterMap Callback.sentMessage
    closedBy := s.closedBy ++ (r.callbacks.filter Callback.isOnClosed).map fun _ => c }

/-- The routine that takes its next step. -/
def stepping (s : Client μ) : ClientAction μ → Option (Routine μ)
  | .routine i => s.routines[i]?
  | _ => none

/-- After an exception the contexts start nothing new. -/
def step (p : MessageParser ω) (s : Client μ) : ClientAction μ → Option (Client μ)
  | .send message id => some (s.spawn (.push message id))
  | .stop => some (s.spawn .stopExchange)
  | .routine i =>
      match s.routines[i]? with
      | none => none
      | some r => (s.advance r).map fun (t, r') => t.withRoutines (s.routines.set i r')
  | .connected =>
      if 0 < s.connecting && s.thrown.isNone then
        some ({ s with connecting := s.connecting - 1 }.spawn .connectionLoad)
      else none
  | .connectFailed =>
      if 0 < s.connecting && s.thrown.isNone then
        some ({ s with connecting := s.connecting - 1 }.spawn .failureLoad)
      else none
  | .retryExpired =>
      if s.retryArmed && s.thrown.isNone then
        some ({ s with retryArmed := false }.spawn .asyncConnect)
      else none
  | .context c e =>
      if s.thrown.isSome || s.busy c then none
      else
        match s.connections[c]? with
        | none => none
        | some k => (k.handle p e).map (s.deliver c)

end Client

/-- `ClientImpl::start` has been called: the first attempt to connect is on its way. -/
def clientMachine {ω : Type} (p : MessageParser ω) (μ : Type) :
    Machine (Client μ) (ClientAction μ) where
  init := {}
  step := Client.step p

/-! ## What a step can do -/

/-- A connection right after `start`. -/
def startedConnection (μ : Type) : Connection μ where
  state := .processing
  callbacks := true
  tasks := [.asyncReadNext]

theorem start_eq_ok (μ : Type) : Connection.start ({} : Connection μ) = .ok (startedConnection μ) :=
  rfl

namespace Client

variable {ω μ : Type}

/-- The steps that only read: the routine goes on, or returns. -/
inductive Goes (s : Client μ) : Pc μ → Pc μ → Prop where
  | sendingBusy (hsending : s.isSending = true) : Goes s .loadSending .done
  | sendingFree (hsending : s.isSending = false) : Goes s .loadSending .getConnection
  | noConnection (hconnection : s.connection = none) : Goes s .getConnection .done
  | connection {c} (hconnection : s.connection = some c) : Goes s .getConnection (.next c)
  | noMessage {c} (hqueue : s.queue = []) : Goes s (.next c) .done
  | message {c entry} (hqueue : s.queue.head? = some entry) :
      Goes s (.next c) (.exchangeSending c entry)
  | exchangeLost {c entry} (hsending : s.isSending = true) : Goes s (.exchangeSending c entry) .done
  | closedStopped {c} (hstopped : s.isStopped = true) : Goes s (.closedLoad c) .done
  | closed {c} (hstopped : s.isStopped = false) : Goes s (.closedLoad c) (.closedReset c)
  | connectionStopped (hstopped : s.isStopped = true) : Goes s .connectionLoad .done
  | connectionLoaded (hstopped : s.isStopped = false) : Goes s .connectionLoad .connectionRegister
  | failureStopped (hstopped : s.isStopped = true) : Goes s .failureLoad .done
  | failureLoaded (hstopped : s.isStopped = false) : Goes s .failureLoad .asyncWait
  | stoppedAgain (hstopped : s.isStopped = true) : Goes s .stopExchange .done
  | stopUnconnected (hconnection : s.connection = none) : Goes s .stopClose .stopCancel

/-- One constructor for each way a routine can take its next step. -/
inductive Advances (s : Client μ) (r : Routine μ) : Client μ → Routine μ → Prop where
  | goes {pc} (hgoes : Goes s r.pc pc) : Advances s r s { r with pc }
  | pushed (entry : Entry μ) (hpc : r.pc = .push entry.message entry.id)
      (hseq : entry.seq = s.pushed.length) :
      Advances s r { s with queue := s.queue ++ [entry], pushed := s.pushed ++ [entry] }
        { r with pc := .loadSending }
  | exchangeWon {c entry} (hpc : r.pc = .exchangeSending c entry) (hsending : s.isSending = false) :
      Advances s r { s with isSending := true } { r with pc := .asyncSend c entry }
  | sendAccepted {c entry} (hpc : r.pc = .asyncSend c entry) (hprocessing : s.processing c = true) :
      Advances s r { s with handed := s.handed ++ [entry] } { r with pc := .postSend c entry }
  | sendDropped {c entry} (hpc : r.pc = .asyncSend c entry) (hprocessing : s.processing c = false) :
      Advances s r { s with handed := s.handed ++ [entry] } { r with pc := .done }
  | sendPosted {c entry} (hpc : r.pc = .postSend c entry) :
      Advances s r (s.postTo c (.asyncSendInThread entry)) { r with pc := .done }
  | popped {entry front queue} (hpc : r.pc = .pop entry) (hqueue : s.queue = front :: queue) :
      Advances s r { s with queue, removed := s.removed ++ [front] } { r with pc := .storeSent }
  | storedSent (hpc : r.pc = .storeSent) :
      Advances s r { s with isSending := false } { r with pc := .loadSending }
  | reset {c} (hpc : r.pc = .closedReset c) :
      Advances s r { s with connection := none } { r with pc := .handleDisconnection }
  | disconnected (hpc : r.pc = .handleDisconnection) :
      Advances s r { s with isSending := false } { r with pc := .asyncConnect }
  | connecting (hpc : r.pc = .asyncConnect) :
      Advances s r { s with connecting := s.connecting + 1 } { r with pc := .done }
  | registered (hpc : r.pc = .connectionRegister) :
      Advances s r { s with
        connection := some s.connections.length
        connections := s.connections ++ [startedConnection (Entry μ)] }
        { context := some s.connections.length, pc := .loadSending }
  | waiting (hpc : r.pc = .asyncWait) :
      Advances s r { s with retryArmed := true } { r with pc := .done }
  | stopped (hpc : r.pc = .stopExchange) (hstopped : s.isStopped = false) :
      Advances s r { s with isStopped := true } { r with pc := .stopClose }
  | stopClosed {c} (hpc : r.pc = .stopClose) (hconnection : s.connection = some c) :
      Advances s r { s.postTo c (.closeInThread {}) with connection := none }
        { r with pc := .stopCancel }
  | stopCancelled (hpc : r.pc = .stopCancel) :
      Advances s r { s with retryArmed := false } { r with pc := .done }

theorem advances_of_advance {s t : Client μ} {r r' : Routine μ}
    (h : s.advance r = some (t, r')) : Advances s r t r' := by
  have goes {pc : Pc μ} (hgoes : Goes s r.pc pc) (h : some (s, { r with pc }) = some (t, r')) :
      Advances s r t r' := by
    cases h
    exact .goes hgoes
  unfold advance at h
  cases hpc : r.pc with
  | push message id =>
    simp only [hpc] at h
    cases h
    exact .pushed _ hpc rfl
  | loadSending =>
    simp only [hpc] at h
    cases hsending : s.isSending <;>
      simp only [hsending, if_true, Bool.false_eq_true, if_false] at h
    · exact goes (hpc ▸ .sendingFree hsending) h
    · exact goes (hpc ▸ .sendingBusy hsending) h
  | getConnection =>
    simp only [hpc] at h
    cases hconnection : s.connection <;> simp only [hconnection] at h
    · exact goes (hpc ▸ .noConnection hconnection) h
    · exact goes (hpc ▸ .connection hconnection) h
  | next c =>
    simp only [hpc] at h
    cases hqueue : s.queue.head? <;> simp only [hqueue] at h
    · exact goes (hpc ▸ .noMessage (List.head?_eq_none_iff.mp hqueue)) h
    · exact goes (hpc ▸ .message hqueue) h
  | exchangeSending c entry =>
    simp only [hpc] at h
    cases hsending : s.isSending <;>
      simp only [hsending, if_true, Bool.false_eq_true, if_false] at h
    · cases h
      exact .exchangeWon hpc hsending
    · exact goes (hpc ▸ .exchangeLost hsending) h
  | asyncSend c entry =>
    simp only [hpc] at h
    cases hprocessing : s.processing c <;>
      simp only [hprocessing, if_true, Bool.false_eq_true, if_false] at h <;> cases h
    · exact .sendDropped hpc hprocessing
    · exact .sendAccepted hpc hprocessing
  | postSend c entry =>
    simp only [hpc] at h
    cases h
    exact .sendPosted hpc
  | pop entry =>
    simp only [hpc] at h
    cases hqueue : s.queue <;> simp only [hqueue] at h <;> cases h
    exact .popped hpc hqueue
  | storeSent =>
    simp only [hpc] at h
    cases h
    exact .storedSent hpc
  | closedLoad c =>
    simp only [hpc] at h
    cases hstopped : s.isStopped <;>
      simp only [hstopped, if_true, Bool.false_eq_true, if_false] at h
    · exact goes (hpc ▸ .closed hstopped) h
    · exact goes (hpc ▸ .closedStopped hstopped) h
  | closedReset c =>
    simp only [hpc] at h
    cases h
    exact .reset hpc
  | handleDisconnection =>
    simp only [hpc] at h
    cases h
    exact .disconnected hpc
  | asyncConnect =>
    simp only [hpc] at h
    cases h
    exact .connecting hpc
  | connectionLoad =>
    simp only [hpc] at h
    cases hstopped : s.isStopped <;>
      simp only [hstopped, if_true, Bool.false_eq_true, if_false] at h
    · exact goes (hpc ▸ .connectionLoaded hstopped) h
    · exact goes (hpc ▸ .connectionStopped hstopped) h
  | connectionRegister =>
    simp only [hpc, start_eq_ok] at h
    cases h
    exact .registered hpc
  | failureLoad =>
    simp only [hpc] at h
    cases hstopped : s.isStopped <;>
      simp only [hstopped, if_true, Bool.false_eq_true, if_false] at h
    · exact goes (hpc ▸ .failureLoaded hstopped) h
    · exact goes (hpc ▸ .failureStopped hstopped) h
  | asyncWait =>
    simp only [hpc] at h
    cases h
    exact .waiting hpc
  | stopExchange =>
    simp only [hpc] at h
    cases hstopped : s.isStopped <;>
      simp only [hstopped, if_true, Bool.false_eq_true, if_false] at h
    · cases h
      exact .stopped hpc hstopped
    · have hsame : { s with isStopped := true } = s := by rw [← hstopped]
      rw [hsame] at h
      exact goes (hpc ▸ .stoppedAgain hstopped) h
  | stopClose =>
    simp only [hpc] at h
    cases hconnection : s.connection <;> simp only [hconnection] at h
    · exact goes (hpc ▸ .stopUnconnected hconnection) h
    · cases h
      exact .stopClosed hpc hconnection
  | stopCancel =>
    simp only [hpc] at h
    cases h
    exact .stopCancelled hpc
  | done =>
    simp only [hpc] at h
    cases h

/-- A handler of connection `c` invokes nothing that the sender or the connector sees, or one of
`on_closed` and `on_sent`. -/
inductive Delivers (s : Client μ) (c : Nat) (r : Handled ω (Entry μ)) : Client μ → Prop where
  | silent (hsent : r.callbacks.filterMap Callback.sentMessage = [])
      (hclosed : ∀ cb ∈ r.callbacks, cb.isOnClosed = false) :
      Delivers s c r
        { s with connections := s.connections.set c r.connection, thrown := r.thrown }
  | closed (hsent : r.callbacks.filterMap Callback.sentMessage = [])
      (hstate : r.connection.state = .stopped) :
      Delivers s c r
        { s with
          connections := s.connections.set c r.connection
          thrown := r.thrown
          routines := s.routines ++ [{ context := some c, pc := .closedLoad c }]
          closedBy := s.closedBy ++ [c] }
  | sent (entry : Entry μ) (hsent : r.callbacks.filterMap Callback.sentMessage = [entry])
      (hclosed : ∀ cb ∈ r.callbacks, cb.isOnClosed = false) :
      Delivers s c r
        { s with
          connections := s.connections.set c r.connection
          thrown := r.thrown
          routines := s.routines ++ [{ context := some c, pc := .pop entry }]
          written := s.written ++ [entry] }

theorem filter_onClosed_received (messages : List ω) :
    (messages.map (Callback.onReceived (μ := μ))).filter Callback.isOnClosed = [] := by
  rw [List.filter_eq_nil_iff]
  intro cb hcb
  rw [Connection.isOnClosed_of_mem_received hcb]
  exact Bool.false_ne_true

theorem delivers {p : MessageParser ω} {k : Connection (Entry μ)} {e : Connection.Event}
    {r : Handled ω (Entry μ)} (s : Client μ) (c : Nat) (h : Connection.Handles p k e r) :
    Delivers s c r (s.deliver c r) := by
  cases h.tells with
  | silent _ _ hcallbacks =>
    have hsent : r.callbacks.filterMap Callback.sentMessage = [] :=
      hcallbacks ▸ Connection.filterMap_received _ (fun _ => rfl) _
    have hroutines : r.callbacks.filterMap (Routine.ofCallback c) = [] :=
      hcallbacks ▸ Connection.filterMap_received _ (fun _ => rfl) _
    have hclosed : r.callbacks.filter Callback.isOnClosed = [] :=
      hcallbacks ▸ filter_onClosed_received _
    simp only [deliver, hsent, hroutines, hclosed, List.map_nil, List.append_nil]
    refine .silent hsent fun cb hcb => ?_
    rw [hcallbacks] at hcb
    exact Connection.isOnClosed_of_mem_received hcb
  | closed status _ _ hstate hcallbacks =>
    have hsent : r.callbacks.filterMap Callback.sentMessage = [] := by
      rw [hcallbacks, List.filterMap_append, Connection.filterMap_received _ (fun _ => rfl)]
      rfl
    have hroutines : r.callbacks.filterMap (Routine.ofCallback c) =
        [{ context := some c, pc := .closedLoad c }] := by
      rw [hcallbacks, List.filterMap_append, Connection.filterMap_received _ (fun _ => rfl)]
      rfl
    have hclosed : r.callbacks.filter Callback.isOnClosed = [.onClosed status] := by
      rw [hcallbacks, List.filter_append, filter_onClosed_received]
      rfl
    simp only [deliver, hsent, hroutines, hclosed, List.map_cons, List.map_nil, List.append_nil]
    exact .closed hsent hstate
  | sent entry _ hcallbacks =>
    have hsent : r.callbacks.filterMap Callback.sentMessage = [entry] := by
      rw [hcallbacks]
      rfl
    have hroutines : r.callbacks.filterMap (Routine.ofCallback c) =
        [{ context := some c, pc := .pop entry }] := by
      rw [hcallbacks]
      rfl
    have hclosed : r.callbacks.filter Callback.isOnClosed = [] := by
      rw [hcallbacks]
      rfl
    simp only [deliver, hsent, hroutines, hclosed, List.map_nil, List.append_nil]
    refine .sent entry hsent fun cb hcb => ?_
    rw [hcallbacks] at hcb
    rw [List.mem_singleton.mp hcb]
    rfl

/-- The steps of a client. -/
inductive Steps (p : MessageParser ω) (s : Client μ) : ClientAction μ → Client μ → Prop where
  | send {message id} : Steps p s (.send message id) (s.spawn (.push message id))
  | stop : Steps p s .stop (s.spawn .stopExchange)
  | routine {i r t r'} (hr : s.routines[i]? = some r) (hadvances : Advances s r t r') :
      Steps p s (.routine i) (t.withRoutines (s.routines.set i r'))
  | connected (hconnecting : 0 < s.connecting) :
      Steps p s .connected ({ s with connecting := s.connecting - 1 }.spawn .connectionLoad)
  | connectFailed (hconnecting : 0 < s.connecting) :
      Steps p s .connectFailed ({ s with connecting := s.connecting - 1 }.spawn .failureLoad)
  | retryExpired (harmed : s.retryArmed = true) :
      Steps p s .retryExpired ({ s with retryArmed := false }.spawn .asyncConnect)
  | context {c e k r} (hthrown : s.thrown = none) (hk : s.connections[c]? = some k)
      (hhandles : Connection.Handles p k e r) : Steps p s (.context c e) (s.deliver c r)

theorem steps_of_step {p : MessageParser ω} {s s' : Client μ} {a : ClientAction μ}
    (h : s.step p a = some s') : Steps p s a s' := by
  cases a with
  | send message id =>
    cases h
    exact .send
  | stop =>
    cases h
    exact .stop
  | routine i =>
    simp only [step] at h
    split at h
    · cases h
    · rename_i r hr
      obtain ⟨⟨t, r'⟩, hadvance, rfl⟩ := Option.map_eq_some_iff.mp h
      exact .routine hr (advances_of_advance hadvance)
  | connected =>
    simp only [step, Option.ite_none_right_eq_some, Bool.and_eq_true, decide_eq_true_eq,
      Option.some.injEq] at h
    obtain ⟨⟨hconnecting, -⟩, rfl⟩ := h
    exact .connected hconnecting
  | connectFailed =>
    simp only [step, Option.ite_none_right_eq_some, Bool.and_eq_true, decide_eq_true_eq,
      Option.some.injEq] at h
    obtain ⟨⟨hconnecting, -⟩, rfl⟩ := h
    exact .connectFailed hconnecting
  | retryExpired =>
    simp only [step, Option.ite_none_right_eq_some, Bool.and_eq_true, Option.some.injEq] at h
    obtain ⟨⟨harmed, -⟩, rfl⟩ := h
    exact .retryExpired harmed
  | context c e =>
    simp only [step, Option.ite_none_left_eq_some, Bool.or_eq_true, Option.isSome_iff_ne_none,
      not_or, ne_eq, Decidable.not_not] at h
    obtain ⟨⟨hthrown, -⟩, h⟩ := h
    split at h
    · cases h
    · rename_i k hk
      obtain ⟨r, hr, rfl⟩ := Option.map_eq_some_iff.mp h
      exact .context hthrown hk (Connection.handles_of_handle hr)

/-! ## What holds in every run -/

theorem postTo_eq (s : Client μ) (c : Nat) (task : Transport.Task (Entry μ)) :
    ∃ connections, s.postTo c task = { s with connections } := by
  unfold postTo
  split
  · exact ⟨_, rfl⟩
  · exact ⟨_, rfl⟩

@[simp] theorem length_postTo (s : Client μ) (c : Nat) (task : Transport.Task (Entry μ)) :
    (s.postTo c task).connections.length = s.connections.length := by
  unfold postTo
  split
  · exact List.length_set
  · rfl

theorem getElem?_postTo {s : Client μ} {c c' : Nat} {task : Transport.Task (Entry μ)}
    {k : Connection (Entry μ)} (h : (s.postTo c task).connections[c']? = some k) :
    c' ≠ c ∧ s.connections[c']? = some k ∨
      c' = c ∧ ∃ k', s.connections[c]? = some k' ∧ k = k'.post task := by
  unfold postTo at h
  split at h
  · rename_i k' hk'
    by_cases heq : c' = c
    · subst heq
      rw [List.getElem?_set_self (List.getElem?_eq_some_iff.mp hk').1] at h
      exact .inr ⟨rfl, k', hk', (Option.some.inj h).symm⟩
    · rw [List.getElem?_set_ne (Ne.symm heq)] at h
      exact .inl ⟨heq, h⟩
  · rename_i hnone
    refine .inl ⟨fun heq => ?_, h⟩
    rw [← heq, h] at hnone
    cases hnone

/-- What a post keeps and a new connection has, every connection has after a step. -/
theorem Advances.connections_keep {s t : Client μ} {r r' : Routine μ} (h : Advances s r t r')
    {P : Nat → Connection (Entry μ) → Prop} (hpost : ∀ c k task, P c k → P c (k.post task))
    (hnew : P s.connections.length (startedConnection (Entry μ)))
    (hall : ∀ c k, s.connections[c]? = some k → P c k) :
    ∀ c k, t.connections[c]? = some k → P c k := by
  have hposted (c' : Nat) (task : Transport.Task (Entry μ)) :
      ∀ c k, (s.postTo c' task).connections[c]? = some k → P c k := by
    intro c k hk
    rcases getElem?_postTo hk with ⟨-, hk⟩ | ⟨rfl, k', hk', rfl⟩
    · exact hall c k hk
    · exact hpost c k' task (hall c k' hk')
  cases h with
  | sendPosted => exact hposted _ _
  | stopClosed => exact hposted _ _
  | registered =>
    intro c k hk
    have hc : c < (s.connections ++ [startedConnection (Entry μ)]).length :=
      (List.getElem?_eq_some_iff.mp hk).1
    rw [List.length_append, List.length_singleton] at hc
    by_cases hold : c < s.connections.length
    · rw [List.getElem?_append_left hold] at hk
      exact hall c k hk
    · obtain rfl : c = s.connections.length := by omega
      rw [List.getElem?_concat_length, Option.some.injEq] at hk
      exact hk ▸ hnew
  | _ => exact hall

/-- Every connection that is named exists. -/
structure Valid (s : Client μ) : Prop where
  connection : ∀ c, s.connection = some c → c < s.connections.length
  routines : ∀ r ∈ s.routines, ∀ c, r.pc.target = some c → c < s.connections.length
  closedBy : ∀ c ∈ s.closedBy, c < s.connections.length

theorem valid_init : Valid ({} : Client μ) where
  connection _ h := by cases h
  routines _ h := by cases h
  closedBy _ h := by cases h

/-- New routines, and what has just told that it is closed. -/
theorem Valid.append {s t : Client μ} (h : s.Valid) (xs : List (Routine μ)) (closed : List Nat)
    (hconnection : t.connection = s.connection)
    (hlength : t.connections.length = s.connections.length)
    (hroutines : t.routines = s.routines ++ xs) (hclosedBy : t.closedBy = s.closedBy ++ closed)
    (htarget : ∀ x ∈ xs, ∀ c, x.pc.target = some c → c < s.connections.length)
    (hclosed : ∀ c ∈ closed, c < s.connections.length) : t.Valid := by
  refine ⟨fun c hc => ?_, fun r hr c hc => ?_, fun c hc => ?_⟩
  · rw [hconnection] at hc
    rw [hlength]
    exact h.connection c hc
  · rw [hroutines] at hr
    rw [hlength]
    rcases List.mem_append.mp hr with hr | hr
    · exact h.routines r hr c hc
    · exact htarget r hr c hc
  · rw [hclosedBy] at hc
    rw [hlength]
    rcases List.mem_append.mp hc with hc | hc
    · exact h.closedBy c hc
    · exact hclosed c hc

theorem valid_spawn {s t : Client μ} {pc : Pc μ} (h : s.Valid)
    (hconnection : t.connection = s.connection) (hconnections : t.connections = s.connections)
    (hroutines : t.routines = s.routines) (hclosedBy : t.closedBy = s.closedBy)
    (hpc : pc.target = none) : (t.spawn pc).Valid := by
  refine h.append [{ pc }] [] hconnection (congrArg List.length hconnections) ?_ ?_ ?_ nofun
  · rw [spawn, hroutines]
  · rw [List.append_nil]
    exact hclosedBy
  · intro x hx c hc
    rw [List.mem_singleton.mp hx, hpc] at hc
    cases hc

theorem Goes.target {s : Client μ} {pc pc' : Pc μ} (h : Goes s pc pc') {c : Nat}
    (hc : pc'.target = some c) : pc.target = some c ∨ s.connection = some c := by
  cases h with
  | connection hconnection =>
    cases hc
    exact .inr hconnection
  | message => exact .inl hc
  | closed => exact .inl hc
  | _ => cases hc

/-- A step of a routine only adds connections, and the routine names no new one but the one it has
just read from `connection_`. -/
theorem Advances.valid {s t : Client μ} {r r' : Routine μ} (h : Advances s r t r') :
    t.routines = s.routines ∧ t.closedBy = s.closedBy ∧
      s.connections.length ≤ t.connections.length ∧
      (∀ c, t.connection = some c → s.connection = some c ∨ c < t.connections.length) ∧
      ∀ c, r'.pc.target = some c → r.pc.target = some c ∨ s.connection = some c := by
  have hpost (c : Nat) (task : Transport.Task (Entry μ)) :
      (s.postTo c task).routines = s.routines ∧ (s.postTo c task).closedBy = s.closedBy ∧
        (s.postTo c task).connection = s.connection := by
    obtain ⟨connections, heq⟩ := s.postTo_eq c task
    rw [heq]
    exact ⟨rfl, rfl, rfl⟩
  cases h with
  | goes hgoes => exact ⟨rfl, rfl, Nat.le_refl _, fun c hc => .inl hc, fun c hc => hgoes.target hc⟩
  | exchangeWon hpc =>
    exact ⟨rfl, rfl, Nat.le_refl _, fun c hc => .inl hc, fun c hc => .inl (hpc ▸ hc)⟩
  | sendAccepted hpc =>
    exact ⟨rfl, rfl, Nat.le_refl _, fun c hc => .inl hc, fun c hc => .inl (hpc ▸ hc)⟩
  | sendPosted hpc =>
    obtain ⟨hroutines, hclosedBy, hconnection⟩ := hpost _ _
    exact ⟨hroutines, hclosedBy, Nat.le_of_eq (length_postTo _ _ _).symm,
      fun c hc => .inl (hconnection ▸ hc), nofun⟩
  | reset => exact ⟨rfl, rfl, Nat.le_refl _, nofun, nofun⟩
  | registered =>
    refine ⟨rfl, rfl, ?_, fun c hc => ?_, nofun⟩
    · simp only [List.length_append, Nat.le_add_right]
    · cases hc
      exact .inr (by simp only [List.length_append, List.length_singleton]; omega)
  | stopClosed =>
    obtain ⟨hroutines, hclosedBy, -⟩ := hpost _ _
    exact ⟨hroutines, hclosedBy, Nat.le_of_eq (length_postTo _ _ _).symm, nofun, nofun⟩
  | _ => exact ⟨rfl, rfl, Nat.le_refl _, fun c hc => .inl hc, nofun⟩

theorem valid_step {p : MessageParser ω} {s s' : Client μ} {a : ClientAction μ} (h : s.Valid)
    (hsteps : Steps p s a s') : s'.Valid := by
  cases hsteps with
  | send => exact valid_spawn h rfl rfl rfl rfl rfl
  | stop => exact valid_spawn h rfl rfl rfl rfl rfl
  | @routine i r t r' hr hadvances =>
    obtain ⟨hroutines, hclosedBy, hlength, hconnection, htarget⟩ := hadvances.valid
    refine ⟨fun c hc => ?_, fun x hx c hc => ?_, fun c hc => ?_⟩
    · rcases hconnection c hc with hold | hnew
      · exact Nat.lt_of_lt_of_le (h.connection c hold) hlength
      · exact hnew
    · apply Nat.lt_of_lt_of_le _ hlength
      rcases List.mem_or_eq_of_mem_set hx with hx | rfl
      · exact h.routines x hx c hc
      · rcases htarget c hc with hold | hfetched
        · exact h.routines r (List.mem_of_getElem? hr) c hold
        · exact h.connection c hfetched
    · exact Nat.lt_of_lt_of_le (h.closedBy c (hclosedBy ▸ hc)) hlength
  | connected => exact valid_spawn h rfl rfl rfl rfl rfl
  | connectFailed => exact valid_spawn h rfl rfl rfl rfl rfl
  | retryExpired => exact valid_spawn h rfl rfl rfl rfl rfl
  | @context c e k r hthrown hk hhandles =>
    have hc : c < s.connections.length := (List.getElem?_eq_some_iff.mp hk).1
    have hdelivers := delivers s c hhandles
    generalize s.deliver c r = t at hdelivers ⊢
    cases hdelivers with
    | silent =>
      exact h.append [] [] rfl List.length_set (List.append_nil _).symm (List.append_nil _).symm
        nofun nofun
    | closed =>
      refine h.append [_] [c] rfl List.length_set rfl rfl (fun x hx c' hc' => ?_) fun c' hc' => ?_
      · rw [List.mem_singleton.mp hx] at hc'
        cases hc'
        exact hc
      · rw [List.mem_singleton.mp hc']
        exact hc
    | sent =>
      refine h.append [_] [] rfl List.length_set rfl (List.append_nil _).symm
        (fun x hx c' hc' => ?_) nofun
      rw [List.mem_singleton.mp hx] at hc'
      cases hc'

end Client

end MsgpackRpc.Clients
