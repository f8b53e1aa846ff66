import MsgpackRpc.Messages.ParsedMessage
import MsgpackRpc.Transport.ConnectionSystem

/-!
# Connections of servers

`ServerConnection` on a started `Connection`.  `on_received` runs in the context of the connection
and posts the handling of a request or a notification to the callback contexts.  A routine is such a
handler, or a call of `on_sent`, on its way; its steps are the sections of the mutex, the accesses
to the atomic outside of them, and the calls that leave the class.
-/

namespace MsgpackRpc.Servers

open MsgpackRpc.Transport
open MsgpackRpc.Messages (ParsedMessage ParsedRequest ParsedNotification)

/-- What `on_received` hands to `async_invoke`. -/
inductive Invocation where
  | request (request : ParsedRequest)
  | notification (notification : ParsedNotification)

def Invocation.ofMessage : ParsedMessage → Option Invocation
  | .request r => some (.request r)
  | .notification n => some (.notification n)
  | .response _ => none

def isResponse : ParsedMessage → Bool
  | .response _ => true
  | _ => false

/-- Where a routine stands: the step that it takes next. -/
inductive Pc (μ : Type) where
  -- `on_request` and `on_notification` inside `processor_`
  | call (request : ParsedRequest)
  | notify (notification : ParsedNotification)
  | push (response : μ)
  -- `send_next_if_exists`: its section, then `Connection::async_send`
  | sendNext
  | asyncSend (message : μ)
  | postSend (message : μ)
  -- `on_sent`
  | storeSent
  | done

def Invocation.pc {μ : Type} : Invocation → Pc μ
  | .request r => .call r
  | .notification n => .notify n

/-- A routine; `on_sent` runs in the context of the connection. -/
structure Routine (μ : Type) where
  inContext : Bool := false
  pc : Pc μ

def Routine.isRunning {μ : Type} (r : Routine μ) : Bool :=
  match r.pc with
  | .done => false
  | _ => true

/-- A `ServerConnection` whose `start` has returned.  The fields after `interrupted` only record
what has happened. -/
structure ServerConnection (μ : Type) where
  connection : Connection μ :=
    { state := .processing, callbacks := true, tasks := [.asyncReadNext] }
  queue : List μ := []
  isSending : Bool := false
  /-- The invocations that no callback context has begun. -/
  invoked : List Invocation := []
  routines : List (Routine μ) := []
  /-- An exception has left a handler, and the executor has stopped its contexts. -/
  interrupted : Bool := false
  /-- The messages given to `on_received`. -/
  received : List ParsedMessage := []
  /-- The invocations that have gone to `on_request` or `on_notification`, and so to
  `processor_`. -/
  dispatched : List Invocation := []
  /-- The responses that `processor_->call` has returned. -/
  answered : List μ := []
  pushed : List μ := []
  /-- The messages given to `IConnection::async_send`. -/
  handed : List μ := []

/-- `answer` and `notified` are the returns of `processor_`; an exception has no response. -/
inductive ServerAction (μ : Type) where
  | asyncClose
  | dispatch (i : Nat)
  | answer (i : Nat) (response : Option μ)
  | notified (i : Nat) (returned : Bool)
  | routine (i : Nat)
  | context (e : Connection.Event)
  deriving DecidableEq, Repr

namespace ServerConnection

variable {μ : Type}

/-- The connection is what `Connection::start` makes of a new one. -/
theorem start_eq_ok :
    Connection.start ({} : Connection μ) = .ok ({} : ServerConnection μ).connection :=
  rfl

def onInvalidMessage (s : ServerConnection μ) : ServerConnection μ :=
  { s with connection := s.connection.post (.closeInThread {}) }

def onReceived (s : ServerConnection μ) (m : ParsedMessage) : ServerConnection μ :=
  let s := { s with received := s.received ++ [m] }
  match m with
  | .request request => { s with invoked := s.invoked ++ [.request request] }
  | .notification notification => { s with invoked := s.invoked ++ [.notification notification] }
  | .response _ => s.onInvalidMessage

/-- The callbacks that `start` gives to the connection. -/
def onCallback (s : ServerConnection μ) : Callback ParsedMessage μ → ServerConnection μ
  | .onReceived m => s.onReceived m
  | .onSent _ => { s with routines := s.routines ++ [{ inContext := true, pc := .storeSent }] }
  | .onClosed _ => s

/-- A handler of the connection has run. -/
def deliver (s : ServerConnection μ) (r : Handled ParsedMessage μ) : ServerConnection μ :=
  r.callbacks.foldl onCallback
    { s with connection := r.connection, interrupted := r.thrown.isSome }

/-- One step of a routine outside `processor_`. -/
def advance (s : ServerConnection μ) : Pc μ → Option (ServerConnection μ × Pc μ)
  | .push response =>
      some ({ s with queue := s.queue ++ [response], pushed := s.pushed ++ [response] }, .sendNext)
  | .sendNext =>
      -- under `message_queue_mutex_`: the test, the pop and the store of `true` are one step
      if s.isSending then
        some (s, .done)
      else
        match s.queue with
        | [] => some (s, .done)
        | message :: queue => some ({ s with queue, isSending := true }, .asyncSend message)
  -- a connection that does not process, or that nobody owns any more, drops the message
  | .asyncSend message =>
      some ({ s with handed := s.handed ++ [message] },
        if s.connection.state.isProcessing then .postSend message else .done)
  | .postSend message =>
      some ({ s with connection := s.connection.post (.asyncSendInThread message) }, .done)
  | .storeSent => some ({ s with isSending := false }, .sendNext)
  | .call _ | .notify _ | .done => none

/-- `on_sent` is still running in the context of the connection. -/
def busy (s : ServerConnection μ) : Bool :=
  s.routines.any fun r => r.inContext && r.isRunning

/-- After an exception the contexts start nothing new. -/
def step (p : MessageParser ParsedMessage) (s : ServerConnection μ) :
    ServerAction μ → Option (ServerConnection μ)
  | .asyncClose => some { s with connection := s.connection.post (.closeInThread {}) }
  | .dispatch i =>
      if s.interrupted then none
      else
        match s.invoked[i]? with
        | none => none
        | some invocation =>
            some { s with
              invoked := s.invoked.eraseIdx i
              dispatched := s.dispatched ++ [invocation]
              routines := s.routines ++ [{ pc := invocation.pc }] }
  | .answer i response =>
      match s.routines[i]? with
      -- `processor_->call` returns a response, or an exception leaves it
      | some { inContext, pc := .call _ } =>
          match response with
          | some response =>
              some { s with
                answered := s.answered ++ [response]
                routines := s.routines.set i { inContext, pc := .push response } }
          | none =>
              some { s with
                interrupted := true
                routines := s.routines.set i { inContext, pc := .done } }
      | _ => none
  | .notified i returned =>
      match s.routines[i]? with
      | some { inContext, pc := .notify _ } =>
          some { s with
            interrupted := s.interrupted || !returned
            routines := s.routines.set i { inContext, pc := .done } }
      | _ => none
  | .routine i =>
      match s.routines[i]? with
      | none => none
      | some r =>
          (s.advance r.pc).map fun (t, pc) =>
            { t with routines := s.routines.set i { r with pc } }
  | .context e =>
      if s.interrupted || s.busy then none
      else (s.connection.handle p e).map s.deliver

end ServerConnection

/-- A started `ServerConnection`, driven by a schedule. -/
def serverMachine (p : MessageParser ParsedMessage) (μ : Type) :
    Machine (ServerConnection μ) (ServerAction μ) where
  init := {}
  step := ServerConnection.step p

/-! ## What a step can do -/

namespace ServerConnection

variable {μ : Type}

/-- One constructor for each way a routine can take its next step outside `processor_`. -/
inductive Advances (s : ServerConnection μ) : Pc μ → ServerConnection μ → Pc μ → Prop where
  | pushed (response : μ) :
      Advances s (.push response)
        { s with queue := s.queue ++ [response], pushed := s.pushed ++ [response] } .sendNext
  | sending (hsending : s.isSending = true) : Advances s .sendNext s .done
  | empty (hqueue : s.queue = []) : Advances s .sendNext s .done
  | taken {message queue} (hfree : s.isSending = false) (hqueue : s.queue = message :: queue) :
      Advances s .sendNext { s with queue, isSending := true } (.asyncSend message)
  | accepted {message} (hstate : s.connection.state = .processing) :
      Advances s (.asyncSend message) { s with handed := s.handed ++ [message] }
        (.postSend message)
  | dropped {message} (hstate : s.connection.state ≠ .processing) :
      Advances s (.asyncSend message) { s with handed := s.handed ++ [message] } .done
  | posted {message} :
      Advances s (.postSend message)
        { s with connection := s.connection.post (.asyncSendInThread message) } .done
  | stored : Advances s .storeSent { s with isSending := false } .sendNext

theorem advances_of_advance {s t : ServerConnection μ} {pc pc' : Pc μ}
    (h : s.advance pc = some (t, pc')) : Advances s pc t pc' := by
  cases pc with
  | push response =>
    cases h
    exact .pushed response
  | sendNext =>
    simp only [advance] at h
    cases hsending : s.isSending <;>
      simp only [hsending, if_true, Bool.false_eq_true, if_false] at h
    · cases hqueue : s.queue <;> simp only [hqueue] at h <;> cases h
      · exact .empty hqueue
      · exact .taken hsending hqueue
    · cases h
      exact .sending hsending
  | asyncSend message =>
    simp only [advance] at h
    by_cases hstate : s.connection.state = .processing
    · rw [if_pos (State.isProcessing_eq_true.mpr hstate)] at h
      cases h
      exact .accepted hstate
    · rw [if_neg (by rwa [State.isProcessing_eq_true])] at h
      cases h
      exact .dropped hstate
  | postSend message =>
    cases h
    exact .posted
  | storeSent =>
    cases h
    exact .stored
  | call => cases h
  | notify => cases h
  | done => cases h

/-- The tasks that `on_invalid_message` posts when `messages` are received. -/
def closesFor (messages : List ParsedMessage) : List (Transport.Task μ) :=
  (messages.filter isResponse).map fun _ => .closeInThread {}

theorem eq_of_mem_closesFor {messages : List ParsedMessage} {task : Transport.Task μ}
    (h : task ∈ closesFor messages) : task = .closeInThread {} := by
  obtain ⟨_, -, rfl⟩ := List.mem_map.mp h
  rfl

/-- `on_received` for one message after another. -/
theorem foldl_onReceived (s : ServerConnection μ) (messages : List ParsedMessage) :
    (messages.map Callback.onReceived).foldl onCallback s =
      { s with
        connection :=
          { s.connection with tasks := s.connection.tasks ++ closesFor messages }
        received := s.received ++ messages
        invoked := s.invoked ++ messages.filterMap Invocation.ofMessage } := by
  induction messages generalizing s with
  | nil => simp [closesFor]
  | cons m messages ih =>
    rw [List.map_cons, List.foldl_cons, ih]
    cases m with
    | request r =>
      simp [onCallback, onReceived, closesFor, isResponse, Invocation.ofMessage]
    | notification n =>
      simp [onCallback, onReceived, closesFor, isResponse, Invocation.ofMessage]
    | response r =>
      simp only [onCallback, onReceived, onInvalidMessage, Connection.post, List.append_assoc]
      rfl

/-- A handler of the connection delivers messages, or it tells that a write has completed. -/
inductive Delivers (p : MessageParser ParsedMessage) (s : ServerConnection μ)
    (e : Connection.Event) (r : Handled ParsedMessage μ) : ServerConnection μ → Prop where
  | silent (hwritten : e.isWritten = false) : Delivers p s e r { s with
      connection :=
        { r.connection with
          tasks := r.connection.tasks ++ closesFor (e.received p s.connection) }
      interrupted := r.thrown.isSome
      received := s.received ++ e.received p s.connection
      invoked := s.invoked ++ (e.received p s.connection).filterMap Invocation.ofMessage }
  | sent (hwritten : e.isWritten = true) (hreceived : e.received p s.connection = []) :
      Delivers p s e r { s with
        connection := r.connection
        interrupted := r.thrown.isSome
        routines := s.routines ++ [{ inContext := true, pc := .storeSent }] }

theorem delivers {p : MessageParser ParsedMessage} {s : ServerConnection μ}
    {e : Connection.Event} {r : Handled ParsedMessage μ}
    (h : Connection.Handles p s.connection e r) : Delivers p s e r (s.deliver r) := by
  cases h.tells with
  | silent _ hwritten hcallbacks =>
    rw [deliver, hcallbacks, foldl_onReceived]
    exact .silent hwritten
  | closed status _ hwritten _ hcallbacks =>
    rw [deliver, hcallbacks, List.foldl_append, foldl_onReceived]
    exact .silent hwritten
  | sent message hwritten hcallbacks =>
    rw [deliver, hcallbacks]
    refine .sent hwritten ?_
    cases e with
    | write i error => rfl
    | _ => cases hwritten

/-- The steps of a server connection. -/
inductive Steps (p : MessageParser ParsedMessage) (s : ServerConnection μ) :
    ServerAction μ → ServerConnection μ → Prop where
  | asyncClose :
      Steps p s .asyncClose { s with connection := s.connection.post (.closeInThread {}) }
  | dispatch {i invocation} (hinvoked : s.invoked[i]? = some invocation) :
      Steps p s (.dispatch i) { s with
        invoked := s.invoked.eraseIdx i
        dispatched := s.dispatched ++ [invocation]
        routines := s.routines ++ [{ pc := invocation.pc }] }
  | answer {i r request response} (hr : s.routines[i]? = some r) (hpc : r.pc = .call request) :
      Steps p s (.answer i (some response)) { s with
        answered := s.answered ++ [response]
        routines := s.routines.set i { r with pc := .push response } }
  | processed {a i r} (hr : s.routines[i]? = some r) (interrupted : Bool)
      (hpc : (∃ request, r.pc = .call request) ∨ ∃ notification, r.pc = .notify notification)
      (ha : a = .answer i none ∨ ∃ returned, a = .notified i returned) :
      Steps p s a { s with interrupted, routines := s.routines.set i { r with pc := .done } }
  | routine {i r t pc} (hr : s.routines[i]? = some r) (hadvances : Advances s r.pc t pc) :
      Steps p s (.routine i) { t with routines := s.routines.set i { r with pc } }
  | context {e r t} (hr : Connection.Handles p s.connection e r) (hdelivers : Delivers p s e r t) :
      Steps p s (.context e) t

theorem steps_of_step {p : MessageParser ParsedMessage} {s s' : ServerConnection μ}
    {a : ServerAction μ} (h : s.step p a = some s') : Steps p s a s' := by
  cases a with
  | asyncClose =>
    cases h
    exact .asyncClose
  | dispatch i =>
    simp only [step, Option.ite_none_left_eq_some] at h
    obtain ⟨-, h⟩ := h
    split at h
    · cases h
    · rename_i invocation hinvoked
      cases h
      exact .dispatch hinvoked
  | answer i response =>
    simp only [step] at h
    split at h
    · rename_i hr
      cases response with
      | some response =>
        cases h
        exact .answer hr rfl
      | none =>
        cases h
        exact .processed hr true (.inl ⟨_, rfl⟩) (.inl rfl)
    · cases h
  | notified i returned =>
    simp only [step] at h
    split at h
    · rename_i hr
      cases h
      exact .processed hr _ (.inr ⟨_, rfl⟩) (.inr ⟨returned, rfl⟩)
    · cases h
  | routine i =>
    simp only [step] at h
    split at h
    · cases h
    · rename_i r hr
      obtain ⟨⟨t, pc⟩, hadvance, rfl⟩ := Option.map_eq_some_iff.mp h
      exact .routine hr (advances_of_advance hadvance)
  | context e =>
    simp only [step, Option.ite_none_left_eq_some] at h
    obtain ⟨-, h⟩ := h
    obtain ⟨r, hr, rfl⟩ := Option.map_eq_some_iff.mp h
    have hhandles := Connection.handles_of_handle hr
    exact .context hhandles (delivers hhandles)

end ServerConnection

end MsgpackRpc.Servers
