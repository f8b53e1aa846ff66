import MsgpackRpc.Messages.MessageParser
import MsgpackRpc.Transport.BackgroundTaskStateMachine

/-!
# Connections

A `Connection` is driven by one context thread, which runs posted tasks and completion handlers one
after another.  A handler accesses `state_` at most once and nobody else touches the socket, the
parser or the lists of operations, so a handler is one step; the calls that other threads make
(`start`, `async_send`, `async_close`) are split at their atomic accesses and posts.
-/

namespace MsgpackRpc.Transport

/-- The error codes of asio that the handlers tell apart. -/
inductive ErrorCode where
  | operationAborted
  | eof
  | connectionReset
  | brokenPipe
  | badDescriptor
  | other (message : List UInt8)
  deriving DecidableEq, Repr

def ErrorCode.message : ErrorCode → List UInt8
  | .operationAborted => text "Operation canceled"
  | .eof => text "End of file"
  | .connectionReset => text "Connection reset by peer"
  | .brokenPipe => text "Broken pipe"
  | .badDescriptor => text "Bad file descriptor"
  | .other message => message

def ErrorCode.isClosedByPeer : ErrorCode → Bool
  | .eof | .connectionReset | .brokenPipe => true
  | _ => false

/-- The exceptions that can leave a handler. -/
inductive Thrown where
  | receiveError (error : ErrorCode)
  | sendError (error : ErrorCode)
  | systemError (error : ErrorCode)
  | badFunctionCall
  deriving DecidableEq, Repr

/-- The status of the `MsgpackRPCException`s among them. -/
def Thrown.status : Thrown → Option Status
  | .receiveError error =>
      some (.create .unexpectedError (text "Error occurred when receiving data: " ++ error.message))
  | .sendError error =>
      some (.create .unexpectedError (text "Error occurred when sending data: " ++ error.message))
  | .systemError _ | .badFunctionCall => none

inductive SocketState where
  | opened
  | closed
  deriving DecidableEq, Repr

/-- What the three throwing socket calls of `close_in_thread` answer: `none` is success. -/
structure SocketCalls where
  cancel : Option ErrorCode := none
  shutdown : Option ErrorCode := none
  close : Option ErrorCode := none
  deriving DecidableEq, Repr

def SocketCalls.succeed (calls : SocketCalls) : Bool :=
  calls.cancel.isNone && calls.shutdown.isNone && calls.close.isNone

/-- `cancel` on a closed socket fails with `bad_descriptor`. -/
def SocketCalls.admissible (calls : SocketCalls) : SocketState → Bool
  | .opened => true
  | .closed => calls.cancel == some .badDescriptor

theorem SocketCalls.opened_of_succeed {calls : SocketCalls} {socket : SocketState}
    (hsucceed : calls.succeed = true) (hcalls : calls.admissible socket = true) :
    socket = .opened := by
  obtain ⟨cancel, shutdown, close⟩ := calls
  cases socket with
  | opened => rfl
  | closed =>
    rw [SocketCalls.admissible, beq_iff_eq] at hcalls
    subst hcalls
    cases hsucceed

/-- The results asio can give an operation, by the state of the socket when it was started and when
its handler runs.  An operation that is still pending when the socket is closed is aborted, and one
that had already completed keeps its result. -/
def SocketState.admits : SocketState → SocketState → Option ErrorCode → Bool
  | .closed, _, error => error == some .badDescriptor
  | .opened, .opened, error => error != some .badDescriptor && error != some .operationAborted
  | .opened, .closed, error => error != some .badDescriptor

theorem SocketState.admits_closed {now : SocketState} {error : Option ErrorCode} :
    SocketState.closed.admits now error = true ↔ error = some .badDescriptor := by
  simp only [SocketState.admits, beq_iff_eq]

/-- The tasks posted to the context of the socket. -/
inductive Task (μ : Type) where
  | asyncReadNext
  | asyncSendInThread (message : μ)
  | closeInThread (status : Status)
  deriving DecidableEq, Repr

/-- The callbacks that a connection invokes.  `on_sent_` takes no argument: the message is the one
whose write completed. -/
inductive Callback (ω μ : Type) where
  | onReceived (message : ω)
  | onSent (message : μ)
  | onClosed (status : Status)
  deriving DecidableEq, Repr

/-- A connection with the asio operations that are on their way for it.  An outstanding operation
remembers the state of the socket in which it was started. -/
structure Connection (μ : Type) where
  state : State := .init
  /-- Whether `start` has assigned `on_received_`, `on_sent_` and `on_closed_`. -/
  callbacks : Bool := false
  socket : SocketState := .opened
  buffer : List UInt8 := []
  tasks : List (Task μ) := []
  reads : List SocketState := []
  writes : List (μ × SocketState) := []
  deriving DecidableEq, Repr

/-- The end of a handler: the connection, the callbacks it invoked and the exception that left
it. -/
structure Handled (ω μ : Type) where
  connection : Connection μ
  callbacks : List (Callback ω μ) := []
  thrown : Option Thrown := none

namespace Connection

variable {ω μ : Type}

def post (c : Connection μ) (task : Task μ) : Connection μ :=
  { c with tasks := c.tasks ++ [task] }

/-- `start` up to its compare-exchange. -/
def startRequested (c : Connection μ) : Except Status (Connection μ) := do
  let state ← c.state.handleStartRequest
  return { c with state }

def assignCallbacks (c : Connection μ) : Connection μ :=
  { c with callbacks := true }

def processingStarted (c : Connection μ) : Connection μ :=
  { c with state := c.state.handleProcessingStarted }

/-- `start` when nothing else touches the connection meanwhile. -/
def start (c : Connection μ) : Except Status (Connection μ) := do
  let c ← c.startRequested
  return c.assignCallbacks.processingStarted.post .asyncReadNext

def asyncReadNext (c : Connection μ) : Connection μ :=
  { c with reads := c.reads ++ [c.socket] }

def asyncSendInThread (c : Connection μ) (message : μ) : Connection μ :=
  { c with writes := c.writes ++ [(message, c.socket)] }

/-- `close_in_thread`.  asio closes the descriptor even when `close` reports an error, and invoking
`on_closed_` before `start` has assigned it throws. -/
def closeInThread (c : Connection μ) (calls : SocketCalls) (status : Status) : Handled ω μ :=
  let (state, required) := c.state.handleStopRequested
  let stopped := { c with state }
  if !required then
    { connection := stopped }
  else
    -- each call that fails throws, and nothing catches it
    match calls.cancel, calls.shutdown, calls.close with
    | some error, _, _ => { connection := stopped, thrown := some (.systemError error) }
    | none, some error, _ => { connection := stopped, thrown := some (.systemError error) }
    | none, none, some error =>
        { connection := { stopped with socket := .closed }, thrown := some (.systemError error) }
    | none, none, none =>
        let closed := { stopped with socket := .closed }
        if c.callbacks then
          { connection := closed, callbacks := [.onClosed status] }
        else
          { connection := closed, thrown := some .badFunctionCall }

/-- The branch that `process_read_bytes` and `on_sent` share for `eof`, `connection_reset` and
`broken_pipe`.  Operations are started only after `start`, so `on_closed_` is assigned here. -/
def closedByPeer (c : Connection μ) : Handled ω μ :=
  { connection := { c with state := c.state.handleProcessingStopped }
    callbacks := [.onClosed {}] }

def processReadBytes (p : MessageParser ω) (c : Connection μ) (error : Option ErrorCode)
    (bytes : List UInt8) (calls : SocketCalls) : Handled ω μ :=
  match error with
  | some .operationAborted => { connection := c }
  | some error =>
      if error.isClosedByPeer then
        c.closedByPeer
      else
        { connection := c, thrown := some (.receiveError error) }
  | none =>
      let drained := p.drain (c.buffer ++ bytes)
      let c := { c with buffer := drained.rest }
      let received := drained.messages.map Callback.onReceived
      match drained.invalid with
      -- the messages before the malformed one have been delivered
      | some status =>
          let closed : Handled ω μ := c.closeInThread calls status
          { closed with callbacks := received ++ closed.callbacks }
      -- the state is looked at only before the next read
      | none =>
          if c.state.isProcessing then
            { connection := c.asyncReadNext, callbacks := received }
          else
            { connection := c, callbacks := received }

/-- `on_sent`, the handler of the write of `message`. -/
def onSent (c : Connection μ) (error : Option ErrorCode) (message : μ) : Handled ω μ :=
  match error with
  | some .operationAborted => { connection := c }
  | some error =>
      if error.isClosedByPeer then
        c.closedByPeer
      else
        { connection := c, thrown := some (.sendError error) }
  | none => { connection := c, callbacks := [.onSent message] }

/-- What the context thread runs next: a posted task or the handler of an outstanding operation,
with the answers of asio that the handler meets. -/
inductive Event where
  | task (i : Nat) (calls : SocketCalls)
  | read (i : Nat) (error : Option ErrorCode) (bytes : List UInt8) (calls : SocketCalls)
  | write (i : Nat) (error : Option ErrorCode)
  deriving DecidableEq, Repr

/-- A successful read delivers between one byte and the size of the buffer. -/
def readable (p : MessageParser ω) (error : Option ErrorCode) (bytes : List UInt8) : Bool :=
  error.isSome || (0 < bytes.length && bytes.length ≤ p.readBufferSize)

def runTask (c : Connection μ) (calls : SocketCalls) : Task μ → Option (Handled ω μ)
  | .asyncReadNext => some { connection := c.asyncReadNext }
  | .asyncSendInThread message => some { connection := c.asyncSendInThread message }
  | .closeInThread status =>
      if calls.admissible c.socket then some (c.closeInThread calls status) else none

def handle (p : MessageParser ω) (c : Connection μ) : Event → Option (Handled ω μ)
  | .task i calls =>
      match c.tasks[i]? with
      | none => none
      | some task => { c with tasks := c.tasks.eraseIdx i }.runTask calls task
  | .read i error bytes calls =>
      match c.reads[i]? with
      | none => none
      | some started =>
          if started.admits c.socket error && readable p error bytes &&
              calls.admissible c.socket then
            some ({ c with reads := c.reads.eraseIdx i }.processReadBytes p error bytes calls)
          else none
  | .write i error =>
      match c.writes[i]? with
      | none => none
      | some (message, started) =>
          if started.admits c.socket error then
            some ({ c with writes := c.writes.eraseIdx i }.onSent error message)
          else none

/-! ## What a handler can do -/

theorem startRequested_eq_ok {c c' : Connection μ} (h : c.startRequested = .ok c') :
    c.state = .init ∧ c' = { c with state := .starting } := by
  unfold startRequested at h
  cases hstate : c.state.handleStartRequest with
  | error status => simp [hstate, bind, Except.bind] at h
  | ok state =>
    obtain ⟨hinit, rfl⟩ := State.handleStartRequest_eq_ok hstate
    simp only [hstate, bind, Except.bind, pure, Except.pure, Except.ok.injEq] at h
    exact ⟨hinit, h.symm⟩

/-- `close_in_thread` returns at once in `STOPPED`; otherwise one of its calls throws, or all of
them succeed and it tells the owner. -/
inductive Closes (c : Connection μ) (calls : SocketCalls) (status : Status) :
    Handled ω μ → Prop where
  | alreadyStopped (hstate : c.state = .stopped) : Closes c calls status { connection := c }
  | failed (hstate : c.state ≠ .stopped) (socket : SocketState) (thrown : Thrown)
      (hsocket : socket = c.socket ∨ socket = .closed)
      (hcause : calls.succeed = false ∨ c.callbacks = false)
      (hkind : ∀ error, thrown ≠ .receiveError error ∧ thrown ≠ .sendError error) :
      Closes c calls status
        { connection := { c with state := .stopped, socket }, thrown := some thrown }
  | closed (hstate : c.state ≠ .stopped) (hcalls : calls.succeed = true)
      (hcallbacks : c.callbacks = true) :
      Closes c calls status
        { connection := { c with state := .stopped, socket := .closed }
          callbacks := [.onClosed status] }

theorem Closes.state_eq {c : Connection μ} {calls : SocketCalls} {status : Status}
    {r : Handled ω μ} (h : Closes c calls status r) : r.connection.state = .stopped := by
  cases h with
  | alreadyStopped hstate => exact hstate
  | failed => rfl
  | closed => rfl

theorem closeInThread_closes (c : Connection μ) (calls : SocketCalls) (status : Status) :
    Closes c calls status (c.closeInThread calls status : Handled ω μ) := by
  unfold closeInThread State.handleStopRequested
  by_cases hstate : c.state = .stopped
  · have hsame : { c with state := .stopped } = c := by rw [← hstate]
    simp only [hstate, bne_self_eq_false, Bool.not_false, if_true, hsame]
    exact .alreadyStopped hstate
  · have hrequired : (c.state != .stopped) = true := by simpa using hstate
    simp only [hrequired, Bool.not_true, Bool.false_eq_true, if_false]
    obtain ⟨cancel, shutdown, close⟩ := calls
    cases cancel with
    | some error => exact .failed hstate c.socket _ (.inl rfl) (.inl rfl) (by simp)
    | none =>
      cases shutdown with
      | some error => exact .failed hstate c.socket _ (.inl rfl) (.inl rfl) (by simp)
      | none =>
        cases close with
        | some error => exact .failed hstate .closed _ (.inr rfl) (.inl rfl) (by simp)
        | none =>
          obtain ⟨state, callbacks, socket, buffer, tasks, reads, writes⟩ := c
          cases callbacks with
          | false => exact .failed hstate .closed .badFunctionCall (.inr rfl) (.inr rfl) (by simp)
          | true => exact .closed hstate rfl rfl

/-- The handlers, one constructor for each way through them. -/
inductive Handles (p : MessageParser ω) (c : Connection μ) : Event → Handled ω μ → Prop where
  | readNext {i calls} (htask : c.tasks[i]? = some .asyncReadNext) :
      Handles p c (.task i calls)
        { connection := { c with tasks := c.tasks.eraseIdx i }.asyncReadNext }
  | send {i calls message} (htask : c.tasks[i]? = some (.asyncSendInThread message)) :
      Handles p c (.task i calls)
        { connection := { c with tasks := c.tasks.eraseIdx i }.asyncSendInThread message }
  | close {i calls status} (htask : c.tasks[i]? = some (.closeInThread status))
      (hcalls : calls.admissible c.socket = true) {closed : Handled ω μ}
      (hcloses : Closes { c with tasks := c.tasks.eraseIdx i } calls status closed) :
      Handles p c (.task i calls) closed
  | readAborted {i bytes calls started} (hread : c.reads[i]? = some started)
      (hadmits : started.admits c.socket (some .operationAborted) = true) :
      Handles p c (.read i (some .operationAborted) bytes calls)
        { connection := { c with reads := c.reads.eraseIdx i } }
  | readClosedByPeer {i error bytes calls started} (hread : c.reads[i]? = some started)
      (hadmits : started.admits c.socket (some error) = true)
      (hpeer : error.isClosedByPeer = true) :
      Handles p c (.read i (some error) bytes calls)
        { c with reads := c.reads.eraseIdx i }.closedByPeer
  | readFailed {i error bytes calls started} (hread : c.reads[i]? = some started)
      (hadmits : started.admits c.socket (some error) = true)
      (habort : error ≠ .operationAborted) (hpeer : error.isClosedByPeer = false) :
      Handles p c (.read i (some error) bytes calls)
        { connection := { c with reads := c.reads.eraseIdx i }
          thrown := some (.receiveError error) }
  | readInvalid {i bytes calls started status} (hread : c.reads[i]? = some started)
      (hadmits : started.admits c.socket none = true)
      (hcalls : calls.admissible c.socket = true)
      (hinvalid : (p.drain (c.buffer ++ bytes)).invalid = some status) {closed : Handled ω μ}
      (hcloses : Closes { c with reads := c.reads.eraseIdx i,
                                 buffer := (p.drain (c.buffer ++ bytes)).rest }
        calls status closed) :
      Handles p c (.read i none bytes calls)
        { closed with
          callbacks := (p.drain (c.buffer ++ bytes)).messages.map .onReceived ++ closed.callbacks }
  | readBytes {i bytes calls started} (reads : List SocketState)
      (hread : c.reads[i]? = some started)
      (hadmits : started.admits c.socket none = true)
      (hvalid : (p.drain (c.buffer ++ bytes)).invalid = none)
      (hreads : c.state = .processing ∧ reads = c.reads.eraseIdx i ++ [c.socket] ∨
        c.state ≠ .processing ∧ reads = c.reads.eraseIdx i) :
      Handles p c (.read i none bytes calls)
        { connection := { c with reads, buffer := (p.drain (c.buffer ++ bytes)).rest }
          callbacks := (p.drain (c.buffer ++ bytes)).messages.map .onReceived }
  | writeAborted {i message started} (hwrite : c.writes[i]? = some (message, started))
      (hadmits : started.admits c.socket (some .operationAborted) = true) :
      Handles p c (.write i (some .operationAborted))
        { connection := { c with writes := c.writes.eraseIdx i } }
  | writeClosedByPeer {i error message started} (hwrite : c.writes[i]? = some (message, started))
      (hadmits : started.admits c.socket (some error) = true)
      (hpeer : error.isClosedByPeer = true) :
      Handles p c (.write i (some error))
        { c with writes := c.writes.eraseIdx i }.closedByPeer
  | writeFailed {i error message started} (hwrite : c.writes[i]? = some (message, started))
      (hadmits : started.admits c.socket (some error) = true)
      (habort : error ≠ .operationAborted) (hpeer : error.isClosedByPeer = false) :
      Handles p c (.write i (some error))
        { connection := { c with writes := c.writes.eraseIdx i }
          thrown := some (.sendError error) }
  | written {i message started} (hwrite : c.writes[i]? = some (message, started))
      (hadmits : started.admits c.socket none = true) :
      Handles p c (.write i none)
        { connection := { c with writes := c.writes.eraseIdx i }, callbacks := [.onSent message] }

theorem handles_processReadBytes {p : MessageParser ω} {c : Connection μ} {i : Nat}
    {error : Option ErrorCode} {bytes : List UInt8} {calls : SocketCalls} {started : SocketState}
    (hread : c.reads[i]? = some started) (hadmits : started.admits c.socket error = true)
    (hcalls : calls.admissible c.socket = true) :
    Handles p c (.read i error bytes calls)
      ({ c with reads := c.reads.eraseIdx i }.processReadBytes p error bytes calls) := by
  unfold processReadBytes
  cases error with
  | some error =>
    by_cases habort : error = .operationAborted
    · subst habort
      exact .readAborted hread hadmits
    · cases hpeer : error.isClosedByPeer with
      | true =>
        cases error <;> simp only [ErrorCode.isClosedByPeer, Bool.false_eq_true] at hpeer
        all_goals exact .readClosedByPeer hread hadmits rfl
      | false =>
        cases error <;> simp only [ErrorCode.isClosedByPeer, Bool.true_eq_false] at hpeer
        · exact absurd rfl habort
        all_goals exact .readFailed hread hadmits habort rfl
  | none =>
    cases hinvalid : (p.drain (c.buffer ++ bytes)).invalid with
    | some status =>
      simp only [hinvalid]
      exact .readInvalid hread hadmits hcalls hinvalid (closeInThread_closes _ calls status)
    | none =>
      simp only [hinvalid]
      by_cases hstate : c.state = .processing
      · rw [if_pos (State.isProcessing_eq_true.mpr hstate)]
        exact .readBytes _ hread hadmits hinvalid (.inl ⟨hstate, rfl⟩)
      · rw [if_neg (by rwa [State.isProcessing_eq_true])]
        exact .readBytes _ hread hadmits hinvalid (.inr ⟨hstate, rfl⟩)

theorem handles_onSent {p : MessageParser ω} {c : Connection μ} {i : Nat}
    {error : Option ErrorCode} {message : μ} {started : SocketState}
    (hwrite : c.writes[i]? = some (message, started))
    (hadmits : started.admits c.socket error = true) :
    Handles p c (.write i error)
      ({ c with writes := c.writes.eraseIdx i }.onSent error message) := by
  unfold onSent
  cases error with
  | none => exact .written hwrite hadmits
  | some error =>
    by_cases habort : error = .operationAborted
    · subst habort
      exact .writeAborted hwrite hadmits
    · cases hpeer : error.isClosedByPeer with
      | true =>
        cases error <;> simp only [ErrorCode.isClosedByPeer, Bool.false_eq_true] at hpeer
        all_goals exact .writeClosedByPeer hwrite hadmits rfl
      | false =>
        cases error <;> simp only [ErrorCode.isClosedByPeer, Bool.true_eq_false] at hpeer
        · exact absurd rfl habort
        all_goals exact .writeFailed hwrite hadmits habort rfl

theorem handles_of_handle {p : MessageParser ω} {c : Connection μ} {e : Event} {r : Handled ω μ}
    (h : c.handle p e = some r) : Handles p c e r := by
  cases e with
  | task i calls =>
    simp only [handle] at h
    split at h
    · cases h
    · rename_i task htask
      cases task with
      | asyncReadNext =>
        cases h
        exact .readNext htask
      | asyncSendInThread message =>
        cases h
        exact .send htask
      | closeInThread status =>
        simp only [runTask, Option.ite_none_right_eq_some, Option.some.injEq] at h
        obtain ⟨hcalls, rfl⟩ := h
        exact .close htask hcalls (closeInThread_closes _ calls status)
  | read i error bytes calls =>
    simp only [handle] at h
    split at h
    · cases h
    · rename_i started hread
      simp only [Option.ite_none_right_eq_some, Option.some.injEq, Bool.and_eq_true] at h
      obtain ⟨⟨⟨hadmits, -⟩, hcalls⟩, rfl⟩ := h
      exact handles_processReadBytes hread hadmits hcalls
  | write i error =>
    simp only [handle] at h
    split at h
    · cases h
    · rename_i message started hwrite
      simp only [Option.ite_none_right_eq_some, Option.some.injEq] at h
      obtain ⟨hadmits, rfl⟩ := h
      exact handles_onSent hwrite hadmits

end Connection

end MsgpackRpc.Transport
