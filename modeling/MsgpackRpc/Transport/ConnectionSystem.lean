import MsgpackRpc.Lib.Machine
import MsgpackRpc.Transport.Connection

/-!
# Runs of one connection

Any threads call `start`, `async_send` and `async_close` while the context thread runs the tasks and
completion handlers in any order.  An exception that leaves a handler ends the context thread
(`GeneralExecutor::run_in_thread`), so no handler runs after it.
-/

namespace MsgpackRpc.Transport

/-- Where the call of `start` stands whose compare-exchange succeeded. -/
inductive StartPc where
  | callbacks
  | processingStarted
  | post
  deriving DecidableEq, Repr

/-- One connection with the calls on their way into it: `senders` are the messages of the
`async_send` calls between their `is_processing()` test and their post. -/
structure ConnectionSystem (ω μ : Type) where
  connection : Connection μ := {}
  starting : Option StartPc := none
  senders : List μ := []
  trace : List (Callback ω μ) := []
  thrown : Option Thrown := none

inductive ConnectionAction (μ : Type) where
  | start
  | startNext
  | asyncSend (message : μ)
  | postSend (i : Nat)
  | asyncClose
  | context (e : Connection.Event)
  deriving DecidableEq, Repr

/-- The event is a completion with an error that stands for a close by the peer. -/
def Connection.Event.isClosedByPeer : Connection.Event → Bool
  | .read _ (some error) _ _ | .write _ (some error) => error.isClosedByPeer
  | _ => false

/-- The event is the completion of a successful write. -/
def Connection.Event.isWritten : Connection.Event → Bool
  | .write _ none => true
  | _ => false

/-- The messages that the bytes of a successful read complete. -/
def Connection.Event.received {ω μ : Type} (p : MessageParser ω) (c : Connection μ) :
    Connection.Event → List ω
  | .read _ none bytes _ => (p.drain (c.buffer ++ bytes)).messages
  | _ => []

def Callback.isOnClosed {ω μ : Type} : Callback ω μ → Bool
  | .onClosed _ => true
  | _ => false

def Callback.sentMessage {ω μ : Type} : Callback ω μ → Option μ
  | .onSent message => some message
  | _ => none

def Task.isClose {μ : Type} : Task μ → Bool
  | .closeInThread _ => true
  | _ => false

namespace ConnectionSystem

variable {ω μ : Type}

def step (p : MessageParser ω) (s : ConnectionSystem ω μ) :
    ConnectionAction μ → Option (ConnectionSystem ω μ)
  | .start =>
      match s.connection.startRequested with
      | .ok connection => some { s with connection, starting := some .callbacks }
      -- the exception goes to the caller of `start`
      | .error _ => some s
  | .startNext =>
      match s.starting with
      | none => none
      | some .callbacks =>
          some { s with
            connection := s.connection.assignCallbacks
            starting := some .processingStarted }
      | some .processingStarted =>
          some { s with connection := s.connection.processingStarted, starting := some .post }
      | some .post =>
          some { s with connection := s.connection.post .asyncReadNext, starting := none }
  | .asyncSend message =>
      if s.connection.state.isProcessing then
        some { s with senders := s.senders ++ [message] }
      else
        some s
  | .postSend i =>
      match s.senders[i]? with
      | none => none
      | some message =>
          some { s with
            connection := s.connection.post (.asyncSendInThread message)
            senders := s.senders.eraseIdx i }
  | .asyncClose => some { s with connection := s.connection.post (.closeInThread {}) }
  | .context e =>
      match s.thrown with
      | some _ => none
      | none =>
          (s.connection.handle p e).map fun r =>
            { s with
              connection := r.connection
              trace := s.trace ++ r.callbacks
              thrown := r.thrown }

end ConnectionSystem

/-- A fresh connection, driven by a schedule. -/
def connectionMachine {ω : Type} (p : MessageParser ω) (μ : Type) :
    Machine (ConnectionSystem ω μ) (ConnectionAction μ) where
  init := {}
  step := ConnectionSystem.step p

namespace ConnectionSystem

variable {ω μ : Type}

theorem context_eq_some {p : MessageParser ω} {s s' : ConnectionSystem ω μ} {e : Connection.Event}
    (h : s.step p (.context e) = some s') :
    s.thrown = none ∧ ∃ r, Connection.Handles p s.connection e r ∧
      s' = { s with
        connection := r.connection
        trace := s.trace ++ r.callbacks
        thrown := r.thrown } := by
  simp only [step] at h
  split at h
  · cases h
  · rename_i hthrown
    obtain ⟨r, hr, rfl⟩ := Option.map_eq_some_iff.mp h
    exact ⟨hthrown, r, Connection.handles_of_handle hr, rfl⟩

/-- One constructor for each way through a step. -/
inductive Steps (p : MessageParser ω) (s : ConnectionSystem ω μ) :
    ConnectionAction μ → ConnectionSystem ω μ → Prop where
  | started (hinit : s.connection.state = .init) :
      Steps p s .start
        { s with
          connection := { s.connection with state := .starting }
          starting := some .callbacks }
  | startedAgain : Steps p s .start s
  | assigned (hstarting : s.starting = some .callbacks) :
      Steps p s .startNext
        { s with
          connection := s.connection.assignCallbacks
          starting := some .processingStarted }
  | processing (hstarting : s.starting = some .processingStarted) :
      Steps p s .startNext
        { s with connection := s.connection.processingStarted, starting := some .post }
  | reading (hstarting : s.starting = some .post) :
      Steps p s .startNext
        { s with connection := s.connection.post .asyncReadNext, starting := none }
  | sending {message} (hprocessing : s.connection.state = .processing) :
      Steps p s (.asyncSend message) { s with senders := s.senders ++ [message] }
  | sendDropped {message} : Steps p s (.asyncSend message) s
  | sendPosted {i message} (hmessage : s.senders[i]? = some message) :
      Steps p s (.postSend i)
        { s with
          connection := s.connection.post (.asyncSendInThread message)
          senders := s.senders.eraseIdx i }
  | closing : Steps p s .asyncClose { s with connection := s.connection.post (.closeInThread {}) }
  | context {e r} (hthrown : s.thrown = none) (hr : Connection.Handles p s.connection e r) :
      Steps p s (.context e)
        { s with
          connection := r.connection
          trace := s.trace ++ r.callbacks
          thrown := r.thrown }

theorem steps_of_step {p : MessageParser ω} {s s' : ConnectionSystem ω μ}
    {a : ConnectionAction μ} (h : s.step p a = some s') : Steps p s a s' := by
  cases a with
  | start =>
    simp only [step] at h
    split at h <;> cases h
    · rename_i connection hstart
      obtain ⟨hinit, rfl⟩ := Connection.startRequested_eq_ok hstart
      exact .started hinit
    · exact .startedAgain
  | startNext =>
    simp only [step] at h
    split at h <;> cases h
    · exact .assigned ‹_›
    · exact .processing ‹_›
    · exact .reading ‹_›
  | asyncSend message =>
    simp only [step] at h
    split at h <;> cases h
    · rename_i hprocessing
      exact .sending (State.isProcessing_eq_true.mp hprocessing)
    · exact .sendDropped
  | postSend i =>
    simp only [step] at h
    split at h <;> cases h
    exact .sendPosted ‹_›
  | asyncClose =>
    cases h
    exact .closing
  | context e =>
    obtain ⟨hthrown, r, hr, rfl⟩ := context_eq_some h
    exact .context hthrown hr

/-- Only the context thread invokes callbacks. -/
theorem trace_eq_of_step {p : MessageParser ω} {s s' : ConnectionSystem ω μ}
    {a : ConnectionAction μ} (h : s.step p a = some s') (ha : ∀ e, a ≠ .context e) :
    s'.trace = s.trace := by
  cases steps_of_step h with
  | context => exact absurd rfl (ha _)
  | _ => rfl

theorem trace_prefix_of_step {p : MessageParser ω} {s s' : ConnectionSystem ω μ}
    {a : ConnectionAction μ} (h : s.step p a = some s') : s.trace <+: s'.trace := by
  cases a with
  | context e =>
    obtain ⟨-, r, -, rfl⟩ := context_eq_some h
    exact List.prefix_append _ _
  | _ => exact (trace_eq_of_step h (by intro e; nofun)) ▸ List.prefix_rfl

/-! ## What holds in every run -/

/-- `on_closed_` has been invoked. -/
def Told (s : ConnectionSystem ω μ) : Prop := ∃ cb ∈ s.trace, cb.isOnClosed = true

/-- `start` has not been called, or has not stored `PROCESSING` yet. -/
def early (s : ConnectionSystem ω μ) : Bool :=
  match s.starting with
  | some .callbacks | some .processingStarted => true
  | some .post => false
  | none => s.connection.state == .init

/-- Only the store of `PROCESSING` and the end of `INIT` end the early phase. -/
theorem early_mono {s s' : ConnectionSystem ω μ} (hstarting : s'.starting = s.starting)
    (hstate : s'.connection.state = s.connection.state ∨ s'.connection.state = .stopped)
    (h : s'.early = true) : s.early = true := by
  unfold early at h ⊢
  rw [hstarting] at h
  split
  · rfl
  · rfl
  · rename_i hpost
    rw [hpost] at h
    cases h
  · rename_i hnone
    simp only [hnone, beq_iff_eq] at h ⊢
    rcases hstate with hstate | hstate <;> rw [hstate] at h
    · exact h
    · cases h

end ConnectionSystem

namespace Connection

variable {ω μ : Type}

theorem forall_post {P : Task μ → Prop} {c : Connection μ} {task : Task μ}
    (h : ∀ t ∈ c.tasks, P t) (htask : P task) : ∀ t ∈ (c.post task).tasks, P t := by
  intro t hmem
  rcases List.mem_append.mp hmem with hmem | hmem
  · exact h t hmem
  · rw [List.mem_singleton.mp hmem]
    exact htask

/-- Nothing has been started on the socket and only closes are queued. -/
structure Idle (c : Connection μ) : Prop where
  reads : c.reads = []
  writes : c.writes = []
  tasks : ∀ task ∈ c.tasks, task.isClose = true

/-- The socket is closed and every outstanding operation was started after that. -/
structure Dead (c : Connection μ) : Prop where
  socket : c.socket = .closed
  reads : ∀ started ∈ c.reads, started = .closed
  writes : ∀ write ∈ c.writes, write.2 = .closed

theorem Handles.state_eq {p : MessageParser ω} {c : Connection μ} {e : Event} {r : Handled ω μ}
    (h : Handles p c e r) : r.connection.state = c.state ∨ r.connection.state = .stopped := by
  cases h with
  | close _ _ hcloses => exact .inr hcloses.state_eq
  | readInvalid _ _ _ _ hcloses => exact .inr hcloses.state_eq
  | readClosedByPeer => exact .inr rfl
  | writeClosedByPeer => exact .inr rfl
  | _ => exact .inl rfl

/-- On a dead connection the only results are `bad_descriptor` ones: no callback is invoked. -/
theorem Handles.dead {p : MessageParser ω} {c : Connection μ} {e : Event} {r : Handled ω μ}
    (h : Handles p c e r) (hc : c.Dead) :
    r.connection.Dead ∧ r.callbacks = [] ∧ e.isClosedByPeer = false := by
  have hread {i : Nat} {started : SocketState} {error : Option ErrorCode}
      (hstarted : c.reads[i]? = some started) (hadmits : started.admits c.socket error = true) :
      error = some .badDescriptor := by
    rw [hc.reads started (List.mem_of_getElem? hstarted)] at hadmits
    exact SocketState.admits_closed.mp hadmits
  have hwrite {i : Nat} {message : μ} {started : SocketState} {error : Option ErrorCode}
      (hstarted : c.writes[i]? = some (message, started))
      (hadmits : started.admits c.socket error = true) : error = some .badDescriptor := by
    rw [show started = .closed from hc.writes _ (List.mem_of_getElem? hstarted)] at hadmits
    exact SocketState.admits_closed.mp hadmits
  cases h with
  | readNext htask =>
    refine ⟨⟨hc.socket, fun started hmem => ?_, hc.writes⟩, rfl, rfl⟩
    rcases List.mem_append.mp hmem with hmem | hmem
    · exact hc.reads started hmem
    · rw [List.mem_singleton.mp hmem]
      exact hc.socket
  | send htask =>
    refine ⟨⟨hc.socket, hc.reads, fun write hmem => ?_⟩, rfl, rfl⟩
    rcases List.mem_append.mp hmem with hmem | hmem
    · exact hc.writes write hmem
    · rw [List.mem_singleton.mp hmem]
      exact hc.socket
  | close htask hcalls hcloses =>
    cases hcloses with
    | alreadyStopped => exact ⟨⟨hc.socket, hc.reads, hc.writes⟩, rfl, rfl⟩
    | failed hstate socket thrown hsocket =>
      refine ⟨⟨?_, hc.reads, hc.writes⟩, rfl, rfl⟩
      rcases hsocket with rfl | rfl
      · exact hc.socket
      · rfl
    | closed hstate hsucceed =>
      have hopened := SocketCalls.opened_of_succeed hsucceed hcalls
      rw [hc.socket] at hopened
      cases hopened
  | readAborted hstarted hadmits => cases hread hstarted hadmits
  | readClosedByPeer hstarted hadmits hpeer =>
    cases hread hstarted hadmits
    cases hpeer
  | readFailed hstarted hadmits =>
    cases hread hstarted hadmits
    exact ⟨⟨hc.socket, fun x hx => hc.reads x (List.mem_of_mem_eraseIdx hx), hc.writes⟩, rfl, rfl⟩
  | readInvalid hstarted hadmits => cases hread hstarted hadmits
  | readBytes reads hstarted hadmits => cases hread hstarted hadmits
  | writeAborted hstarted hadmits => cases hwrite hstarted hadmits
  | writeClosedByPeer hstarted hadmits hpeer =>
    cases hwrite hstarted hadmits
    cases hpeer
  | writeFailed hstarted hadmits =>
    cases hwrite hstarted hadmits
    exact ⟨⟨hc.socket, hc.reads, fun x hx => hc.writes x (List.mem_of_mem_eraseIdx hx)⟩, rfl, rfl⟩
  | written hstarted hadmits => cases hwrite hstarted hadmits

/-- An idle connection can only be closed, and it is dead once it has told so. -/
theorem Handles.idle {p : MessageParser ω} {c : Connection μ} {e : Event} {r : Handled ω μ}
    (h : Handles p c e r) (hc : c.Idle) :
    r.connection.Idle ∧ (r.callbacks ≠ [] → r.connection.Dead) := by
  have htasks {i : Nat} {task : Task μ} (htask : c.tasks[i]? = some task) :
      task.isClose = true := hc.tasks task (List.mem_of_getElem? htask)
  have hread {i : Nat} {started : SocketState} : ¬ c.reads[i]? = some started := by
    simp [hc.reads]
  have hwrite {i : Nat} {write : μ × SocketState} : ¬ c.writes[i]? = some write := by
    simp [hc.writes]
  cases h with
  | readNext htask => cases htasks htask
  | send htask => cases htasks htask
  | @close i _ _ htask hcalls _ hcloses =>
    have hrest : ∀ task ∈ c.tasks.eraseIdx i, task.isClose = true :=
      fun task hmem => hc.tasks task (List.mem_of_mem_eraseIdx hmem)
    cases hcloses with
    | alreadyStopped => exact ⟨⟨hc.reads, hc.writes, hrest⟩, fun hne => absurd rfl hne⟩
    | failed => exact ⟨⟨hc.reads, hc.writes, hrest⟩, fun hne => absurd rfl hne⟩
    | closed =>
      refine ⟨⟨hc.reads, hc.writes, hrest⟩, fun _ => ⟨rfl, ?_, ?_⟩⟩
      · simp [hc.reads]
      · simp [hc.writes]
  | readAborted hstarted => exact absurd hstarted hread
  | readClosedByPeer hstarted => exact absurd hstarted hread
  | readFailed hstarted => exact absurd hstarted hread
  | readInvalid hstarted => exact absurd hstarted hread
  | readBytes reads hstarted => exact absurd hstarted hread
  | writeAborted hstarted => exact absurd hstarted hwrite
  | writeClosedByPeer hstarted => exact absurd hstarted hwrite
  | writeFailed hstarted => exact absurd hstarted hwrite
  | written hstarted => exact absurd hstarted hwrite

/-- The callbacks of one handler: the received messages, and after them at most one of
`on_closed_` and `on_sent_`. -/
inductive Tells (p : MessageParser ω) (c : Connection μ) (e : Event) (r : Handled ω μ) : Prop where
  | silent (hpeer : e.isClosedByPeer = false) (hwritten : e.isWritten = false)
      (hcallbacks : r.callbacks = (e.received p c).map .onReceived)
  | closed (status : Status) (hcause : e.isClosedByPeer = true ∨ c.state ≠ .stopped)
      (hwritten : e.isWritten = false) (hstate : r.connection.state = .stopped)
      (hcallbacks : r.callbacks = (e.received p c).map .onReceived ++ [.onClosed status])
  | sent (message : μ) (hwritten : e.isWritten = true)
      (hcallbacks : r.callbacks = [.onSent message])

theorem Handles.tells {p : MessageParser ω} {c : Connection μ} {e : Event} {r : Handled ω μ}
    (h : Handles p c e r) : Tells p c e r := by
  cases h with
  | close _ _ hcloses =>
    cases hcloses with
    | closed hstate => exact .closed _ (.inr hstate) rfl rfl rfl
    | _ => exact .silent rfl rfl rfl
  | readClosedByPeer _ _ hpeer => exact .closed _ (.inl hpeer) rfl rfl rfl
  | readFailed _ _ _ hpeer => exact .silent hpeer rfl rfl
  | readInvalid _ _ _ _ hcloses =>
    cases hcloses with
    | closed hstate => exact .closed _ (.inr hstate) rfl rfl rfl
    | _ => exact .silent rfl rfl (List.append_nil _)
  | writeClosedByPeer _ _ hpeer => exact .closed _ (.inl hpeer) rfl rfl rfl
  | writeFailed _ _ _ hpeer => exact .silent hpeer rfl rfl
  | written => exact .sent _ rfl rfl
  | _ => exact .silent rfl rfl rfl

theorem isOnClosed_of_mem_received {messages : List ω} {cb : Callback ω μ}
    (h : cb ∈ messages.map Callback.onReceived) : cb.isOnClosed = false := by
  obtain ⟨m, -, rfl⟩ := List.mem_map.mp h
  rfl

theorem filterMap_received {α : Type} (f : Callback ω μ → Option α)
    (hf : ∀ m, f (.onReceived m) = none) (messages : List ω) :
    (messages.map Callback.onReceived).filterMap f = [] := by
  rw [List.filterMap_eq_nil_iff]
  intro cb hcb
  obtain ⟨m, -, rfl⟩ := List.mem_map.mp hcb
  exact hf m

/-- Whoever invokes `on_closed_` leaves the state `STOPPED`. -/
theorem Handles.stopped_of_onClosed {p : MessageParser ω} {c : Connection μ} {e : Event}
    {r : Handled ω μ} (h : Handles p c e r) {cb : Callback ω μ} (hcb : cb ∈ r.callbacks)
    (hclosed : cb.isOnClosed = true) : r.connection.state = .stopped := by
  cases h.tells with
  | silent _ _ hcallbacks =>
    rw [hcallbacks] at hcb
    rw [isOnClosed_of_mem_received hcb] at hclosed
    cases hclosed
  | closed _ _ _ hstate => exact hstate
  | sent message _ hcallbacks =>
    rw [hcallbacks] at hcb
    rw [List.mem_singleton.mp hcb] at hclosed
    cases hclosed

/-- A handler that reaches `STOPPED` and returns has told the owner. -/
theorem Handles.onClosed_of_stopped {p : MessageParser ω} {c : Connection μ} {e : Event}
    {r : Handled ω μ} (h : Handles p c e r) (hthrown : r.thrown = none)
    (hstate : r.connection.state = .stopped) :
    c.state = .stopped ∨ ∃ cb ∈ r.callbacks, cb.isOnClosed = true := by
  cases h with
  | close _ _ hcloses =>
    cases hcloses with
    | alreadyStopped hstopped => exact .inl hstopped
    | failed => cases hthrown
    | closed => exact .inr ⟨_, List.mem_singleton_self _, rfl⟩
  | readClosedByPeer => exact .inr ⟨_, List.mem_singleton_self _, rfl⟩
  | readInvalid _ _ _ _ hcloses =>
    cases hcloses with
    | alreadyStopped hstopped => exact .inl hstopped
    | failed => cases hthrown
    | closed => exact .inr ⟨_, List.mem_append_right _ (List.mem_singleton_self _), rfl⟩
  | writeClosedByPeer => exact .inr ⟨_, List.mem_singleton_self _, rfl⟩
  | _ => exact .inl hstate

end Connection

namespace ConnectionSystem

variable {ω μ : Type}

/-- What every run of a connection keeps. -/
structure Wf (s : ConnectionSystem ω μ) : Prop where
  starting : s.starting ≠ none → s.connection.state ≠ .init
  early : s.early = true →
    s.connection.state ≠ .processing ∧ s.connection.Idle ∧ s.senders = []
  told : s.Told → (s.connection.state = .stopped ∧ s.early = false) ∨ s.connection.Dead
  stopped : s.thrown = none → s.connection.state = .stopped → s.Told

/-- Nothing is read or written before `start` has published `PROCESSING`. -/
theorem Wf.late_of_read {s : ConnectionSystem ω μ} (h : s.Wf) {i : Nat} {started : SocketState}
    (hread : s.connection.reads[i]? = some started) : s.early = false := by
  rw [← Bool.not_eq_true]
  intro hearly
  rw [(h.early hearly).2.1.reads] at hread
  cases hread

theorem Wf.late_of_write {s : ConnectionSystem ω μ} (h : s.Wf) {i : Nat} {write : μ × SocketState}
    (hwrite : s.connection.writes[i]? = some write) : s.early = false := by
  rw [← Bool.not_eq_true]
  intro hearly
  rw [(h.early hearly).2.1.writes] at hwrite
  cases hwrite

theorem wf_init : Wf ({} : ConnectionSystem ω μ) where
  starting hne := absurd rfl hne
  early _ := ⟨nofun, ⟨rfl, rfl, nofun⟩, rfl⟩
  told := by
    rintro ⟨cb, hmem, -⟩
    cases hmem
  stopped _ hstate := by cases hstate

theorem Told.append {s s' : ConnectionSystem ω μ} {callbacks : List (Callback ω μ)}
    (htrace : s'.trace = s.trace ++ callbacks) :
    s'.Told ↔ s.Told ∨ ∃ cb ∈ callbacks, cb.isOnClosed = true := by
  simp only [Told, htrace, List.mem_append, or_and_right, exists_or]

theorem wf_context {p : MessageParser ω} {s : ConnectionSystem ω μ} {e : Connection.Event}
    {r : Handled ω μ} (h : s.Wf) (hthrown : s.thrown = none)
    (hr : Connection.Handles p s.connection e r) :
    Wf { s with
      connection := r.connection
      trace := s.trace ++ r.callbacks
      thrown := r.thrown } := by
  have hearly : ∀ {trace : List (Callback ω μ)} {thrown : Option Thrown},
      early { s with connection := r.connection, trace, thrown } = true → s.early = true :=
    early_mono rfl hr.state_eq
  refine ⟨fun hne => ?_, fun he => ?_, fun htold => ?_, fun ht hstate => ?_⟩
  · rcases hr.state_eq with hsame | hstopped
    · exact hsame ▸ h.starting hne
    · exact hstopped ▸ nofun
  · obtain ⟨hstate, hidle, hsenders⟩ := h.early (hearly he)
    refine ⟨?_, (hr.idle hidle).1, hsenders⟩
    rcases hr.state_eq with hsame | hstopped
    · exact hsame ▸ hstate
    · exact hstopped ▸ nofun
  · by_cases he : s.early = true
    · -- nothing has been started: whoever told has closed the socket
      obtain ⟨-, hidle, -⟩ := h.early he
      rcases (Told.append rfl).mp htold with hbefore | ⟨cb, hcb, -⟩
      · rcases h.told hbefore with ⟨-, hnot⟩ | hdead
        · rw [he] at hnot
          cases hnot
        · exact .inr (hr.dead hdead).1
      · exact .inr ((hr.idle hidle).2 (List.ne_nil_of_mem hcb))
    · have hlate : early { s with
          connection := r.connection
          trace := s.trace ++ r.callbacks
          thrown := r.thrown } = false := by
        rw [← Bool.not_eq_true]
        exact fun he' => he (hearly he')
      rcases (Told.append rfl).mp htold with hbefore | ⟨cb, hcb, hclosed⟩
      · rcases h.told hbefore with ⟨hstopped, -⟩ | hdead
        · refine .inl ⟨?_, hlate⟩
          rcases hr.state_eq with hsame | hstopped'
          · exact hsame.trans hstopped
          · exact hstopped'
        · exact .inr (hr.dead hdead).1
      · exact .inl ⟨hr.stopped_of_onClosed hcb hclosed, hlate⟩
  · rw [Told.append rfl]
    rcases hr.onClosed_of_stopped ht hstate with hbefore | hnow
    · exact .inl (h.stopped hthrown hbefore)
    · exact .inr hnow

theorem wf_step {p : MessageParser ω} {s s' : ConnectionSystem ω μ} {a : ConnectionAction μ}
    (h : s.Wf) (hstep : s.step p a = some s') : s'.Wf := by
  have hdead {c : Connection μ} (hsocket : c.socket = s.connection.socket)
      (hreads : c.reads = s.connection.reads) (hwrites : c.writes = s.connection.writes)
      (hdead : s.connection.Dead) : c.Dead :=
    ⟨hsocket ▸ hdead.socket, hreads ▸ hdead.reads, hwrites ▸ hdead.writes⟩
  cases steps_of_step hstep with
  | started hinit =>
    have hnone : s.starting = none :=
      Classical.byContradiction fun hne => h.starting hne hinit
    have hwas : s.early = true := by simp only [early, hnone, hinit, beq_self_eq_true]
    obtain ⟨-, hidle, hsenders⟩ := h.early hwas
    refine ⟨fun _ => nofun, fun _ => ⟨nofun, ⟨hidle.reads, hidle.writes, hidle.tasks⟩, hsenders⟩,
      fun htold => ?_, fun _ hstate => by cases hstate⟩
    rcases h.told htold with ⟨hstopped, -⟩ | hold
    · rw [hinit] at hstopped
      cases hstopped
    · exact .inr (hdead rfl rfl rfl hold)
  | startedAgain => exact h
  | assigned hstarting =>
    have hwas : s.early = true := by simp only [early, hstarting]
    obtain ⟨hstate, hidle, hsenders⟩ := h.early hwas
    refine ⟨fun _ => h.starting (by rw [hstarting]; nofun),
      fun _ => ⟨hstate, ⟨hidle.reads, hidle.writes, hidle.tasks⟩, hsenders⟩,
      fun htold => ?_, h.stopped⟩
    rcases h.told htold with ⟨-, hnot⟩ | hold
    · rw [hwas] at hnot
      cases hnot
    · exact .inr (hdead rfl rfl rfl hold)
  | processing hstarting =>
    -- the store overwrites whatever close has happened meanwhile
    have hwas : s.early = true := by simp only [early, hstarting]
    refine ⟨fun _ => nofun, fun hnow => (by cases hnow), fun htold => ?_,
      fun _ hstate => by cases hstate⟩
    rcases h.told htold with ⟨-, hnot⟩ | hold
    · rw [hwas] at hnot
      cases hnot
    · exact .inr (hdead rfl rfl rfl hold)
  | reading hstarting =>
    have hinit : s.connection.state ≠ .init := h.starting (by rw [hstarting]; nofun)
    have hlate : early { s with
        connection := s.connection.post .asyncReadNext, starting := none } = false := by
      simpa only [early, Connection.post, beq_eq_false_iff_ne] using hinit
    refine ⟨fun hne => absurd rfl hne, fun hnow => ?_, fun htold => ?_, h.stopped⟩
    · rw [hlate] at hnow
      cases hnow
    · rcases h.told htold with ⟨hstopped, -⟩ | hold
      · exact .inl ⟨hstopped, hlate⟩
      · exact .inr (hdead rfl rfl rfl hold)
  | sending hprocessing =>
    exact ⟨h.starting, fun hnow => absurd hprocessing (h.early hnow).1, h.told, h.stopped⟩
  | sendDropped => exact h
  | sendPosted hmessage =>
    refine ⟨h.starting, fun hnow => ?_, fun htold => ?_, h.stopped⟩
    · rw [(h.early hnow).2.2] at hmessage
      cases hmessage
    · exact (h.told htold).imp_right (hdead rfl rfl rfl)
  | closing =>
    refine ⟨h.starting, fun hnow => ?_, fun htold => ?_, h.stopped⟩
    · obtain ⟨hstate, hidle, hsenders⟩ := h.early hnow
      exact ⟨hstate, ⟨hidle.reads, hidle.writes, Connection.forall_post hidle.tasks rfl⟩, hsenders⟩
    · exact (h.told htold).imp_right (hdead rfl rfl rfl)
  | context hthrown hr => exact wf_context h hthrown hr

end ConnectionSystem

end MsgpackRpc.Transport
