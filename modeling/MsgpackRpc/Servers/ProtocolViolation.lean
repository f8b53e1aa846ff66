import MsgpackRpc.Messages.Unpacker
import MsgpackRpc.Servers.ResponseOrder
import MsgpackRpc.Transport.ConnectionReading

/-!
# Responses that a server receives

A server takes a response for a violation of the protocol and asks the connection to close.  The
close is only posted, so what the same read completes, and what a read completes that is handled
before the task, is still handed to the callback contexts.
-/

namespace MsgpackRpc.Servers

open MsgpackRpc.Transport
open MsgpackRpc.Messages (ParsedMessage MsgpackLibrary Unpacker messageParser formatParser)

variable {μ : Type}

def ServerAction.readBytes : ServerAction μ → List UInt8
  | .context e => e.readBytes
  | _ => []

/-- The bytes that a schedule reads. -/
def bytesRead (schedule : List (ServerAction μ)) : List UInt8 :=
  schedule.flatMap ServerAction.readBytes

/-- The invocations of the messages before the first response. -/
def invocationsBefore (messages : List ParsedMessage) : List Invocation :=
  (messages.takeWhile fun m => !isResponse m).filterMap Invocation.ofMessage

/-- No request and no notification follows a response. -/
def nothingFollows (messages : List ParsedMessage) : Bool :=
  (messages.dropWhile fun m => !isResponse m).all isResponse

/-- A response ends the session: what has gone to the processor stands before the first response of
the bytes that have been read, and it is all of that once every invocation has begun. -/
def EndsSession (p : MessageParser ParsedMessage) (schedule : List (ServerAction μ))
    (s : ServerConnection μ) : Prop :=
  ∃ messages rest, p.Longest (bytesRead schedule) messages rest ∧
    s.dispatched.Subperm (invocationsBefore messages) ∧
    (s.invoked = [] → s.dispatched.Perm (invocationsBefore messages))

/-- The messages that a handler completes. -/
def completed (p : MessageParser ParsedMessage) (s : ServerConnection μ) :
    ServerAction μ → List ParsedMessage
  | .context e => e.received p s.connection
  | _ => []

/-- The handler completes no request and no notification after a response, whether this response
came in the same read or in an earlier one. -/
def readsNothingAfter (p : MessageParser ParsedMessage) (s : ServerConnection μ)
    (a : ServerAction μ) : Bool :=
  (completed p s a).isEmpty || nothingFollows (s.received ++ completed p s a)

/-! ## Messages before and after a response -/

theorem ofMessage_eq_none_iff {m : ParsedMessage} :
    Invocation.ofMessage m = none ↔ isResponse m = true := by
  cases m <;> simp [Invocation.ofMessage, isResponse]

/-- The invocations of a stream split at its first response. -/
theorem filterMap_ofMessage_eq (messages : List ParsedMessage) :
    messages.filterMap Invocation.ofMessage = invocationsBefore messages ++
      (messages.dropWhile fun m => !isResponse m).filterMap Invocation.ofMessage := by
  rw [invocationsBefore, ← List.filterMap_append, List.takeWhile_append_dropWhile]

theorem nothingFollows_iff {messages : List ParsedMessage} :
    nothingFollows messages = true ↔
      (messages.dropWhile fun m => !isResponse m).filterMap Invocation.ofMessage = [] := by
  rw [nothingFollows, List.all_eq_true, List.filterMap_eq_nil_iff]
  simp only [ofMessage_eq_none_iff]

theorem nothingFollows_of_append {messages more : List ParsedMessage}
    (h : nothingFollows (messages ++ more) = true) : nothingFollows messages = true := by
  unfold nothingFollows at h ⊢
  rw [List.dropWhile_append] at h
  split at h
  · rename_i hempty
    rw [List.isEmpty_iff.mp hempty]
    rfl
  · rw [List.all_append, Bool.and_eq_true] at h
    exact h.1

/-! ## What a run executes -/

namespace ServerConnection

/-- What every run keeps of the stream, given the actions that have led to `s`. -/
structure Receives (p : MessageParser ParsedMessage) (s : ServerConnection μ)
    (past : List (ServerAction μ)) : Prop where
  accounts : s.Accounts
  reads : Connection.Reads p s.connection s.received (bytesRead past)

theorem receives_init {p : MessageParser ParsedMessage} (hp : p.Incremental) :
    Receives p ({} : ServerConnection μ) [] where
  accounts := accounts_init
  reads := Connection.reads_nil hp rfl (Nat.le_refl 1)

theorem pendingReads_closesFor (c : Connection μ) (messages : List ParsedMessage) :
    { c with tasks := c.tasks ++ closesFor messages }.pendingReads = c.pendingReads := by
  have hnone : (closesFor messages : List (Transport.Task μ)).countP Task.isReadNext = 0 := by
    rw [List.countP_eq_zero]
    intro task hmem
    rw [eq_of_mem_closesFor hmem]
    exact Bool.false_ne_true
  simp only [Connection.pendingReads, List.countP_append, hnone, Nat.add_zero]

theorem Advances.reads {p : MessageParser ParsedMessage} {s t : ServerConnection μ} {pc pc' : Pc μ}
    {bytes : List UInt8} (h : Advances s pc t pc')
    (hreads : Connection.Reads p s.connection s.received bytes) :
    Connection.Reads p t.connection t.received bytes := by
  cases h with
  | posted => exact hreads.unread rfl (Nat.le_of_eq (Connection.pendingReads_post _ _))
  | _ => exact hreads

theorem receives_step {p : MessageParser ParsedMessage} (hp : p.Incremental)
    {s s' : ServerConnection μ} {past : List (ServerAction μ)} {a : ServerAction μ}
    (h : Receives p s past) (hsteps : Steps p s a s') : Receives p s' (past ++ [a]) := by
  refine ⟨accounts_step h.accounts hsteps, ?_⟩
  have hbytes : bytesRead (past ++ [a]) = bytesRead past ++ a.readBytes := by
    rw [bytesRead, List.flatMap_append, List.flatMap_singleton]
    rfl
  have hunread (hnone : a.readBytes = [])
      (hreads : Connection.Reads p s'.connection s'.received (bytesRead past)) :
      Connection.Reads p s'.connection s'.received (bytesRead (past ++ [a])) := by
    rw [hbytes, hnone, List.append_nil]
    exact hreads
  cases hsteps with
  | asyncClose =>
    exact hunread rfl
      (h.reads.unread rfl (Nat.le_of_eq (Connection.pendingReads_post _ _)))
  | dispatch => exact hunread rfl h.reads
  | answer => exact hunread rfl h.reads
  | processed hr interrupted hpc ha =>
    rcases ha with rfl | ⟨returned, rfl⟩ <;> exact hunread rfl h.reads
  | routine hr hadvances => exact hunread rfl (hadvances.reads h.reads)
  | context hr hdelivers =>
    -- the tasks that close the connection read nothing
    have hreads := h.reads.handles hp hr
    rw [hbytes]
    cases hdelivers with
    | silent => exact hreads.unread rfl (Nat.le_of_eq (pendingReads_closesFor _ _))
    | sent _ hreceived =>
      rw [hreceived, List.append_nil] at hreads
      exact hreads

theorem received_eq_of_steps {p : MessageParser ParsedMessage} {s s' : ServerConnection μ}
    {a : ServerAction μ} (h : Steps p s a s') : s'.received = s.received ++ completed p s a := by
  cases h with
  | context hr hdelivers =>
    cases hdelivers with
    | silent => rfl
    | sent _ hreceived =>
      show s.received = s.received ++ _
      rw [completed, hreceived, List.append_nil]
  | routine hr hadvances =>
    have hsame := hadvances.accounts.2.2.2.1
    exact hsame.trans (List.append_nil _).symm
  | processed hr interrupted hpc ha =>
    rcases ha with rfl | ⟨returned, rfl⟩ <;> exact (List.append_nil _).symm
  | _ => exact (List.append_nil _).symm

end ServerConnection

/-- Nothing follows a response in what has been received exactly when no handler of the run has
completed such a message. -/
theorem nothingFollows_received_iff (p : MessageParser ParsedMessage)
    (schedule : List (ServerAction μ)) (s : ServerConnection μ)
    (hrun : (serverMachine p μ).run {} schedule = some s) :
    nothingFollows s.received = true ↔
      (serverMachine p μ).Meets (fun s a _ => readsNothingAfter p s a = true) {} schedule := by
  have hstep : ∀ s a s', (serverMachine p μ).step s a = some s' →
      s'.received = s.received ++ completed p s a := fun s a s' hstep =>
    ServerConnection.received_eq_of_steps (ServerConnection.steps_of_step hstep)
  have hback : ∀ s a s', (serverMachine p μ).step s a = some s' →
      nothingFollows s'.received = true → nothingFollows s.received = true := by
    intro s a s' h hfinal
    rw [hstep s a s' h] at hfinal
    exact nothingFollows_of_append hfinal
  have hiff : ∀ s a s', True → nothingFollows s.received = true →
      (serverMachine p μ).step s a = some s' →
      (nothingFollows s'.received = true ↔ readsNothingAfter p s a = true) := by
    intro s a s' _ hbefore h
    rw [hstep s a s' h, readsNothingAfter, Bool.or_eq_true, List.isEmpty_iff]
    constructor
    · exact .inr
    · rintro (hnone | hfinal)
      · rw [hnone, List.append_nil]
        exact hbefore
      · exact hfinal
  exact Machine.holds_after_iff hback (fun _ _ _ _ _ => trivial) hiff trivial rfl hrun

theorem receives_of_run {p : MessageParser ParsedMessage} (hp : p.Incremental)
    (schedule : List (ServerAction μ)) (s : ServerConnection μ)
    (hrun : (serverMachine p μ).run {} schedule = some s) :
    ServerConnection.Receives p s schedule := by
  have hkeep : ∀ s a s' past, ServerConnection.Receives p s past → True →
      (serverMachine p μ).step s a = some s' → ServerConnection.Receives p s' (past ++ [a]) := by
    intro s a s' past h _ hstep
    exact ServerConnection.receives_step hp h (ServerConnection.steps_of_step hstep)
  exact Machine.run_history hkeep (ServerConnection.receives_init hp) (fun _ _ => trivial) hrun

/-- What has gone to the processor stands before the first response exactly as far as nothing that
has been received follows one. -/
theorem endsSession_of_receives {p : MessageParser ParsedMessage} (hp : p.Incremental)
    {schedule : List (ServerAction μ)} {s : ServerConnection μ}
    (h : ServerConnection.Receives p s schedule) :
    (nothingFollows s.received = true → EndsSession p schedule s) ∧
      (s.invoked = [] → EndsSession p schedule s → nothingFollows s.received = true) := by
  have hlongest :
      p.Longest (bytesRead schedule) s.received (p.drain (bytesRead schedule)).rest := by
    rw [h.reads.received]
    exact MessageParser.drain_longest hp (bytesRead schedule)
  -- all that has been received is dispatched or waits: split it at the first response
  have hperm := h.accounts.dispatched
  rw [filterMap_ofMessage_eq] at hperm
  constructor
  · intro hnothing
    rw [nothingFollows_iff.mp hnothing, List.append_nil] at hperm
    refine ⟨s.received, _, hlongest, ?_, fun hinvoked => ?_⟩
    · exact (List.sublist_append_left _ _).subperm.trans hperm.subperm
    · rw [hinvoked, List.append_nil] at hperm
      exact hperm
  · rintro hinvoked ⟨messages, rest, hlongest', hsubperm, -⟩
    obtain ⟨rfl, -⟩ := hlongest.unique hlongest'
    rw [nothingFollows_iff]
    -- as many have gone to the processor as stand before the first response
    have hlength := hperm.length_eq
    have hle := hsubperm.length_le
    rw [hinvoked, List.append_nil, List.length_append] at hlength
    exact List.eq_nil_of_length_eq_zero (by omega)

/-- A response ends the session in every run whose handlers complete nothing after a response, and
in no other run in which every invocation has begun. -/
theorem endsSession_iff (u : Unpacker) (hu : u.Incremental) (lib : MsgpackLibrary)
    (readBufferSize : Nat) (schedule : List (ServerAction μ)) (s : ServerConnection μ)
    (hrun : (serverMachine (messageParser u hu lib readBufferSize) μ).run {} schedule = some s) :
    ((serverMachine (messageParser u hu lib readBufferSize) μ).Meets
        (fun s a _ => readsNothingAfter (messageParser u hu lib readBufferSize) s a = true) {}
        schedule →
      EndsSession (messageParser u hu lib readBufferSize) schedule s) ∧
    (s.invoked = [] → EndsSession (messageParser u hu lib readBufferSize) schedule s →
      (serverMachine (messageParser u hu lib readBufferSize) μ).Meets
        (fun s a _ => readsNothingAfter (messageParser u hu lib readBufferSize) s a = true) {}
        schedule) := by
  have hp := Messages.messageParser_incremental hu lib readBufferSize
  have hboth := endsSession_of_receives hp (receives_of_run hp schedule s hrun)
  rw [← nothingFollows_received_iff _ schedule s hrun]
  exact hboth

/-- A request in one read, a response in the next, and the close that follows; the request is
dispatched. -/
def violationSchedule : List (ServerAction Nat) :=
  [.context (.task 0 {}), .context (.read 0 none [0x94, 0x00, 0x01, 0xa1, 0x66, 0x90] {}),
    .context (.read 0 none [0x94, 0x01, 0x00, 0xc0, 0x05] {}), .context (.task 0 {}), .dispatch 0]

def closed : ServerConnection Nat where
  connection :=
    { state := .stopped, callbacks := true, socket := .closed, reads := [.opened] }
  routines := [{ pc := .call ⟨1, [0x66], ⟨[]⟩⟩ }]
  received := [.request ⟨1, [0x66], ⟨[]⟩⟩, .response ⟨0, ⟨false, .positiveInteger 5⟩⟩]
  dispatched := [.request ⟨1, [0x66], ⟨[]⟩⟩]

theorem endsSession_closed : EndsSession formatParser violationSchedule closed :=
  (endsSession_iff Messages.formatUnpacker Messages.formatUnpacker_incremental
    Messages.formatLibrary 1024 violationSchedule closed rfl).1 (by decide)

/-- The response and after it the request, in one read. -/
def lateSchedule : List (ServerAction Nat) :=
  [.context (.task 0 {}),
    .context (.read 0 none
      [0x94, 0x01, 0x00, 0xc0, 0x05, 0x94, 0x00, 0x01, 0xa1, 0x66, 0x90] {}),
    .context (.task 0 {}), .dispatch 0]

def lateMessages : List ParsedMessage :=
  [.response ⟨0, ⟨false, .positiveInteger 5⟩⟩, .request ⟨1, [0x66], ⟨[]⟩⟩]

/-- The connection is closed before the request goes to the processor, and it goes there. -/
theorem request_after_response :
    ¬ ∀ (schedule : List (ServerAction Nat)) (s : ServerConnection Nat),
      (serverMachine formatParser Nat).run {} schedule = some s →
      EndsSession formatParser schedule s := by
  intro h
  have hrun : (serverMachine formatParser Nat).run {} lateSchedule =
      some { closed with received := lateMessages } := rfl
  obtain ⟨messages, rest, hlongest, hsubperm, -⟩ := h _ _ hrun
  have hdrained : formatParser.Longest (bytesRead lateSchedule) lateMessages [] :=
    MessageParser.drain_longest (Messages.messageParser_incremental
      Messages.formatUnpacker_incremental Messages.formatLibrary 1024) (bytesRead lateSchedule)
  obtain ⟨rfl, -⟩ := hlongest.unique hdrained
  have hlength := hsubperm.length_le
  revert hlength
  decide

end MsgpackRpc.Servers
