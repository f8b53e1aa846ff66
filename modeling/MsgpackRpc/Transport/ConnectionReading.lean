import MsgpackRpc.Lib.Update
import MsgpackRpc.Transport.ConnectionSystem

/-!
# Reading a stream

Every handler that completes a read drains what is complete and keeps the rest, so what a connection
has delivered is what one run of the parser over all the bytes delivers.
-/

namespace MsgpackRpc.Transport

variable {ω μ : Type}

def Callback.receivedMessage : Callback ω μ → Option ω
  | .onReceived m => some m
  | _ => none

def Task.isReadNext : Task μ → Bool
  | .asyncReadNext => true
  | _ => false

namespace Connection

/-- The bytes that a successful read delivers. -/
def Event.readBytes : Event → List UInt8
  | .read _ none bytes _ => bytes
  | _ => []

/-- The reads that are outstanding or queued. -/
def pendingReads (c : Connection μ) : Nat :=
  c.tasks.countP Task.isReadNext + c.reads.length

theorem pendingReads_post (c : Connection μ) (task : Task μ) :
    (c.post task).pendingReads = c.pendingReads + if task.isReadNext then 1 else 0 := by
  simp only [pendingReads, post, List.countP_append, List.countP_singleton]
  omega

/-- A read that completes is not pending any more. -/
theorem pendingReads_eraseIdx {c : Connection μ} {i : Nat} {started : SocketState}
    (hread : c.reads[i]? = some started) :
    c.pendingReads = { c with reads := c.reads.eraseIdx i }.pendingReads + 1 := by
  have hlength := (List.perm_cons_eraseIdx hread).length_eq
  rw [List.length_cons] at hlength
  show c.tasks.countP Task.isReadNext + c.reads.length =
    c.tasks.countP Task.isReadNext + (c.reads.eraseIdx i).length + 1
  omega

theorem pendingReads_lt {c : Connection μ} {i : Nat} {started : SocketState}
    (hread : c.reads[i]? = some started) :
    { c with reads := c.reads.eraseIdx i }.pendingReads < c.pendingReads := by
  rw [pendingReads_eraseIdx hread]
  exact Nat.lt_succ_self _

theorem filterMap_receivedMessage (messages : List ω) :
    (messages.map (Callback.onReceived (μ := μ))).filterMap Callback.receivedMessage =
      messages := by
  rw [List.filterMap_map]
  exact List.filterMap_some

/-- The messages that a handler delivers. -/
theorem Handles.received_eq {p : MessageParser ω} {c : Connection μ} {e : Event} {r : Handled ω μ}
    (h : Handles p c e r) :
    r.callbacks.filterMap Callback.receivedMessage = e.received p c := by
  cases h.tells with
  | silent _ _ hcallbacks => rw [hcallbacks, filterMap_receivedMessage]
  | closed status _ _ _ hcallbacks =>
    rw [hcallbacks, List.filterMap_append, filterMap_receivedMessage]
    exact List.append_nil _
  | sent message hwritten hcallbacks =>
    rw [hcallbacks]
    cases e with
    | write i error => rfl
    | _ => cases hwritten

theorem Closes.pendingReads_eq {c : Connection μ} {calls : SocketCalls} {status : Status}
    {closed : Handled ω μ} (h : Closes c calls status closed) :
    closed.connection.pendingReads = c.pendingReads := by
  cases h <;> rfl

/-- A handler starts a read only in place of the one that it has completed. -/
theorem Handles.pendingReads_le {p : MessageParser ω} {c : Connection μ} {e : Event}
    {r : Handled ω μ} (h : Handles p c e r) : r.connection.pendingReads ≤ c.pendingReads := by
  have hcount {i : Nat} {task : Task μ} (htask : c.tasks[i]? = some task) :=
    List.countP_eraseIdx Task.isReadNext htask
  cases h with
  | readNext htask =>
    have hone := hcount htask
    simp only [Task.isReadNext, if_true] at hone
    simp only [pendingReads, asyncReadNext, List.length_append, List.length_singleton]
    omega
  | send htask =>
    have hnone := hcount htask
    simp only [pendingReads, asyncSendInThread]
    omega
  | close htask _ hcloses =>
    have hnone := hcount htask
    rw [hcloses.pendingReads_eq]
    simp only [pendingReads]
    omega
  | readAborted hread => exact Nat.le_of_lt (pendingReads_lt hread)
  | readClosedByPeer hread => exact Nat.le_of_lt (pendingReads_lt hread)
  | readFailed hread => exact Nat.le_of_lt (pendingReads_lt hread)
  | readInvalid hread _ _ _ hcloses =>
    rw [hcloses.pendingReads_eq]
    exact Nat.le_of_lt (pendingReads_lt hread)
  | readBytes reads hread _ _ hreads =>
    have hlost := pendingReads_eraseIdx hread
    simp only [pendingReads] at hlost ⊢
    rcases hreads with ⟨-, rfl⟩ | ⟨-, rfl⟩
    · simp only [List.length_append, List.length_singleton]
      omega
    · omega
  | _ => exact Nat.le_refl _

/-- A handler posts nothing. -/
theorem Handles.tasks_subset {p : MessageParser ω} {c : Connection μ} {e : Event}
    {r : Handled ω μ} (h : Handles p c e r) : r.connection.tasks ⊆ c.tasks := by
  cases h with
  | readNext | send => exact List.eraseIdx_subset
  | close _ _ hcloses => cases hcloses <;> exact List.eraseIdx_subset
  | readInvalid _ _ _ _ hcloses => cases hcloses <;> exact List.Subset.refl _
  | _ => exact List.Subset.refl _

/-- A connection has read `bytes` and handed over `received`. -/
structure Reads (p : MessageParser ω) (c : Connection μ) (received : List ω)
    (bytes : List UInt8) : Prop where
  received : received = (p.drain bytes).messages
  buffer : (p.drain bytes).invalid = none → c.buffer = (p.drain bytes).rest
  ended : ∀ status, (p.drain bytes).invalid = some status → c.pendingReads = 0
  oneRead : c.pendingReads ≤ 1

theorem reads_nil {p : MessageParser ω} (hp : p.Incremental) {c : Connection μ}
    (hbuffer : c.buffer = []) (hone : c.pendingReads ≤ 1) : Reads p c [] [] := by
  have hdrain := MessageParser.drain_nil hp
  refine ⟨?_, fun _ => ?_, fun status hinvalid => ?_, hone⟩
  · rw [hdrain]
  · rw [hdrain, hbuffer]
  · rw [hdrain] at hinvalid
    cases hinvalid

/-- Whoever still reads has read nothing invalid. -/
theorem Reads.valid {p : MessageParser ω} {c : Connection μ} {received : List ω}
    {bytes : List UInt8} (h : Reads p c received bytes) {i : Nat} {started : SocketState}
    (hread : c.reads[i]? = some started) : (p.drain bytes).invalid = none := by
  cases hinvalid : (p.drain bytes).invalid with
  | none => rfl
  | some status =>
    have hnone := h.ended status hinvalid
    have hlost := pendingReads_eraseIdx hread
    omega

/-- The handler of a read goes on where the handler before it has stopped. -/
theorem Reads.drain_eq {p : MessageParser ω} (hp : p.Incremental) {c : Connection μ}
    {received : List ω} {bytes : List UInt8} (h : Reads p c received bytes)
    (hvalid : (p.drain bytes).invalid = none) (more : List UInt8) :
    p.drain (bytes ++ more) =
      { p.drain (c.buffer ++ more) with
        messages := received ++ (p.drain (c.buffer ++ more)).messages } := by
  rw [MessageParser.drain_append hp, ← h.buffer hvalid, ← h.received]

/-- A step that reads nothing. -/
theorem Reads.unread {p : MessageParser ω} {c c' : Connection μ} {received : List ω}
    {bytes : List UInt8} (h : Reads p c received bytes) (hbuffer : c'.buffer = c.buffer)
    (hpending : c'.pendingReads ≤ c.pendingReads) : Reads p c' received bytes where
  received := h.received
  buffer hvalid := hbuffer.trans (h.buffer hvalid)
  ended status hinvalid := Nat.le_zero.mp (h.ended status hinvalid ▸ hpending)
  oneRead := Nat.le_trans hpending h.oneRead

theorem Reads.handles {p : MessageParser ω} (hp : p.Incremental) {c : Connection μ}
    {received : List ω} {bytes : List UInt8} {e : Event} {r : Handled ω μ}
    (h : Reads p c received bytes) (hr : Handles p c e r) :
    Reads p r.connection (received ++ e.received p c) (bytes ++ e.readBytes) := by
  have hpending := hr.pendingReads_le
  have hunread (hnone : e.received p c = []) (hbytes : e.readBytes = [])
      (hbuffer : r.connection.buffer = c.buffer) :
      Reads p r.connection (received ++ e.received p c) (bytes ++ e.readBytes) := by
    rw [hnone, hbytes, List.append_nil, List.append_nil]
    exact h.unread hbuffer hpending
  cases hr with
  | @readInvalid i more _ _ status hread _ _ hinvalid _ hcloses =>
    have hdrain := h.drain_eq hp (h.valid hread) more
    -- it was the only read, and none is started after it
    have hlost := pendingReads_eraseIdx hread
    have hone := h.oneRead
    refine ⟨?_, fun hvalid => ?_, fun _ _ => ?_, Nat.le_trans hpending hone⟩
    · exact (congrArg Drained.messages hdrain).symm
    · have hnone := (congrArg Drained.invalid hdrain).symm.trans hvalid
      rw [hinvalid] at hnone
      cases hnone
    · rw [hcloses.pendingReads_eq]
      simp only [pendingReads] at hlost hone ⊢
      omega
  | @readBytes i more _ _ reads hread _ hvalid _ =>
    have hdrain := h.drain_eq hp (h.valid hread) more
    refine ⟨?_, fun _ => ?_, fun status hinvalid => ?_, Nat.le_trans hpending h.oneRead⟩
    · exact (congrArg Drained.messages hdrain).symm
    · exact (congrArg Drained.rest hdrain).symm
    · have hsome := (congrArg Drained.invalid hdrain).symm.trans hinvalid
      rw [hvalid] at hsome
      cases hsome
  | close _ _ hcloses => exact hunread rfl rfl (by cases hcloses <;> rfl)
  | _ => exact hunread rfl rfl rfl

end Connection

end MsgpackRpc.Transport
