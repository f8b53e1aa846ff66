import MsgpackRpc.Clients.SenderView
import MsgpackRpc.Transport.ConnectionReading

/-!
# Connections that go on

While a connection processes and no handler throws, it always reads, its socket stays open, and the
messages that have been posted to it wait for their writes to be started.
-/

namespace MsgpackRpc.Transport

variable {ω μ : Type}

namespace Connection

/-- The message whose write a handler starts. -/
def Event.starts (c : Connection μ) : Event → Option μ
  | .task i _ => c.tasks[i]?.bind Task.message
  | _ => none

/-- The messages whose write is still to be started. -/
def queued (c : Connection μ) : Multiset μ := ↑(c.tasks.filterMap Task.message)

theorem queued_post (c : Connection μ) (task : Task μ) :
    (c.post task).queued = c.queued + (task.message.toList : Multiset μ) := by
  rw [queued, queued, post, List.filterMap_append, Multiset.coe_add]
  cases task <;> rfl

theorem queued_eraseTask {c : Connection μ} {i : Nat} {task : Task μ}
    (h : c.tasks[i]? = some task) :
    c.queued = (task.message.toList : Multiset μ) +
      queued { c with tasks := c.tasks.eraseIdx i } := by
  have hperm := (List.perm_cons_eraseIdx h).filterMap Task.message
  rw [queued, queued, Multiset.coe_add, Multiset.coe_eq_coe]
  cases task <;> exact hperm

theorem queued_le_sends (c : Connection μ) : c.queued ≤ c.sends := Multiset.le_add_right _ _

/-- A handler drops no message. -/
theorem Handles.queued {p : MessageParser ω} {c : Connection μ} {e : Event} {r : Handled ω μ}
    (h : Handles p c e r) :
    c.queued = ((e.starts c).toList : Multiset μ) + r.connection.queued := by
  have kept (hnone : e.starts c = none) (htasks : r.connection.tasks = c.tasks) :
      c.queued = ((e.starts c).toList : Multiset μ) + r.connection.queued := by
    rw [hnone, Connection.queued, Connection.queued, htasks]
    exact (zero_add _).symm
  cases h with
  | readNext htask | send htask =>
    rw [queued_eraseTask htask, Event.starts, htask, Option.bind_some]
    rfl
  | close htask hcalls hcloses =>
    rw [queued_eraseTask htask, Event.starts, htask, Option.bind_some]
    cases hcloses <;> rfl
  | readInvalid _ _ _ _ hcloses => exact kept rfl (by cases hcloses <;> rfl)
  | _ => exact kept rfl rfl

/-! ## Live connections -/

/-- A connection that processes: one read is under way or queued, and whatever is under way has been
started on the open socket. -/
structure Live (c : Connection μ) : Prop where
  state : c.state = .processing
  socket : c.socket = .opened
  reads : ∀ started ∈ c.reads, started = .opened
  writes : ∀ write ∈ c.writes, write.2 = .opened
  reading : c.pendingReads = 1

theorem Live.post {c : Connection μ} (h : c.Live) {task : Task μ}
    (htask : task.isReadNext = false) : (c.post task).Live where
  state := h.state
  socket := h.socket
  reads := h.reads
  writes := h.writes
  reading := by
    rw [pendingReads_post, htask]
    exact h.reading

/-- On an open socket nothing is aborted. -/
theorem Live.not_aborted {c : Connection μ} (h : c.Live) {started : SocketState}
    (hstarted : started = .opened) :
    started.admits c.socket (some .operationAborted) = false := by
  rw [hstarted, h.socket]
  rfl

theorem Live.handles {p : MessageParser ω} {c : Connection μ} {e : Event} {r : Handled ω μ}
    (h : c.Live) (hr : Handles p c e r) (hstate : r.connection.state = .processing)
    (hthrown : r.thrown = none) : r.connection.Live := by
  have stopped {P : Prop} (hstopped : r.connection.state = .stopped) : P := by
    rw [hstopped] at hstate
    cases hstate
  have hcount {i : Nat} {task : Task μ} (htask : c.tasks[i]? = some task) :=
    List.countP_eraseIdx Task.isReadNext htask
  have hreading := h.reading
  unfold pendingReads at hreading
  cases hr with
  | readNext htask =>
    have hone := hcount htask
    simp only [Task.isReadNext, if_true] at hone
    refine ⟨h.state, h.socket, fun started hmem => ?_, h.writes, ?_⟩
    · rcases List.mem_append.mp hmem with hmem | hmem
      · exact h.reads started hmem
      · exact (List.mem_singleton.mp hmem).trans h.socket
    · simp only [pendingReads, asyncReadNext, List.length_append, List.length_singleton]
      omega
  | send htask =>
    have hnone := hcount htask
    simp only [Task.isReadNext, Bool.false_eq_true, if_false] at hnone
    refine ⟨h.state, h.socket, h.reads, fun write hmem => ?_, ?_⟩
    · rcases List.mem_append.mp hmem with hmem | hmem
      · exact h.writes write hmem
      · rw [List.mem_singleton.mp hmem]
        exact h.socket
    · simp only [pendingReads, asyncSendInThread]
      omega
  | close _ _ hcloses => exact stopped hcloses.state_eq
  | readInvalid _ _ _ _ hcloses => exact stopped hcloses.state_eq
  | readClosedByPeer | writeClosedByPeer => exact stopped rfl
  | readFailed | writeFailed => cases hthrown
  | readAborted hread hadmits =>
    rw [h.not_aborted (h.reads _ (List.mem_of_getElem? hread))] at hadmits
    cases hadmits
  | writeAborted hwrite hadmits =>
    rw [h.not_aborted (h.writes _ (List.mem_of_getElem? hwrite))] at hadmits
    cases hadmits
  | @readBytes i _ _ _ reads hread _ _ hreads =>
    have hlost := (List.perm_cons_eraseIdx hread).length_eq
    rw [List.length_cons] at hlost
    rcases hreads with ⟨-, rfl⟩ | ⟨hstopped, -⟩
    · refine ⟨h.state, h.socket, fun started hmem => ?_, h.writes, ?_⟩
      · rcases List.mem_append.mp hmem with hmem | hmem
        · exact h.reads started (List.mem_of_mem_eraseIdx hmem)
        · exact (List.mem_singleton.mp hmem).trans h.socket
      · simp only [pendingReads, List.length_append, List.length_singleton]
        omega
    · exact absurd h.state hstopped
  | written =>
    exact ⟨h.state, h.socket, h.reads, fun write hmem =>
      h.writes write (List.mem_of_mem_eraseIdx hmem), h.reading⟩

/-- The events that are no failure. -/
def Event.succeeds : Event → Bool
  | .task _ _ | .read _ none _ _ | .write _ none => true
  | .read _ (some _) _ _ | .write _ (some _) => false

end Connection

/-- The steps that a task leads to, where `on_sent` gives `sent` steps to the owner. -/
def Task.work (sent : Nat) : Task μ → Nat
  | .asyncSendInThread _ => sent + 2
  | .asyncReadNext | .closeInThread _ => 1

namespace Connection

/-- The steps that are left to a connection before it only reads. -/
def work (sent : Nat) (c : Connection μ) : Nat :=
  (c.tasks.map (Task.work sent)).sum + (sent + 1) * c.writes.length

theorem work_post (sent : Nat) (c : Connection μ) (task : Task μ) :
    (c.post task).work sent = c.work sent + task.work sent := by
  simp only [work, post, List.map_append, List.sum_append, List.map_singleton, List.sum_singleton]
  omega

variable {p : MessageParser ω} {c : Connection μ} {r : Handled ω μ} {i : Nat} {calls : SocketCalls}

end Connection

end MsgpackRpc.Transport
