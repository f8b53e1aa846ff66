import MsgpackRpc.Messages.Unpacker
import MsgpackRpc.Transport.ConnectionReading

/-!
# The stream of messages of one connection

Exactly one of `start`, the task that starts a read, and the read itself holds the turn to receive.
Whoever holds it has drained what is complete, so the messages that have been delivered depend only
on the bytes that have been read.
-/

namespace MsgpackRpc.Transport

variable {ω μ : Type}

def ConnectionAction.readBytes : ConnectionAction μ → List UInt8
  | .context e => e.readBytes
  | _ => []

/-- A write has ended with an error that stands for a close by the peer. -/
def ConnectionAction.isPeerWriteFailure : ConnectionAction μ → Bool
  | .context (.write _ (some error)) => error.isClosedByPeer
  | _ => false

/-- The socket calls that the handler may have to make in `close_in_thread` succeed. -/
def ConnectionAction.callsSucceed : ConnectionAction μ → Bool
  | .context (.task _ calls) | .context (.read _ _ _ calls) => calls.succeed
  | _ => true

/-- The bytes that a schedule reads. -/
def bytesOf (schedule : List (ConnectionAction μ)) : List UInt8 :=
  schedule.flatMap ConnectionAction.readBytes

@[simp] theorem bytesOf_append (as bs : List (ConnectionAction μ)) :
    bytesOf (as ++ bs) = bytesOf as ++ bytesOf bs :=
  List.flatMap_append

@[simp] theorem bytesOf_singleton (a : ConnectionAction μ) : bytesOf [a] = a.readBytes :=
  List.append_nil _

/-! ## The turn to receive -/

namespace ConnectionSystem

/-- The messages that have been handed to `on_received_`. -/
def received (s : ConnectionSystem ω μ) : List ω :=
  s.trace.filterMap Callback.receivedMessage

/-- How often the turn to receive is held. -/
def turns (s : ConnectionSystem ω μ) : Nat :=
  s.connection.pendingReads + if s.starting.isSome then 1 else 0

/-- What every run without `async_close` keeps of the turn to receive. -/
structure TakesTurns (s : ConnectionSystem ω μ) : Prop where
  tasks : ∀ task ∈ s.connection.tasks, task.isClose = false
  fresh : s.connection.state = .init → s.turns = 0
  turns : s.turns ≤ 1
  held : s.connection.state = .processing → s.thrown = none → s.turns = 1
  callbacks : s.connection.state ≠ .init → s.starting ≠ some .callbacks →
    s.connection.callbacks = true
  starting : s.connection.state = .starting → s.early = true
  early : s.early = true → s.connection.state ≠ .stopped
  closed : s.connection.socket = .closed → s.connection.state = .stopped ∧ s.turns = 0

theorem takesTurns_init : TakesTurns ({} : ConnectionSystem ω μ) where
  tasks := nofun
  fresh _ := rfl
  turns := Nat.zero_le 1
  held hstate := by cases hstate
  callbacks hstate := absurd rfl hstate
  starting hstate := by cases hstate
  early _ := nofun
  closed hsocket := by cases hsocket

/-- Handlers run only after `start` has stored `PROCESSING`. -/
theorem late_of_handles {p : MessageParser ω} {s : ConnectionSystem ω μ} {e : Connection.Event}
    {r : Handled ω μ} (hwf : s.Wf) (h : s.TakesTurns)
    (hr : Connection.Handles p s.connection e r) : s.early = false := by
  -- before this store only closes are queued, and here nobody closes
  have hlate {i : Nat} {task : Task μ} (htask : s.connection.tasks[i]? = some task) :
      s.early = false := by
    rw [← Bool.not_eq_true]
    intro hearly
    have hmem := List.mem_of_getElem? htask
    have hclose := (hwf.early hearly).2.1.tasks task hmem
    rw [h.tasks task hmem] at hclose
    cases hclose
  cases hr with
  | readNext htask | send htask | close htask => exact hlate htask
  | readAborted hread | readClosedByPeer hread | readFailed hread | readInvalid hread
  | readBytes _ hread => exact hwf.late_of_read hread
  | writeAborted hwrite | writeClosedByPeer hwrite | writeFailed hwrite | written hwrite =>
    exact hwf.late_of_write hwrite

theorem not_init_of_late {s : ConnectionSystem ω μ} (hwf : s.Wf) (hlate : s.early = false) :
    s.connection.state ≠ .init := by
  intro hinit
  unfold early at hlate
  split at hlate
  · cases hlate
  · cases hlate
  · rename_i hstarting
    exact hwf.starting (by rw [hstarting]; exact Option.some_ne_none _) hinit
  · rw [hinit] at hlate
    cases hlate

/-- A handler keeps the turn or gives it up, and it gives it up only for good. -/
structure KeepsTurn (c : Connection μ) (r : Handled ω μ) : Prop where
  tasks : ∀ task ∈ r.connection.tasks, task.isClose = false
  state : r.connection.state = c.state ∨ r.connection.state = .stopped
  callbacks : r.connection.callbacks = c.callbacks
  socket : r.connection.socket = c.socket ∨
    r.connection.state = .stopped ∧ r.connection.pendingReads < c.pendingReads
  turn : r.connection.pendingReads = c.pendingReads ∨
    r.connection.pendingReads < c.pendingReads ∧
      (r.connection.state = .stopped ∨ r.thrown ≠ none)

theorem takesTurns_context {s : ConnectionSystem ω μ} {r : Handled ω μ} (hwf : s.Wf)
    (h : s.TakesTurns) (hthrown : s.thrown = none) (hlate : s.early = false)
    (hr : KeepsTurn s.connection r) :
    TakesTurns { s with
      connection := r.connection
      trace := s.trace ++ r.callbacks
      thrown := r.thrown } := by
  have hinit := not_init_of_late hwf hlate
  have hwas : ∀ {trace : List (Callback ω μ)} {thrown : Option Thrown},
      early { s with connection := r.connection, trace, thrown } = true → s.early = true :=
    early_mono rfl hr.state
  have hnot : r.connection.state ≠ .starting := by
    intro hstate
    rcases hr.state with hsame | hstopped
    · rw [hsame] at hstate
      rw [h.starting hstate] at hlate
      cases hlate
    · rw [hstopped] at hstate
      cases hstate
  have hturns := h.turns
  have hpending : r.connection.pendingReads ≤ s.connection.pendingReads := by
    rcases hr.turn with hsame | ⟨hless, -⟩ <;> omega
  unfold turns at hturns
  refine ⟨hr.tasks, fun hstate => ?_, ?_, fun hstate hnone => ?_, fun _ hne => ?_,
    fun hstate => absurd hstate hnot, fun hearly => ?_, fun hclosed => ?_⟩
  · rcases hr.state with hsame | hstopped
    · exact absurd (hsame ▸ hstate) hinit
    · rw [hstopped] at hstate
      cases hstate
  · show r.connection.pendingReads + (if s.starting.isSome then 1 else 0) ≤ 1
    omega
  · have hprocessing : s.connection.state = .processing := by
      rcases hr.state with hsame | hstopped
      · exact hsame ▸ hstate
      · rw [hstopped] at hstate
        cases hstate
    have hheld := h.held hprocessing hthrown
    rcases hr.turn with hsame | ⟨-, hstopped | hthrow⟩
    · rw [turns, hsame]
      exact hheld
    · rw [hstopped] at hstate
      cases hstate
    · exact absurd hnone hthrow
  · rw [hr.callbacks]
    exact h.callbacks hinit hne
  · rw [hwas hearly] at hlate
    cases hlate
  · rcases hr.socket with hsame | ⟨hstopped, hless⟩
    · obtain ⟨hstopped, hnone⟩ := h.closed (hsame ▸ hclosed)
      unfold turns at hnone
      refine ⟨?_, ?_⟩
      · rcases hr.state with hstate | hstate
        · exact hstate.trans hstopped
        · exact hstate
      · show r.connection.pendingReads + (if s.starting.isSome then 1 else 0) = 0
        omega
    · refine ⟨hstopped, ?_⟩
      show r.connection.pendingReads + (if s.starting.isSome then 1 else 0) = 0
      omega

theorem keepsTurn_of_handles {p : MessageParser ω} {s : ConnectionSystem ω μ}
    {e : Connection.Event} {r : Handled ω μ} (hwf : s.Wf) (h : s.TakesTurns)
    (hr : Connection.Handles p s.connection e r) : KeepsTurn s.connection r := by
  have hlate := late_of_handles hwf h hr
  have hinit := not_init_of_late hwf hlate
  have htasks (i : Nat) : ∀ task ∈ s.connection.tasks.eraseIdx i, task.isClose = false :=
    fun task hmem => h.tasks task (List.mem_of_mem_eraseIdx hmem)
  have hcount {i : Nat} {task : Task μ} (htask : s.connection.tasks[i]? = some task) :=
    List.countP_eraseIdx Task.isReadNext htask
  cases hr with
  | readNext htask =>
    refine ⟨htasks _, .inl rfl, rfl, .inl rfl, .inl ?_⟩
    have hone := hcount htask
    simp only [Task.isReadNext, if_true] at hone
    simp only [Connection.pendingReads, Connection.asyncReadNext, List.length_append,
      List.length_singleton]
    omega
  | send htask =>
    refine ⟨htasks _, .inl rfl, rfl, .inl rfl, .inl ?_⟩
    have hnone := hcount htask
    simp only [Task.isReadNext, Bool.false_eq_true, if_false] at hnone
    simp only [Connection.pendingReads, Connection.asyncSendInThread]
    omega
  | close htask =>
    have hclose := h.tasks _ (List.mem_of_getElem? htask)
    cases hclose
  | readAborted hread hadmits =>
    -- nothing is aborted while the socket is open, and closing it takes the turn
    refine ⟨h.tasks, .inl rfl, rfl, .inl rfl, .inr ⟨Connection.pendingReads_lt hread, .inl ?_⟩⟩
    cases hsocket : s.connection.socket with
    | closed => exact (h.closed hsocket).1
    | opened =>
      rename_i started
      rw [hsocket] at hadmits
      cases started <;> cases hadmits
  | readClosedByPeer hread =>
    exact ⟨h.tasks, .inr rfl, rfl, .inl rfl, .inr ⟨Connection.pendingReads_lt hread, .inl rfl⟩⟩
  | readFailed hread =>
    exact ⟨h.tasks, .inl rfl, rfl, .inl rfl, .inr ⟨Connection.pendingReads_lt hread,
      .inr (Option.some_ne_none _)⟩⟩
  | readInvalid hread _ _ _ hcloses =>
    have hlost := Connection.pendingReads_lt hread
    cases hcloses with
    | alreadyStopped hstopped =>
      exact ⟨h.tasks, .inl rfl, rfl, .inl rfl, .inr ⟨hlost, .inl hstopped⟩⟩
    | failed => exact ⟨h.tasks, .inr rfl, rfl, .inr ⟨rfl, hlost⟩, .inr ⟨hlost, .inl rfl⟩⟩
    | closed => exact ⟨h.tasks, .inr rfl, rfl, .inr ⟨rfl, hlost⟩, .inr ⟨hlost, .inl rfl⟩⟩
  | readBytes reads hread _ _ hreads =>
    rcases hreads with ⟨-, rfl⟩ | ⟨hstate, rfl⟩
    · refine ⟨h.tasks, .inl rfl, rfl, .inl rfl, .inl ?_⟩
      have hlost := Connection.pendingReads_eraseIdx hread
      simp only [Connection.pendingReads, List.length_append, List.length_singleton] at hlost ⊢
      omega
    · refine ⟨h.tasks, .inl rfl, rfl, .inl rfl, .inr ⟨Connection.pendingReads_lt hread, .inl ?_⟩⟩
      cases hcases : s.connection.state with
      | init => exact absurd hcases hinit
      | starting =>
        rw [h.starting hcases] at hlate
        cases hlate
      | processing => exact absurd hcases hstate
      | stopped => rfl
  | writeClosedByPeer => exact ⟨h.tasks, .inr rfl, rfl, .inl rfl, .inl rfl⟩
  | _ => exact ⟨h.tasks, .inl rfl, rfl, .inl rfl, .inl rfl⟩

theorem takesTurns_step {p : MessageParser ω} {s s' : ConnectionSystem ω μ}
    {a : ConnectionAction μ} (hwf : s.Wf) (h : s.TakesTurns) (hlocal : a ≠ .asyncClose)
    (hstep : s.step p a = some s') : s'.TakesTurns := by
  have hturns := h.turns
  cases steps_of_step hstep with
  | started hinit =>
    have hnone := h.fresh hinit
    unfold turns at hnone
    refine ⟨h.tasks, fun hstate => (by cases hstate), ?_, fun hstate => (by cases hstate),
      fun _ hne => absurd rfl hne, fun _ => rfl, fun _ hstate => (by cases hstate),
      fun hclosed => ?_⟩
    · show s.connection.pendingReads + 1 ≤ 1
      omega
    · have hstopped := (h.closed hclosed).1
      rw [hinit] at hstopped
      cases hstopped
  | startedAgain => exact h
  | assigned hstarting =>
    have hwas : s.early = true := by simp only [early, hstarting]
    have hinit : s.connection.state ≠ .init :=
      hwf.starting (by rw [hstarting]; exact Option.some_ne_none _)
    simp only [turns, hstarting] at hturns
    refine ⟨h.tasks, fun hstate => absurd hstate hinit, hturns, fun hstate => ?_, fun _ _ => rfl,
      fun _ => rfl, fun _ => h.early hwas, fun hclosed => ?_⟩
    · exact absurd hstate (hwf.early hwas).1
    · exact absurd (h.closed hclosed).1 (h.early hwas)
  | processing hstarting =>
    have hwas : s.early = true := by simp only [early, hstarting]
    have hinit : s.connection.state ≠ .init :=
      hwf.starting (by rw [hstarting]; exact Option.some_ne_none _)
    simp only [turns, hstarting, Option.isSome_some, if_true] at hturns
    refine ⟨h.tasks, fun hstate => (by cases hstate), hturns, fun _ _ => ?_, fun _ _ => ?_,
      fun hstate => (by cases hstate), fun hearly => (by cases hearly), fun hclosed => ?_⟩
    · show s.connection.pendingReads + 1 = 1
      omega
    · exact h.callbacks hinit (by rw [hstarting]; intro heq; cases heq)
    · exact absurd (h.closed hclosed).1 (h.early hwas)
  | reading hstarting =>
    -- `start` hands its turn to the task that it posts
    have hinit : s.connection.state ≠ .init :=
      hwf.starting (by rw [hstarting]; exact Option.some_ne_none _)
    have hlate : s.early = false := by simp only [early, hstarting]
    simp only [turns, hstarting, Option.isSome_some, if_true] at hturns
    have hposted : (s.connection.post .asyncReadNext).pendingReads =
        s.connection.pendingReads + 1 := Connection.pendingReads_post _ _
    refine ⟨Connection.forall_post h.tasks rfl, fun hstate => absurd hstate hinit, ?_,
      fun _ _ => ?_, fun hstate _ => ?_, fun hstate => ?_, fun hearly => ?_, fun hclosed => ?_⟩
    · show (s.connection.post .asyncReadNext).pendingReads + 0 ≤ 1
      omega
    · show (s.connection.post .asyncReadNext).pendingReads + 0 = 1
      omega
    · exact h.callbacks hinit (by rw [hstarting]; intro heq; cases heq)
    · rw [h.starting hstate] at hlate
      cases hlate
    · simp only [early, beq_iff_eq] at hearly
      exact absurd hearly hinit
    · have hnone := (h.closed hclosed).2
      simp [turns, hstarting] at hnone
  | sending =>
    exact ⟨h.tasks, h.fresh, h.turns, h.held, h.callbacks, h.starting, h.early, h.closed⟩
  | sendDropped => exact h
  | @sendPosted i message hmessage =>
    have hposted : (s.connection.post (.asyncSendInThread message)).pendingReads =
        s.connection.pendingReads := Connection.pendingReads_post _ _
    have hsame : turns { s with
        connection := s.connection.post (.asyncSendInThread message)
        senders := s.senders.eraseIdx i } = s.turns := by
      simp only [turns, hposted]
    refine ⟨Connection.forall_post h.tasks rfl, fun hstate => hsame.trans (h.fresh hstate),
      hsame.trans_le h.turns, fun hstate hnone => hsame.trans (h.held hstate hnone), h.callbacks,
      h.starting, h.early, fun hclosed => ?_⟩
    obtain ⟨hstopped, hnone⟩ := h.closed hclosed
    exact ⟨hstopped, hsame.trans hnone⟩
  | closing => exact absurd rfl hlocal
  | context hthrown hr =>
    exact takesTurns_context hwf h hthrown (late_of_handles hwf h hr)
      (keepsTurn_of_handles hwf h hr)

/-! ## What the stream says -/

/-- What a run without `async_close` has delivered, given the actions that have led to `s`. -/
structure Streams (p : MessageParser ω) (s : ConnectionSystem ω μ)
    (past : List (ConnectionAction μ)) : Prop where
  reads : Connection.Reads p s.connection s.received (bytesOf past)
  failed : s.connection.state = .stopped → 0 < s.turns →
    ∃ a ∈ past, a.isPeerWriteFailure = true
  invalid : ∀ status, (p.drain (bytesOf past)).invalid = some status →
    s.connection.state = .stopped ∧ s.turns = 0 ∧
      (.onClosed status ∈ s.trace ∨ ∃ a ∈ past, a.isPeerWriteFailure = true)

theorem streams_init {p : MessageParser ω} (hp : p.Incremental) :
    Streams p ({} : ConnectionSystem ω μ) [] where
  reads := Connection.reads_nil hp rfl (Nat.zero_le 1)
  failed hstate := by cases hstate
  invalid status hinvalid := by
    have hvalid := congrArg Drained.invalid (MessageParser.drain_nil hp)
    cases hvalid.symm.trans hinvalid

theorem failed_append {past : List (ConnectionAction μ)} {a : ConnectionAction μ} :
    (∃ b ∈ past ++ [a], b.isPeerWriteFailure = true) ↔
      (∃ b ∈ past, b.isPeerWriteFailure = true) ∨ a.isPeerWriteFailure = true := by
  simp only [List.mem_append, List.mem_singleton, or_and_right, exists_or, exists_eq_left]

/-- A step outside the context thread keeps what has been read. -/
theorem streams_quiet {p : MessageParser ω} {s s' : ConnectionSystem ω μ}
    {past : List (ConnectionAction μ)} {a : ConnectionAction μ} (h : Streams p s past)
    (hbytes : a.readBytes = []) (htrace : s'.trace = s.trace)
    (hbuffer : s'.connection.buffer = s.connection.buffer) (hone : s'.turns ≤ 1)
    (hstate : s'.connection.state = s.connection.state ∧ s'.turns = s.turns ∨
      s'.connection.state ≠ .stopped ∧
        (s.connection.state ≠ .stopped ∨ s.turns ≠ 0)) : Streams p s' (past ++ [a]) := by
  have hsame : bytesOf (past ++ [a]) = bytesOf past := by
    rw [bytesOf_append, bytesOf_singleton, hbytes, List.append_nil]
  have hvalid (hnot : s.connection.state ≠ .stopped ∨ s.turns ≠ 0) (status : Status) :
      (p.drain (bytesOf past)).invalid ≠ some status := by
    intro hinvalid
    obtain ⟨hstopped, hnone, -⟩ := h.invalid status hinvalid
    rcases hnot with hnot | hnot
    · exact hnot hstopped
    · exact hnot hnone
  unfold turns at hone
  refine ⟨⟨?_, ?_, ?_, ?_⟩, ?_, ?_⟩
  · rw [hsame, received, htrace]
    exact h.reads.received
  · rw [hsame, hbuffer]
    exact h.reads.buffer
  · intro status hinvalid
    rw [hsame] at hinvalid
    rcases hstate with ⟨-, hturns⟩ | ⟨-, hnot⟩
    · have hnone := hturns.trans (h.invalid status hinvalid).2.1
      unfold turns at hnone
      omega
    · exact absurd hinvalid (hvalid hnot status)
  · omega
  · intro hstopped hpos
    rw [failed_append]
    rcases hstate with ⟨hsame, hturns⟩ | ⟨hnot, -⟩
    · exact .inl (h.failed (hsame ▸ hstopped) (hturns ▸ hpos))
    · exact absurd hstopped hnot
  · intro status hinvalid
    rw [hsame] at hinvalid
    rcases hstate with ⟨hsame, hturns⟩ | ⟨-, hnot⟩
    · rw [hsame, hturns, htrace, failed_append, ← or_assoc]
      obtain ⟨hstopped, hnone, htold⟩ := h.invalid status hinvalid
      exact ⟨hstopped, hnone, .inl htold⟩
    · exact absurd hinvalid (hvalid hnot status)

theorem streams_context {p : MessageParser ω} (hp : p.Incremental) {s : ConnectionSystem ω μ}
    {past : List (ConnectionAction μ)} {e : Connection.Event} {r : Handled ω μ} (hwf : s.Wf)
    (hturns : s.TakesTurns) (h : Streams p s past)
    (hcalls : (ConnectionAction.context e : ConnectionAction μ).callsSucceed = true)
    (hr : Connection.Handles p s.connection e r) :
    Streams p { s with
      connection := r.connection
      trace := s.trace ++ r.callbacks
      thrown := r.thrown } (past ++ [.context e]) := by
  have hlate := late_of_handles hwf hturns hr
  have hassigned : s.connection.callbacks = true := by
    apply hturns.callbacks (not_init_of_late hwf hlate)
    intro hstarting
    simp only [early, hstarting, Bool.true_eq_false] at hlate
  have hkeeps := keepsTurn_of_handles hwf hturns hr
  have hreads := h.reads.handles hp hr
  have hpending := hr.pendingReads_le
  have hone := hturns.turns
  unfold turns at hone
  constructor
  · rw [bytesOf_append, bytesOf_singleton]
    rw [← hr.received_eq, received, ← List.filterMap_append] at hreads
    exact hreads
  · intro hstopped hpos
    rw [failed_append]
    have hpos : 0 < r.connection.pendingReads + if s.starting.isSome then 1 else 0 := hpos
    -- `STOPPED` with the turn still held: only a failed write leaves it so
    have hcause : (ConnectionAction.context e : ConnectionAction μ).isPeerWriteFailure = true ∨
        r.connection.state = s.connection.state ∨
        r.connection.pendingReads < s.connection.pendingReads := by
      cases hr with
      | close htask =>
        have hclose := hturns.tasks _ (List.mem_of_getElem? htask)
        cases hclose
      | readClosedByPeer hread => exact .inr (.inr (Connection.pendingReads_lt hread))
      | readInvalid hread _ _ _ hcloses =>
        rw [hcloses.pendingReads_eq]
        exact .inr (.inr (Connection.pendingReads_lt hread))
      | writeClosedByPeer _ _ hpeer => exact .inl hpeer
      | _ => exact .inr (.inl rfl)
    rcases hcause with hfailed | hsame | hless
    · exact .inr hfailed
    · exact .inl (h.failed (hsame ▸ hstopped) (by unfold turns; omega))
    · omega
  · intro status hinvalid
    rw [bytesOf_append, bytesOf_singleton] at hinvalid
    rw [failed_append]
    have hkept (hbytes : e.readBytes = []) : r.connection.state = .stopped ∧
        r.connection.pendingReads + (if s.starting.isSome then 1 else 0) = 0 ∧
        (.onClosed status ∈ s.trace ++ r.callbacks ∨
          (∃ a ∈ past, a.isPeerWriteFailure = true) ∨
            (ConnectionAction.context e : ConnectionAction μ).isPeerWriteFailure = true) := by
      rw [show (ConnectionAction.context e : ConnectionAction μ).readBytes = [] from hbytes,
        List.append_nil] at hinvalid
      obtain ⟨hstopped, hnone, htold⟩ := h.invalid status hinvalid
      unfold turns at hnone
      refine ⟨?_, by omega, ?_⟩
      · rcases hkeeps.state with hsame | hstopped'
        · exact hsame.trans hstopped
        · exact hstopped'
      · exact htold.imp (fun htold => List.mem_append_left _ htold) .inl
    cases hr with
    | @readInvalid i bytes calls _ status' hread _ _ hnow closed hcloses =>
      -- the invalid bytes are in this read: before it everything was valid
      have hvalid := h.reads.valid hread
      have hlost := Connection.pendingReads_eraseIdx hread
      have hdrain := congrArg Drained.invalid (h.reads.drain_eq hp hvalid bytes)
      obtain rfl : status' = status :=
        Option.some.inj ((hdrain.trans hnow).symm.trans hinvalid)
      have hpos : 0 < s.turns := by
        unfold turns
        omega
      have hnone : closed.connection.pendingReads + (if s.starting.isSome then 1 else 0) = 0 := by
        rw [hcloses.pendingReads_eq]
        simp only [Connection.pendingReads] at hlost hone ⊢
        omega
      cases hcloses with
      | alreadyStopped hstate => exact ⟨hstate, hnone, .inr (.inl (h.failed hstate hpos))⟩
      | failed _ _ _ _ hcause =>
        -- the calls succeed, and whoever reads has been given the callbacks
        have hsucceed : calls.succeed = true := hcalls
        rw [hsucceed] at hcause
        have hnot : s.connection.callbacks = false := hcause.resolve_left fun heq => by cases heq
        rw [hassigned] at hnot
        cases hnot
      | closed =>
        exact ⟨rfl, hnone, .inl (List.mem_append_right _
          (List.mem_append_right _ (List.mem_singleton_self _)))⟩
    | @readBytes i bytes calls _ reads hread _ hnow =>
      have hdrain := congrArg Drained.invalid (h.reads.drain_eq hp (h.reads.valid hread) bytes)
      cases (hdrain.trans hnow).symm.trans hinvalid
    | _ => exact hkept rfl

theorem streams_step {p : MessageParser ω} (hp : p.Incremental) {s s' : ConnectionSystem ω μ}
    {past : List (ConnectionAction μ)} {a : ConnectionAction μ} (hwf : s.Wf)
    (hturns : s.TakesTurns) (h : Streams p s past) (hlocal : a ≠ .asyncClose)
    (hcalls : a.callsSucceed = true) (hstep : s.step p a = some s') :
    Streams p s' (past ++ [a]) := by
  have hone := (takesTurns_step hwf hturns hlocal hstep).turns
  cases steps_of_step hstep with
  | started hinit =>
    exact streams_quiet h rfl rfl rfl hone (.inr ⟨nofun, .inl (by rw [hinit]; nofun)⟩)
  | startedAgain => exact streams_quiet h rfl rfl rfl hone (.inl ⟨rfl, rfl⟩)
  | assigned hstarting =>
    refine streams_quiet h rfl rfl rfl hone (.inl ⟨rfl, ?_⟩)
    simp only [turns, hstarting]
    rfl
  | processing hstarting =>
    refine streams_quiet h rfl rfl rfl hone (.inr ⟨nofun, .inr ?_⟩)
    simp [turns, hstarting]
  | reading hstarting =>
    refine streams_quiet h rfl rfl rfl hone (.inl ⟨rfl, ?_⟩)
    simp only [turns, hstarting, Connection.pendingReads_post]
    rfl
  | sending => exact streams_quiet h rfl rfl rfl hone (.inl ⟨rfl, rfl⟩)
  | sendDropped => exact streams_quiet h rfl rfl rfl hone (.inl ⟨rfl, rfl⟩)
  | sendPosted =>
    refine streams_quiet h rfl rfl rfl hone (.inl ⟨rfl, ?_⟩)
    simp only [turns, Connection.pendingReads_post]
    rfl
  | closing => exact absurd rfl hlocal
  | context _ hr => exact streams_context hp hwf hturns h hcalls hr

/-- Nothing is read after what is invalid. -/
theorem readBytes_of_invalid {p : MessageParser ω} {s s' : ConnectionSystem ω μ}
    {past : List (ConnectionAction μ)} {a : ConnectionAction μ} {status : Status}
    (h : Streams p s past) (hinvalid : (p.drain (bytesOf past)).invalid = some status)
    (hstep : s.step p a = some s') : a.readBytes = [] := by
  have hnone := (h.invalid status hinvalid).2.1
  have hreads : s.connection.reads = [] := by
    apply List.eq_nil_of_length_eq_zero
    unfold turns Connection.pendingReads at hnone
    omega
  cases a with
  | context e =>
    obtain ⟨-, r, hr, -⟩ := context_eq_some hstep
    cases hr with
    | readInvalid hread =>
      rw [hreads] at hread
      cases hread
    | readBytes _ hread =>
      rw [hreads] at hread
      cases hread
    | _ => rfl
  | _ => rfl

/-- All that a run without `async_close` keeps. -/
structure Receives (p : MessageParser ω) (s : ConnectionSystem ω μ)
    (past : List (ConnectionAction μ)) : Prop where
  wf : s.Wf
  turns : s.TakesTurns
  streams : Streams p s past

theorem receives_init {p : MessageParser ω} (hp : p.Incremental) :
    Receives p ({} : ConnectionSystem ω μ) [] :=
  ⟨wf_init, takesTurns_init, streams_init hp⟩

theorem receives_step {p : MessageParser ω} (hp : p.Incremental) {s s' : ConnectionSystem ω μ}
    {past : List (ConnectionAction μ)} {a : ConnectionAction μ} (h : Receives p s past)
    (hok : a ≠ .asyncClose ∧ a.callsSucceed = true) (hstep : s.step p a = some s') :
    Receives p s' (past ++ [a]) where
  wf := wf_step h.wf hstep
  turns := takesTurns_step h.wf h.turns hok.1 hstep
  streams := streams_step hp h.wf h.turns h.streams hok.1 hok.2 hstep

theorem receives_run {p : MessageParser ω} (hp : p.Incremental) {s s' : ConnectionSystem ω μ}
    {past schedule : List (ConnectionAction μ)} (h : Receives p s past)
    (hok : ∀ a ∈ schedule, a ≠ .asyncClose ∧ a.callsSucceed = true)
    (hrun : (connectionMachine p μ).run s schedule = some s') :
    Receives p s' (past ++ schedule) := by
  have hkeep : ∀ s a s' past, Receives p s past → (a ≠ .asyncClose ∧ a.callsSucceed = true) →
      (connectionMachine p μ).step s a = some s' → Receives p s' (past ++ [a]) :=
    fun _ _ _ _ h hok hstep => receives_step hp h hok hstep
  exact Machine.run_history hkeep h hok hrun

/-- Nothing has been read since the actions `before`. -/
def UnreadSince (p : MessageParser ω) (before : List (ConnectionAction μ))
    (s : ConnectionSystem ω μ) (past : List (ConnectionAction μ)) : Prop :=
  Receives p s (before ++ past) ∧ bytesOf past = []

theorem bytesOf_after_invalid {p : MessageParser ω} (hp : p.Incremental)
    {s s' : ConnectionSystem ω μ} {before after : List (ConnectionAction μ)} {status : Status}
    (h : Receives p s before) (hinvalid : (p.drain (bytesOf before)).invalid = some status)
    (hok : ∀ a ∈ after, a ≠ .asyncClose ∧ a.callsSucceed = true)
    (hrun : (connectionMachine p μ).run s after = some s') : bytesOf after = [] := by
  have hkeep : ∀ s a s' past, UnreadSince p before s past →
      (a ≠ .asyncClose ∧ a.callsSucceed = true) →
      (connectionMachine p μ).step s a = some s' → UnreadSince p before s' (past ++ [a]) := by
    intro s a s' past ⟨h, hpast⟩ hok hstep
    -- what has been read is still invalid, so this step reads nothing
    have hsame : (p.drain (bytesOf (before ++ past))).invalid = some status := by
      rw [bytesOf_append, hpast, List.append_nil]
      exact hinvalid
    constructor
    · rw [← List.append_assoc]
      exact receives_step hp h hok hstep
    · rw [bytesOf_append, bytesOf_singleton, hpast, readBytes_of_invalid h.streams hsame hstep]
      rfl
  have hinit : UnreadSince p before s [] := by
    refine ⟨?_, rfl⟩
    rw [List.append_nil]
    exact h
  exact (Machine.run_history hkeep hinit hok hrun).2

end ConnectionSystem

/-- What the owner of a connection sees of the bytes that have been read: the messages of the
longest prefix of complete messages, whatever the reads were.  When what follows this prefix is
invalid, reading is over and the owner has been told, unless a failed write had told it before. -/
structure ReceivesStream (p : MessageParser ω) (schedule : List (ConnectionAction μ))
    (s : ConnectionSystem ω μ) : Prop where
  received : ∃ rest, p.Longest (bytesOf schedule) s.received rest
  oneRead : s.connection.pendingReads ≤ 1
  reading : s.connection.state = .processing → s.starting = none → s.thrown = none →
    s.connection.pendingReads = 1
  invalid : ∀ before after messages rest status, schedule = before ++ after →
    p.Longest (bytesOf before) messages rest → p.tryParse rest = .invalid status →
    status.code = .invalidMessage ∧ s.connection.state = .stopped ∧
      s.connection.pendingReads = 0 ∧ bytesOf after = [] ∧
      (.onClosed status ∈ s.trace ∨ ∃ a ∈ schedule, a.isPeerWriteFailure = true)

theorem receivesStream_of_run {p : MessageParser ω} (hp : p.Incremental)
    (hcode : ∀ {buffer status}, p.tryParse buffer = .invalid status →
      status.code = .invalidMessage) (schedule : List (ConnectionAction μ))
    (s : ConnectionSystem ω μ) (hlocal : .asyncClose ∉ schedule)
    (hcalls : ∀ a ∈ schedule, a.callsSucceed = true)
    (hrun : (connectionMachine p μ).run {} schedule = some s) : ReceivesStream p schedule s := by
  have hok : ∀ a ∈ schedule, a ≠ .asyncClose ∧ a.callsSucceed = true := by
    intro a hmem
    refine ⟨fun ha => hlocal (ha ▸ hmem), hcalls a hmem⟩
  have hfinal : ConnectionSystem.Receives p s schedule :=
    ConnectionSystem.receives_run hp (ConnectionSystem.receives_init hp) hok hrun
  have hone := hfinal.turns.turns
  constructor
  · rw [hfinal.streams.reads.received]
    exact ⟨_, MessageParser.drain_longest hp (bytesOf schedule)⟩
  · unfold ConnectionSystem.turns at hone
    omega
  · intro hstate hstarting hthrown
    have hheld := hfinal.turns.held hstate hthrown
    simpa [ConnectionSystem.turns, hstarting] using hheld
  · rintro before after messages rest status rfl hlongest hparse
    rw [Machine.run_append] at hrun
    obtain ⟨t, hbefore, hafter⟩ := Option.bind_eq_some_iff.mp hrun
    rw [List.forall_mem_append] at hok
    have hmiddle : ConnectionSystem.Receives p t before :=
      ConnectionSystem.receives_run hp (ConnectionSystem.receives_init hp) hok.1 hbefore
    have hinvalid : (p.drain (bytesOf before)).invalid = some status := by
      -- there is one longest prefix, and the handlers have drained it
      obtain ⟨-, rfl⟩ := hlongest.unique (MessageParser.drain_longest hp (bytesOf before))
      rw [MessageParser.tryParse_rest] at hparse
      split at hparse
      · rename_i status' hstatus
        rw [hstatus]
        cases hparse
        rfl
      · cases hparse
    have hnone : bytesOf after = [] :=
      ConnectionSystem.bytesOf_after_invalid hp hmiddle hinvalid hok.2 hafter
    have hwhole : (p.drain (bytesOf (before ++ after))).invalid = some status := by
      rw [bytesOf_append, hnone, List.append_nil]
      exact hinvalid
    obtain ⟨hstate, hturns, htold⟩ := hfinal.streams.invalid status hwhole
    unfold ConnectionSystem.turns at hturns
    exact ⟨hcode hparse, hstate, by omega, hnone, htold⟩

open Messages (ParsedMessage MsgpackLibrary Unpacker messageParser formatParser)

/-- However the stream of the peer is cut into reads, a connection that is not closed locally
delivers exactly the messages of its longest prefix of complete messages, with at most one read at
any time, and stops at what is invalid. -/
theorem receivesStream (u : Unpacker) (hu : u.Incremental) (lib : MsgpackLibrary)
    (readBufferSize : Nat) (schedule : List (ConnectionAction μ))
    (s : ConnectionSystem ParsedMessage μ) (hlocal : .asyncClose ∉ schedule)
    (hcalls : ∀ a ∈ schedule, a.callsSucceed = true)
    (hrun : (connectionMachine (messageParser u hu lib readBufferSize) μ).run {} schedule =
      some s) : ReceivesStream (messageParser u hu lib readBufferSize) schedule s :=
  receivesStream_of_run (Messages.messageParser_incremental hu lib readBufferSize)
    Messages.tryParse_invalid schedule s hlocal hcalls hrun

/-- `start` has returned and its first read is waiting. -/
def readingSchedule : List (ConnectionAction Nat) :=
  [.start, .startNext, .startNext, .startNext, .context (.task 0 {})]

def reading : ConnectionSystem ParsedMessage Nat where
  connection := { state := .processing, callbacks := true, reads := [.opened] }

/-- A notification `f` of no arguments in two reads, and then a byte that no value begins with. -/
def brokenReads : List (ConnectionAction Nat) :=
  [.context (.read 0 none [0x93, 0x02] {}),
    .context (.read 0 none [0xa1, 0x66, 0x90, 0xc1] {})]

def broken : ConnectionSystem ParsedMessage Nat where
  connection := { state := .stopped, callbacks := true, socket := .closed, buffer := [0xc1] }
  trace := [.onReceived (.notification ⟨[0x66], ⟨[]⟩⟩),
    .onClosed (.create .invalidMessage (text "Failed to parse a message."))]

theorem run_broken : (connectionMachine formatParser Nat).run {} (readingSchedule ++ brokenReads) =
    some broken := by
  have hreading : (connectionMachine formatParser Nat).run {} readingSchedule = some reading := rfl
  have hfirst : (connectionMachine formatParser Nat).step reading
      (.context (.read 0 none [0x93, 0x02] {})) =
        some { reading with connection := { reading.connection with buffer := [0x93, 0x02] } } :=
    rfl
  rw [Machine.run_append, hreading, Option.bind_some, brokenReads, Machine.run, hfirst]
  rfl

theorem receivesStream_broken :
    ReceivesStream formatParser (readingSchedule ++ brokenReads) broken :=
  receivesStream Messages.formatUnpacker Messages.formatUnpacker_incremental
    Messages.formatLibrary 1024 _ broken (by decide) (by decide) run_broken

/-- A write fails with `broken_pipe` before the read completes. -/
def failedWrite : List (ConnectionAction Nat) :=
  [.asyncSend 7, .postSend 0, .context (.task 0 {}), .context (.write 0 (some .brokenPipe))]

def toldByWrite : ConnectionSystem ParsedMessage Nat where
  connection := { state := .stopped, callbacks := true, reads := [.opened] }
  trace := [.onClosed {}]

/-- The failed write has told the owner that the connection is closed, so nobody tells it of the
invalid byte. -/
theorem invalid_after_failedWrite :
    ¬ ∀ (schedule : List (ConnectionAction Nat)) (s : ConnectionSystem ParsedMessage Nat),
      .asyncClose ∉ schedule → (∀ a ∈ schedule, a.callsSucceed = true) →
      (connectionMachine formatParser Nat).run {} schedule = some s →
      ∀ messages rest status, formatParser.Longest (bytesOf schedule) messages rest →
        formatParser.tryParse rest = .invalid status →
        ∃ told, told.code = .invalidMessage ∧ .onClosed told ∈ s.trace := by
  intro h
  have hlongest : formatParser.Longest [0xc1] [] [0xc1] :=
    MessageParser.drain_longest (Messages.messageParser_incremental
      Messages.formatUnpacker_incremental Messages.formatLibrary 1024) [0xc1]
  have hwrite : (connectionMachine formatParser Nat).run {} (readingSchedule ++ failedWrite) =
      some toldByWrite := rfl
  have hread : (connectionMachine formatParser Nat).run {}
      ((readingSchedule ++ failedWrite) ++ [.context (.read 0 none [0xc1] {})]) =
        some { toldByWrite with
          connection := { toldByWrite.connection with reads := [], buffer := [0xc1] } } := by
    rw [Machine.run_append, hwrite]
    rfl
  obtain ⟨told, hcode, htold⟩ := h _ _ (by decide) (by decide) hread [] [0xc1]
    (.create .invalidMessage (text "Failed to parse a message.")) hlongest rfl
  obtain rfl : told = {} := by simpa [toldByWrite] using htold
  cases hcode

end MsgpackRpc.Transport
