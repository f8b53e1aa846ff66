import MsgpackRpc.Transport.ConnectionSystem

/-!
# Telling the owner that a connection is closed

Three paths invoke `on_closed_`, and only `close_in_thread` looks at the state first.  The theorems
say exactly which completions make the other two tell twice, or deliver to an owner that has been
told, and when `close_in_thread` itself comes to its end.
-/

namespace MsgpackRpc.Transport

variable {ω μ : Type}

/-- `close_in_thread` did all of its work: the socket is closed, the owner is told once and no
exception goes into the executor. -/
def Handled.Finishes (r : Handled ω μ) (status : Status) : Prop :=
  r.connection.socket = .closed ∧ r.callbacks = [.onClosed status] ∧ r.thrown = none

/-- Entered before `STOPPED`, `close_in_thread` finishes exactly when its three socket calls succeed
and `start` has assigned the callbacks. -/
theorem closeInThread_finishes_iff (c : Connection μ) (calls : SocketCalls) (status : Status)
    (hstate : c.state ≠ .stopped) :
    (c.closeInThread calls status : Handled ω μ).Finishes status ↔
      calls.succeed = true ∧ c.callbacks = true := by
  have hcloses : Connection.Closes c calls status (c.closeInThread calls status : Handled ω μ) :=
    c.closeInThread_closes calls status
  generalize c.closeInThread calls status = r at hcloses ⊢
  cases hcloses with
  | alreadyStopped hstopped => exact absurd hstopped hstate
  | failed _ _ _ _ hcause =>
    constructor
    · intro ⟨_, _, hthrown⟩
      cases hthrown
    · intro ⟨hcalls, hcallbacks⟩
      rw [hcalls, hcallbacks] at hcause
      simp at hcause
  | closed _ hcalls hcallbacks => exact ⟨fun _ => ⟨hcalls, hcallbacks⟩, fun _ => ⟨rfl, rfl, rfl⟩⟩

/-- A connection that processes, and whose peer has reset it: `shutdown` fails, and the connection
is `STOPPED` with an open socket and an owner that has not been told. -/
theorem closeInThread_halfClosed :
    ¬ ∀ (c : Connection Nat) (calls : SocketCalls) (status : Status), c.state ≠ .stopped →
      (c.closeInThread calls status : Handled Nat Nat).Finishes status := by
  intro h
  have hopen := (h { state := .processing, callbacks := true }
    { shutdown := some (.other (text "Transport endpoint is not connected")) } {} (by decide)).1
  revert hopen
  decide

theorem closeInThread_finishes_processing :
    (({ state := .processing, callbacks := true } : Connection Nat).closeInThread {} {} :
      Handled Nat Nat).Finishes {} :=
  (closeInThread_finishes_iff { state := .processing, callbacks := true } {} {} (by decide)).mpr
    ⟨rfl, rfl⟩

namespace ConnectionSystem

/-! ## `on_closed_` is invoked at most once -/

/-- No error that stands for a close by the peer is handled in `STOPPED`. -/
def closedByPeerBeforeStop (s : ConnectionSystem ω μ) : ConnectionAction μ → Bool
  | .context e => !e.isClosedByPeer || s.connection.state != .stopped
  | _ => true

theorem countP_onClosed_received (messages : List ω) :
    (messages.map (Callback.onReceived (μ := μ))).countP Callback.isOnClosed = 0 :=
  List.countP_eq_zero.mpr fun cb hcb => by
    rw [Connection.isOnClosed_of_mem_received hcb]
    exact Bool.false_ne_true

theorem countP_onClosed_pos {s : ConnectionSystem ω μ} :
    0 < s.trace.countP Callback.isOnClosed ↔ s.Told := by
  rw [List.countP_pos_iff, Told]

/-- Whether one handler tells again is decided by the event alone once the owner has been told. -/
theorem onClosed_step_iff {p : MessageParser ω} {s s' : ConnectionSystem ω μ}
    {a : ConnectionAction μ} (h : s.Wf) (hone : s.trace.countP Callback.isOnClosed ≤ 1)
    (hstep : s.step p a = some s') :
    s'.trace.countP Callback.isOnClosed ≤ 1 ↔ s.closedByPeerBeforeStop a = true := by
  cases a with
  | context e =>
    obtain ⟨hthrown, r, hr, rfl⟩ := context_eq_some hstep
    simp only [closedByPeerBeforeStop, Bool.or_eq_true, Bool.not_eq_true', bne_iff_ne, ne_eq,
      List.countP_append]
    by_cases htold : s.Told
    · have hcount : s.trace.countP Callback.isOnClosed = 1 := by
        have hpos := countP_onClosed_pos.mpr htold
        omega
      rw [hcount]
      rcases h.told htold with ⟨hstopped, -⟩ | hdead
      · cases hr.tells with
        | silent hpeer _ hcallbacks =>
          rw [hcallbacks, countP_onClosed_received]
          simp only [hpeer, true_or, Nat.add_zero, Nat.le_refl]
        | closed status hcause _ _ hcallbacks =>
          have hpeer : e.isClosedByPeer = true := hcause.resolve_right (fun hne => hne hstopped)
          rw [hcallbacks, List.countP_append, countP_onClosed_received]
          simp [hpeer, hstopped, Callback.isOnClosed]
        | sent message hwritten hcallbacks =>
          have hpeer : e.isClosedByPeer = false := by
            cases e with
            | write i error => cases error <;> first | rfl | cases hwritten
            | _ => cases hwritten
          rw [hcallbacks]
          simp [hpeer, Callback.isOnClosed]
      · obtain ⟨-, hcallbacks, hpeer⟩ := hr.dead hdead
        rw [hcallbacks]
        simp only [hpeer, true_or, List.countP_nil, Nat.add_zero, Nat.le_refl]
    · -- nobody has been told, so the state is not `STOPPED` and one handler tells at most once
      have hstate : s.connection.state ≠ .stopped := fun hstopped =>
        htold (h.stopped hthrown hstopped)
      have hcount : s.trace.countP Callback.isOnClosed = 0 := by
        have hpos := mt countP_onClosed_pos.mp htold
        omega
      rw [hcount]
      refine iff_of_true ?_ (.inr hstate)
      cases hr.tells with
      | silent _ _ hcallbacks => rw [hcallbacks, countP_onClosed_received]; omega
      | closed status _ _ _ hcallbacks =>
        rw [hcallbacks, List.countP_append, countP_onClosed_received]
        simp [Callback.isOnClosed]
      | sent message _ hcallbacks =>
        rw [hcallbacks]
        simp [Callback.isOnClosed]
  | _ =>
    rw [trace_eq_of_step hstep (by intro e; nofun)]
    exact iff_of_true hone rfl

end ConnectionSystem

/-- `on_closed_` has been invoked at most once after a run exactly when no completion of the run
that reports a close by the peer was handled in `STOPPED`. -/
theorem onClosed_at_most_once_iff (p : MessageParser ω) (schedule : List (ConnectionAction μ))
    (s : ConnectionSystem ω μ) (hrun : (connectionMachine p μ).run {} schedule = some s) :
    s.trace.countP Callback.isOnClosed ≤ 1 ↔
      (connectionMachine p μ).Meets (fun s a _ => s.closedByPeerBeforeStop a = true) {}
        schedule := by
  have hback : ∀ s a s', (connectionMachine p μ).step s a = some s' →
      s'.trace.countP Callback.isOnClosed ≤ 1 → s.trace.countP Callback.isOnClosed ≤ 1 := by
    intro s a s' hstep hone
    exact Nat.le_trans (ConnectionSystem.trace_prefix_of_step hstep).sublist.countP_le hone
  exact Machine.holds_after_iff hback (fun s a s' h hstep => ConnectionSystem.wf_step h hstep)
    (fun s a s' h hone hstep => ConnectionSystem.onClosed_step_iff h hone hstep)
    ConnectionSystem.wf_init (Nat.zero_le 1) hrun

/-- `start`, one message handed to a write, the read waiting. -/
def sendingSchedule : List (ConnectionAction Nat) :=
  [.start, .startNext, .startNext, .startNext, .context (.task 0 {}),
    .asyncSend 7, .postSend 0, .context (.task 0 {})]

/-- The write succeeds, and then the peer closes. -/
def sentThenClosed : List (ConnectionAction Nat) :=
  [.context (.write 0 none), .context (.read 0 (some .eof) [] {})]

/-- The connection after both. -/
def sentAndClosed : ConnectionSystem Nat Nat where
  connection := { state := .stopped, callbacks := true }
  trace := [.onSent 7, .onClosed {}]

theorem onClosed_at_most_once_sentAndClosed :
    sentAndClosed.trace.countP Callback.isOnClosed ≤ 1 :=
  (onClosed_at_most_once_iff (idleParser Nat) (sendingSchedule ++ sentThenClosed) sentAndClosed
    rfl).mpr (by decide)

/-- The read ends with `eof` and the outstanding write with `broken_pipe`: both tell. -/
theorem onClosed_twice :
    ¬ ∀ (schedule : List (ConnectionAction Nat)) (s : ConnectionSystem Nat Nat),
      (connectionMachine (idleParser Nat) Nat).run {} schedule = some s →
      s.trace.countP Callback.isOnClosed ≤ 1 := by
  intro h
  have hrun : ((connectionMachine (idleParser Nat) Nat).run {} (sendingSchedule ++
      [.context (.read 0 (some .eof) [] {}), .context (.write 0 (some .brokenPipe))])).map
        (·.trace) = some [.onClosed {}, .onClosed {}] := by decide
  obtain ⟨s, hs, htrace⟩ := Option.map_eq_some_iff.mp hrun
  have htwo := h _ s hs
  rw [htrace] at htwo
  revert htwo
  decide

/-! ## Silence after `on_closed_` -/

/-- Once `on_closed_` has been invoked, only `on_closed_` is. -/
def SilentOnceClosed (trace : List (Callback ω μ)) : Prop :=
  trace.Pairwise fun earlier later => earlier.isOnClosed = true → later.isOnClosed = true

namespace ConnectionSystem

/-- No successful write, and no successful read that completes a message, is handled in
`STOPPED`. -/
def deliversBeforeStop (p : MessageParser ω) (s : ConnectionSystem ω μ) :
    ConnectionAction μ → Bool
  | .context e =>
      s.connection.state != .stopped ||
        ((e.received p s.connection).isEmpty && !e.isWritten)
  | _ => true

theorem silentOnceClosed_callbacks {p : MessageParser ω} {c : Connection μ} {e : Connection.Event}
    {r : Handled ω μ} (h : Connection.Tells p c e r) : SilentOnceClosed r.callbacks := by
  have hreceived {messages : List ω} {earlier later : Callback ω μ}
      (hmem : earlier ∈ messages.map Callback.onReceived) (hclosed : earlier.isOnClosed = true) :
      later.isOnClosed = true := by
    rw [Connection.isOnClosed_of_mem_received hmem] at hclosed
    cases hclosed
  have hall (messages : List ω) :
      SilentOnceClosed (messages.map (Callback.onReceived (μ := μ))) :=
    List.pairwise_of_forall_mem_list fun earlier hmem later _ => hreceived hmem
  cases h with
  | silent _ _ hcallbacks =>
    rw [hcallbacks]
    exact hall _
  | closed status _ _ _ hcallbacks =>
    rw [hcallbacks]
    exact List.pairwise_append.mpr ⟨hall _, List.pairwise_singleton _ _,
      fun earlier hmem later _ => hreceived hmem⟩
  | sent message _ hcallbacks =>
    rw [hcallbacks]
    exact List.pairwise_singleton _ _

theorem forall_onClosed_iff {p : MessageParser ω} {c : Connection μ} {e : Connection.Event}
    {r : Handled ω μ} (h : Connection.Tells p c e r) :
    (∀ cb ∈ r.callbacks, cb.isOnClosed = true) ↔ e.received p c = [] ∧ e.isWritten = false := by
  have hreceived (messages : List ω) :
      (∀ cb ∈ messages.map (Callback.onReceived (μ := μ)), cb.isOnClosed = true) ↔
        messages = [] := by
    cases messages with
    | nil => simp
    | cons m messages => simp [Callback.isOnClosed]
  cases h with
  | silent _ hwritten hcallbacks =>
    rw [hcallbacks, hreceived, hwritten]
    simp only [and_true]
  | closed status _ hwritten _ hcallbacks =>
    rw [hcallbacks, List.forall_mem_append, hreceived, hwritten]
    simp [Callback.isOnClosed]
  | sent message hwritten hcallbacks =>
    rw [hcallbacks, hwritten]
    simp [Callback.isOnClosed]

theorem silentOnceClosed_step_iff {p : MessageParser ω} {s s' : ConnectionSystem ω μ}
    {a : ConnectionAction μ} (h : s.Wf) (hsilent : SilentOnceClosed s.trace)
    (hstep : s.step p a = some s') :
    SilentOnceClosed s'.trace ↔ s.deliversBeforeStop p a = true := by
  cases a with
  | context e =>
    obtain ⟨hthrown, r, hr, rfl⟩ := context_eq_some hstep
    have happend : SilentOnceClosed (s.trace ++ r.callbacks) ↔
        (s.Told → ∀ cb ∈ r.callbacks, cb.isOnClosed = true) := by
      rw [SilentOnceClosed, List.pairwise_append]
      constructor
      · intro ⟨_, _, hcross⟩ ⟨earlier, hmem, hclosed⟩ cb hcb
        exact hcross earlier hmem cb hcb hclosed
      · intro htold
        exact ⟨hsilent, silentOnceClosed_callbacks hr.tells,
          fun earlier hmem cb hcb hclosed => htold ⟨earlier, hmem, hclosed⟩ cb hcb⟩
    rw [happend]
    simp only [deliversBeforeStop, Bool.or_eq_true, bne_iff_ne, ne_eq, Bool.and_eq_true,
      List.isEmpty_iff, Bool.not_eq_true']
    by_cases htold : s.Told
    · rw [forall_prop_of_true htold, forall_onClosed_iff hr.tells]
      rcases h.told htold with ⟨hstopped, -⟩ | hdead
      · simp only [hstopped, not_true_eq_false, false_or]
      · -- a dead connection invokes nothing
        have hnothing : ∀ cb ∈ r.callbacks, cb.isOnClosed = true := by
          rw [(hr.dead hdead).2.1]
          nofun
        have hquiet := (forall_onClosed_iff hr.tells).mp hnothing
        exact iff_of_true hquiet (.inr hquiet)
    · have hstate : s.connection.state ≠ .stopped := fun hstopped =>
        htold (h.stopped hthrown hstopped)
      exact iff_of_true (fun htold' => absurd htold' htold) (.inl hstate)
  | _ =>
    rw [trace_eq_of_step hstep (by intro e; nofun)]
    exact iff_of_true hsilent rfl

end ConnectionSystem

/-- A run keeps silent once it has told exactly when no successful write, and no read that completes
a message, was handled in `STOPPED`. -/
theorem silentOnceClosed_iff (p : MessageParser ω) (schedule : List (ConnectionAction μ))
    (s : ConnectionSystem ω μ) (hrun : (connectionMachine p μ).run {} schedule = some s) :
    SilentOnceClosed s.trace ↔
      (connectionMachine p μ).Meets (fun s a _ => s.deliversBeforeStop p a = true) {} schedule := by
  have hback : ∀ s a s', (connectionMachine p μ).step s a = some s' →
      SilentOnceClosed s'.trace → SilentOnceClosed s.trace := by
    intro s a s' hstep hsilent
    exact hsilent.sublist (ConnectionSystem.trace_prefix_of_step hstep).sublist
  exact Machine.holds_after_iff hback (fun s a s' h hstep => ConnectionSystem.wf_step h hstep)
    (fun s a s' h hsilent hstep => ConnectionSystem.silentOnceClosed_step_iff h hsilent hstep)
    ConnectionSystem.wf_init List.Pairwise.nil hrun

theorem silentOnceClosed_sentAndClosed : SilentOnceClosed sentAndClosed.trace :=
  (silentOnceClosed_iff (idleParser Nat) (sendingSchedule ++ sentThenClosed) sentAndClosed
    rfl).mpr (by decide)

/-- The read ends with `eof` while the write is outstanding, and the write succeeds later. -/
theorem onSent_after_onClosed :
    ¬ ∀ (schedule : List (ConnectionAction Nat)) (s : ConnectionSystem Nat Nat),
      (connectionMachine (idleParser Nat) Nat).run {} schedule = some s →
      SilentOnceClosed s.trace := by
  intro h
  have hrun : ((connectionMachine (idleParser Nat) Nat).run {} (sendingSchedule ++
      [.context (.read 0 (some .eof) [] {}), .context (.write 0 none)])).map (·.trace) =
        some [.onClosed {}, .onSent 7] := by decide
  obtain ⟨s, hs, htrace⟩ := Option.map_eq_some_iff.mp hrun
  have hsilent := h _ s hs
  rw [htrace, SilentOnceClosed, List.pairwise_pair] at hsilent
  exact absurd (hsilent rfl) (by decide)

end MsgpackRpc.Transport
