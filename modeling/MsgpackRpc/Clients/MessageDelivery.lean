import MsgpackRpc.Clients.SenderView

/-!
# The messages that leave the queue

`send_next` copies the front before it takes `is_sending_`, and `on_sent` names neither a message
nor a connection.  The theorems say under which condition on the winners of the exchange the queue
is still sent in order, and the message that is removed is the one whose write has completed.
-/

namespace MsgpackRpc.Clients

open MsgpackRpc.Transport

variable {ω μ : Type}

namespace Client

/-- The entry that a step claims by winning the exchange, for a connection that still processes. -/
def taking (s : Client μ) (a : ClientAction μ) : Option (Entry μ) :=
  (s.stepping a).bind fun r =>
    match s.label r with
    | .take entry => some entry
    | _ => none

theorem taking_eq_some {s : Client μ} {i : Nat} {r : Routine μ} {entry : Entry μ}
    (hr : s.routines[i]? = some r) (hlabel : s.label r = .take entry) :
    s.taking (.routine i) = some entry := by
  rw [taking, stepping, hr, Option.bind_some, hlabel]

/-- The writes are recorded by the handlers, which alone begin an `on_sent` callback. -/
theorem Advances.not_pop {s t : Client μ} {r r' : Routine μ} (h : Advances s r t r') :
    t.written = s.written ∧ ∀ entry, r'.pc ≠ .pop entry := by
  cases h with
  | goes hgoes =>
    refine ⟨rfl, fun entry heq => ?_⟩
    generalize r.pc = pc at hgoes
    cases hgoes <;> cases heq
  | @sendPosted c entry hpc =>
    obtain ⟨connections, heq⟩ := postTo_eq s c (.asyncSendInThread entry)
    exact ⟨by rw [heq], nofun⟩
  | @stopClosed c hpc hconnection =>
    obtain ⟨connections, heq⟩ := postTo_eq s c (.closeInThread {})
    exact ⟨by rw [heq], nofun⟩
  | _ => exact ⟨rfl, nofun⟩

theorem label_eq_remove {s : Client μ} {r : Routine μ} {entry : Entry μ}
    (h : s.label r = .remove entry) : r.pc = .pop entry := by
  unfold label at h
  split at h
  · cases h
  · split at h
    · cases h
    · split at h <;> cases h
  · split at h <;> cases h
  · rename_i hpc
    cases h
    exact hpc
  all_goals cases h

theorem mem_outstanding_of_pop {s : Client μ} {r : Routine μ} {entry : Entry μ}
    (hr : r ∈ s.routines) (hpc : r.pc = .pop entry) : entry ∈ s.outstanding := by
  obtain ⟨i, hi⟩ := List.getElem?_of_mem hr
  obtain ⟨rest, hsum, -⟩ := List.exists_sum_map_set (fun r : Routine μ => r.pc.carries) hi
  rw [outstanding, hsum, hpc, add_assoc]
  exact Multiset.mem_add.mpr (.inl (Multiset.mem_singleton_self entry))

/-! ## Only written messages are removed -/

/-- Whoever wins the exchange has copied the front, and no message is under way. -/
def SendsAlone (s : Client μ) (a : ClientAction μ) : Prop :=
  ∀ entry ∈ s.taking a, s.view.MayTake entry

instance [DecidableEq μ] (s : Client μ) (a : ClientAction μ) : Decidable (s.SendsAlone a) :=
  inferInstanceAs (Decidable (∀ entry ∈ s.taking a, s.view.MayTake entry))

/-- Every removed message has been written, and every `on_sent` under way finds the message of its
own write at the front. -/
structure RemovesWritten (s : Client μ) : Prop where
  written : ∀ entry ∈ s.removed, entry ∈ s.written
  front : ∀ r ∈ s.routines, ∀ entry, r.pc = .pop entry → s.queue.head? = some entry

structure Delivering (s : Client μ) : Prop where
  valid : s.Valid
  exact : StopAndWait.Exact s.view
  removed : ∀ entry ∈ s.removed, entry ∈ s.written
  popping : ∀ r ∈ s.routines, ∀ entry, r.pc = .pop entry → entry ∈ s.written

theorem delivering_init : Delivering ({} : Client μ) where
  valid := valid_init
  exact := ⟨nofun, Nat.zero_le 1⟩
  removed := nofun
  popping := nofun

theorem Delivering.removesWritten {s : Client μ} (h : s.Delivering) : s.RemovesWritten where
  written := h.removed
  front _ hr entry hpc :=
    h.exact.front entry (Multiset.mem_add.mpr (.inr (mem_outstanding_of_pop hr hpc)))

theorem Delivering.spawn {s t : Client μ} {pc : Pc μ} (h : s.Delivering)
    (hvalid : (t.spawn pc).Valid) (hview : (t.spawn pc).view = s.view)
    (hwritten : t.written = s.written) (hroutines : t.routines = s.routines)
    (hpc : ∀ entry, pc ≠ .pop entry) : (t.spawn pc).Delivering := by
  have hremoved : (t.spawn pc).removed = s.removed := congrArg (·.removed) hview
  refine ⟨hvalid, hview ▸ h.exact, fun entry he => ?_, fun r hr entry heq => ?_⟩
  · rw [hremoved] at he
    exact hwritten ▸ h.removed entry he
  · simp only [Client.spawn, hroutines, List.mem_append, List.mem_singleton] at hr
    rcases hr with hr | rfl
    · exact hwritten ▸ h.popping r hr entry heq
    · exact absurd heq (hpc entry)

theorem Delivering.step {p : MessageParser ω} {s s' : Client μ} {a : ClientAction μ}
    (h : s.Delivering) (halone : s.SendsAlone a) (hsteps : Steps p s a s') : s'.Delivering := by
  have hvalid : s'.Valid := valid_step h.valid hsteps
  cases hsteps with
  | send => exact h.spawn hvalid (view_spawn rfl (fun _ => rfl) rfl rfl) rfl rfl nofun
  | stop => exact h.spawn hvalid (view_spawn rfl (fun _ => rfl) rfl rfl) rfl rfl nofun
  | @routine i r t r' hr hadvances =>
    have hstep := view_advance h.valid hr hadvances
    obtain ⟨hwritten, hnotPop⟩ := hadvances.not_pop
    refine ⟨hvalid, ?_, fun entry he => ?_, fun x hx entry hpc => ?_⟩
    · exact h.exact.step hstep fun entry hlabel => halone entry (taking_eq_some hr hlabel)
    · show entry ∈ t.written
      rw [hwritten]
      rcases h.exact.mem_removed hstep he with hold | hlabel
      · exact h.removed entry hold
      · exact h.popping r (List.mem_of_getElem? hr) entry (label_eq_remove hlabel)
    · show entry ∈ t.written
      rw [hwritten]
      rcases List.mem_or_eq_of_mem_set hx with hx | rfl
      · exact h.popping x hx entry hpc
      · exact absurd hpc (hnotPop entry)
  | connected => exact h.spawn hvalid (view_spawn rfl (fun _ => rfl) rfl rfl) rfl rfl nofun
  | connectFailed => exact h.spawn hvalid (view_spawn rfl (fun _ => rfl) rfl rfl) rfl rfl nofun
  | retryExpired => exact h.spawn hvalid (view_spawn rfl (fun _ => rfl) rfl rfl) rfl rfl nofun
  | @context c e k r hthrown hk hhandles =>
    obtain ⟨claimed, outstanding, lost, hview, hclaimed, houtstanding, -⟩ :=
      view_context hk hhandles
    have hexact : StopAndWait.Exact (s.deliver c r).view := by
      rw [hview]
      refine h.exact.step (.lose claimed outstanding hclaimed ?_) nofun
      show outstanding ≤ s.outstanding
      rw [houtstanding]
      exact Multiset.le_add_right _ _
    have hdelivers := delivers s c hhandles
    generalize s.deliver c r = t at hvalid hexact hdelivers ⊢
    cases hdelivers with
    | silent => exact ⟨hvalid, hexact, h.removed, h.popping⟩
    | closed =>
      refine ⟨hvalid, hexact, h.removed, fun x hx entry hpc => ?_⟩
      rcases List.mem_append.mp hx with hx | hx
      · exact h.popping x hx entry hpc
      · rw [List.mem_singleton.mp hx] at hpc
        cases hpc
    | sent sent =>
      refine ⟨hvalid, hexact, fun entry he => ?_, fun x hx entry hpc => ?_⟩
      · exact List.mem_append_left _ (h.removed entry he)
      · rcases List.mem_append.mp hx with hx | hx
        · exact List.mem_append_left _ (h.popping x hx entry hpc)
        · rw [List.mem_singleton.mp hx] at hpc
          cases hpc
          exact List.mem_append_right _ (List.mem_singleton_self _)

end Client

/-- Where the exchange is won only with nothing under way, `handle_sent_message` removes exactly the
messages whose write has completed. -/
theorem removesWritten_of_sendsAlone (p : MessageParser ω) (schedule : List (ClientAction μ))
    (s : Client μ)
    (halone : (clientMachine p μ).Meets (fun s a _ => s.SendsAlone a) {} schedule)
    (hrun : (clientMachine p μ).run {} schedule = some s) : s.RemovesWritten := by
  have hkeep : ∀ s a s', s.Delivering → s.SendsAlone a → (clientMachine p μ).step s a = some s' →
      s'.Delivering := by
    intro s a s' h hok hstep
    exact h.step hok (Client.steps_of_step hstep)
  have h := Machine.run_invariant hkeep Client.delivering_init halone hrun
  exact h.removesWritten

/-- The next `n` steps of a routine. -/
def routineSteps (i n : Nat) : List (ClientAction Nat) := List.replicate n (.routine i)

/-- The first connection is registered and waits for bytes. -/
def connectedSchedule : List (ClientAction Nat) :=
  List.flatten [[.connected], routineSteps 0 5, [.context 0 (.task 0 {})]]

/-- The first connection breaks while the first message is being written, and a second message
waits.  Both are written and removed on the next connection. -/
def brokenSchedule : List (ClientAction Nat) :=
  List.flatten [connectedSchedule, [.send 7 none], routineSteps 1 7, [.context 0 (.task 0 {})],
    [.send 8 none], routineSteps 2 2, [.context 0 (.write 0 (some .brokenPipe))], routineSteps 3 4,
    [.connected], routineSteps 4 8, [.context 1 (.task 0 {}), .context 1 (.task 0 {})],
    [.context 1 (.write 0 none)], routineSteps 5 8,
    [.context 1 (.task 0 {}), .context 1 (.write 0 none)], routineSteps 6 5]

theorem removesWritten_brokenSchedule :
    ∃ s, (clientMachine (idleParser Nat) Nat).run {} brokenSchedule = some s ∧
      s.handed.map Entry.seq = [0, 0, 1] ∧ s.removed.map Entry.seq = [0, 1] ∧
      s.RemovesWritten := by
  have hrun : ((clientMachine (idleParser Nat) Nat).run {} brokenSchedule).map
      (fun s => (s.handed.map Entry.seq, s.removed.map Entry.seq)) = some ([0, 0, 1], [0, 1]) := by
    decide
  obtain ⟨s, hs, hseqs⟩ := Option.map_eq_some_iff.mp hrun
  obtain ⟨hhanded, hremoved⟩ := Prod.mk.inj hseqs
  exact ⟨s, hs, hhanded, hremoved,
    removesWritten_of_sendsAlone (idleParser Nat) brokenSchedule s (by decide) hs⟩

/-- The connection reports EOF while the first message is being written.  The message is sent again
on the next connection, and both writes succeed: the second one removes another message. -/
def resentSchedule : List (ClientAction Nat) :=
  List.flatten [connectedSchedule, [.send 7 none], routineSteps 1 7, [.context 0 (.task 0 {})],
    [.send 8 none], routineSteps 2 2, [.context 0 (.read 0 (some .eof) [] {})], routineSteps 3 4,
    [.connected], routineSteps 4 8, [.context 1 (.task 0 {}), .context 1 (.task 0 {})],
    [.context 0 (.write 0 none)], routineSteps 5 8, [.context 1 (.write 0 none)], routineSteps 6 1]

theorem removes_unwritten :
    ¬ ∀ (schedule : List (ClientAction Nat)) (s : Client Nat),
      (clientMachine (idleParser Nat) Nat).run {} schedule = some s → s.RemovesWritten := by
  intro h
  have hrun : ((clientMachine (idleParser Nat) Nat).run {} resentSchedule).map
      (fun s => (s.removed.map Entry.seq, s.written.map Entry.seq)) = some ([0, 1], [0, 0]) := by
    decide
  obtain ⟨s, hs, hseqs⟩ := Option.map_eq_some_iff.mp hrun
  obtain ⟨hremoved, hwritten⟩ := Prod.mk.inj hseqs
  have hone : 1 ∈ s.removed.map Entry.seq := by rw [hremoved]; decide
  obtain ⟨entry, hentry, hseq⟩ := List.mem_map.mp hone
  have hmem := List.mem_map_of_mem (f := Entry.seq) ((h _ s hs).written entry hentry)
  rw [hwritten, hseq] at hmem
  revert hmem
  decide

end MsgpackRpc.Clients
