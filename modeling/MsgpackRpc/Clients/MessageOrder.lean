import MsgpackRpc.Clients.MessageDelivery

/-!
# The order of the messages on a connection that stays up

While no connection stops and every write succeeds, nothing is lost and `is_sending_` is cleared by
`handle_sent_message` only; the order then depends on nothing but the age of what the winner of the
exchange has copied.
-/

namespace MsgpackRpc.Clients

open MsgpackRpc.Transport

variable {ω μ : Type}

def Pc.isClosing : Pc μ → Bool
  | .closedLoad _ | .closedReset _ | .handleDisconnection => true
  | _ => false

/-- The completion of a write that has not succeeded. -/
def ClientAction.isFailedWrite : ClientAction μ → Bool
  | .context _ (.write _ (some _)) => true
  | _ => false

namespace Client

/-- A step after which every connection is up, and which is no failure of a write. -/
def StaysUp (a : ClientAction μ) (s' : Client μ) : Prop :=
  (∀ k ∈ s'.connections, k.state = .processing) ∧ a.isFailedWrite = false

instance (a : ClientAction μ) (s' : Client μ) : Decidable (StaysUp a s') :=
  inferInstanceAs (Decidable (_ ∧ _))

/-- Whoever wins the exchange has copied a message that is still the front. -/
def TakesFront (s : Client μ) (a : ClientAction μ) : Prop :=
  ∀ entry ∈ s.taking a, s.queue.head? = some entry

instance [DecidableEq μ] (s : Client μ) (a : ClientAction μ) : Decidable (s.TakesFront a) :=
  inferInstanceAs (Decidable (∀ entry ∈ s.taking a, s.queue.head? = some entry))

/-- The messages given to `async_send` are a prefix of the pushed ones, each of them once; at most
one waits for its `on_sent`; and no `pop` meets an empty queue. -/
structure SendsInOrder (s : Client μ) : Prop where
  order : s.handed <+: s.pushed
  once : s.handed.Nodup
  single : s.outstanding.card ≤ 1
  popping : ∀ r ∈ s.routines, ∀ entry, r.pc = .pop entry → s.queue ≠ []

/-- What a run keeps whose connections stay up. -/
structure Serving (s : Client μ) : Prop where
  valid : s.Valid
  serial : StopAndWait.Serial s.view
  up : ∀ k ∈ s.connections, k.state = .processing
  closing : ∀ r ∈ s.routines, r.pc.isClosing = false
  seqs : s.pushed.map Entry.seq = List.range s.pushed.length

theorem serving_init : Serving ({} : Client μ) where
  valid := valid_init
  serial :=
    { front := nofun
      single := Nat.zero_le 1
      pushed := rfl
      taken := rfl
      handed := ⟨[], rfl, rfl⟩ }
  up := nofun
  closing := nofun
  seqs := rfl

theorem Serving.sendsInOrder {s : Client μ} (h : s.Serving) : s.SendsInOrder := by
  have hpushed : s.pushed.Nodup := List.Nodup.of_map Entry.seq (h.seqs ▸ List.nodup_range)
  refine ⟨h.serial.handed_prefix, ?_, ?_, fun r hr entry hpc hempty => ?_⟩
  · exact h.serial.handed_prefix.sublist.nodup hpushed
  · have hsingle := h.serial.single
    rw [StopAndWait.State.underWay, Multiset.card_add] at hsingle
    exact Nat.le_trans (Nat.le_add_left _ _) hsingle
  · have hmem := mem_outstanding_of_pop hr hpc
    have hfront := h.serial.front entry (Multiset.mem_add.mpr (.inr hmem))
    rw [show s.view.queue = [] from hempty] at hfront
    cases hfront

theorem Serving.spawn {s t : Client μ} {pc : Pc μ} (h : s.Serving) (hvalid : (t.spawn pc).Valid)
    (hview : (t.spawn pc).view = s.view) (hconnections : t.connections = s.connections)
    (hroutines : t.routines = s.routines) (hpc : pc.isClosing = false) :
    (t.spawn pc).Serving := by
  refine ⟨hvalid, hview ▸ h.serial, ?_, fun r hr => ?_, ?_⟩
  · exact hconnections ▸ h.up
  · simp only [Client.spawn, hroutines, List.mem_append, List.mem_singleton] at hr
    rcases hr with hr | rfl
    · exact h.closing r hr
    · exact hpc
  · have hpushed : (t.spawn pc).pushed = s.pushed := congrArg (·.pushed) hview
    rw [hpushed]
    exact h.seqs

theorem Serving.isLossless {s : Client μ} {r : Routine μ} (h : s.Serving) (hr : r ∈ s.routines) :
    (s.label r).isLossless = true := by
  have hup {c : Nat} (htarget : r.pc.target = some c) : s.processing c = true := by
    have hc := h.valid.routines r hr c htarget
    have hstate := h.up _ (List.getElem_mem hc)
    rw [processing, List.getElem?_eq_getElem hc]
    exact State.isProcessing_eq_true.mpr hstate
  have hclosing := h.closing r hr
  unfold label
  cases hpc : r.pc with
  | exchangeSending c entry =>
    simp only [hup (c := c) (by rw [hpc]; rfl), if_true]
    split <;> rfl
  | asyncSend c entry =>
    simp only [hup (c := c) (by rw [hpc]; rfl), if_true]
    rfl
  | handleDisconnection =>
    rw [hpc] at hclosing
    cases hclosing
  | _ => rfl

/-- A closing routine comes from a closing routine. -/
theorem Advances.isClosing {s t : Client μ} {r r' : Routine μ} (h : Advances s r t r')
    (hr : r.pc.isClosing = false) : r'.pc.isClosing = false := by
  cases h with
  | goes hgoes =>
    generalize r.pc = pc at hgoes hr
    cases hgoes with
    | closed => cases hr
    | _ => rfl
  | reset hpc =>
    rw [hpc] at hr
    cases hr
  | _ => rfl

theorem Advances.seqs {s t : Client μ} {r r' : Routine μ} (h : Advances s r t r')
    (hs : s.pushed.map Entry.seq = List.range s.pushed.length) :
    t.pushed.map Entry.seq = List.range t.pushed.length := by
  cases h with
  | pushed entry hpc hseq =>
    rw [List.map_append, List.length_append, hs, List.length_singleton, List.range_succ, ← hseq]
    rfl
  | @sendPosted c entry hpc =>
    obtain ⟨connections, heq⟩ := postTo_eq s c (.asyncSendInThread entry)
    rw [heq]
    exact hs
  | @stopClosed c hpc hconnection =>
    obtain ⟨connections, heq⟩ := postTo_eq s c (.closeInThread {})
    rw [heq]
    exact hs
  | _ => exact hs

theorem Serving.step {p : MessageParser ω} {s s' : Client μ} {a : ClientAction μ} (h : s.Serving)
    (hup : StaysUp a s') (hfront : s.TakesFront a) (hsteps : Steps p s a s') : s'.Serving := by
  have hvalid : s'.Valid := valid_step h.valid hsteps
  cases hsteps with
  | send => exact h.spawn hvalid (view_spawn rfl (fun _ => rfl) rfl rfl) rfl rfl rfl
  | stop => exact h.spawn hvalid (view_spawn rfl (fun _ => rfl) rfl rfl) rfl rfl rfl
  | @routine i r t r' hr hadvances =>
    have hmem : r ∈ s.routines := List.mem_of_getElem? hr
    refine ⟨hvalid, ?_, hup.1, fun x hx => ?_, hadvances.seqs h.seqs⟩
    · exact h.serial.step (view_advance h.valid hr hadvances) (h.isLossless hmem)
        fun entry hlabel => hfront entry (taking_eq_some hr hlabel)
    · rcases List.mem_or_eq_of_mem_set hx with hx | rfl
      · exact h.closing x hx
      · exact hadvances.isClosing (h.closing r hmem)
  | connected => exact h.spawn hvalid (view_spawn rfl (fun _ => rfl) rfl rfl) rfl rfl rfl
  | connectFailed => exact h.spawn hvalid (view_spawn rfl (fun _ => rfl) rfl rfl) rfl rfl rfl
  | retryExpired => exact h.spawn hvalid (view_spawn rfl (fun _ => rfl) rfl rfl) rfl rfl rfl
  | @context c e k r hthrown hk hhandles =>
    obtain ⟨claimed, outstanding, lost, hview, -, houtstanding, hclaimed, hlost⟩ :=
      view_context hk hhandles
    have hc : c < s.connections.length := (List.getElem?_eq_some_iff.mp hk).1
    have hstate : r.connection.state = .processing := by
      refine hup.1 _ ?_
      show r.connection ∈ s.connections.set c r.connection
      exact List.mem_set hc r.connection
    have hnone : lost = 0 := by
      rcases hlost with hnone | ⟨j, error, rfl⟩
      · exact hnone
      · cases hup.2
    have hsame : (s.deliver c r).view = s.view := by
      rw [hview, hclaimed hstate, show outstanding = s.outstanding by
        rw [houtstanding, hnone, add_zero]]
      rfl
    have hserial : StopAndWait.Serial (s.deliver c r).view := hsame ▸ h.serial
    have hdelivers := delivers s c hhandles
    have hallUp := hup.1
    generalize s.deliver c r = t at hvalid hserial hallUp hdelivers ⊢
    cases hdelivers with
    | silent => exact ⟨hvalid, hserial, hallUp, h.closing, h.seqs⟩
    | closed _ hstopped =>
      rw [hstopped] at hstate
      cases hstate
    | sent sent =>
      refine ⟨hvalid, hserial, hallUp, fun x hx => ?_, h.seqs⟩
      rcases List.mem_append.mp hx with hx | hx
      · exact h.closing x hx
      · rw [List.mem_singleton.mp hx]
        rfl

end Client

/-- On connections that stay up, the queue is sent in order as long as the winners of the exchange
have copied what is still the front. -/
theorem sendsInOrder_of_takesFront (p : MessageParser ω) (schedule : List (ClientAction μ))
    (s : Client μ)
    (hup : (clientMachine p μ).Meets (fun _ a s' => Client.StaysUp a s') {} schedule)
    (hfront : (clientMachine p μ).Meets (fun s a _ => s.TakesFront a) {} schedule)
    (hrun : (clientMachine p μ).run {} schedule = some s) : s.SendsInOrder := by
  have hkeep : ∀ s a s', s.Serving → Client.StaysUp a s' ∧ s.TakesFront a →
      (clientMachine p μ).step s a = some s' → s'.Serving := by
    intro s a s' h ⟨hstays, htakes⟩ hstep
    exact h.step hstays htakes (Client.steps_of_step hstep)
  have h := Machine.run_invariant hkeep Client.serving_init (hup.and hfront) hrun
  exact h.sendsInOrder

/-- A second message waits while the first one is written, and is sent after it. -/
def sentSchedule : List (ClientAction Nat) :=
  List.flatten [connectedSchedule, [.send 7 none], routineSteps 1 7, [.send 8 none],
    routineSteps 2 2, [.context 0 (.task 0 {}), .context 0 (.write 0 none)], routineSteps 3 8,
    [.context 0 (.task 0 {}), .context 0 (.write 0 none)], routineSteps 4 5]

theorem sendsInOrder_sentSchedule :
    ∃ s, (clientMachine (idleParser Nat) Nat).run {} sentSchedule = some s ∧
      s.handed = [{ seq := 0, message := 7, id := none }, { seq := 1, message := 8, id := none }] ∧
      s.SendsInOrder := by
  have hrun : ((clientMachine (idleParser Nat) Nat).run {} sentSchedule).map (·.handed) =
      some [{ seq := 0, message := 7, id := none }, { seq := 1, message := 8, id := none }] := by
    decide
  obtain ⟨s, hs, hhanded⟩ := Option.map_eq_some_iff.mp hrun
  exact ⟨s, hs, hhanded, sendsInOrder_of_takesFront (idleParser Nat) sentSchedule s (by decide)
    (by decide) hs⟩

/-- One thread has copied the first message and stops before the exchange; meanwhile another thread
sends this message, it is written and removed, and the flag is free again. -/
def staleSchedule : List (ClientAction Nat) :=
  List.flatten [connectedSchedule, [.send 7 none], routineSteps 1 4, [.send 8 none],
    routineSteps 2 7, [.context 0 (.task 0 {}), .context 0 (.write 0 none)], routineSteps 3 2,
    routineSteps 1 2]

theorem sends_twice :
    ¬ ∀ (schedule : List (ClientAction Nat)) (s : Client Nat),
      (clientMachine (idleParser Nat) Nat).Meets (fun _ a s' => Client.StaysUp a s') {} schedule →
      (clientMachine (idleParser Nat) Nat).run {} schedule = some s → s.SendsInOrder := by
  intro h
  have hrun : ((clientMachine (idleParser Nat) Nat).run {} staleSchedule).map (·.handed) =
      some [{ seq := 0, message := 7, id := none }, { seq := 0, message := 7, id := none }] := by
    decide
  obtain ⟨s, hs, hhanded⟩ := Option.map_eq_some_iff.mp hrun
  have honce := (h staleSchedule s (by decide) hs).once
  rw [hhanded] at honce
  revert honce
  decide

end MsgpackRpc.Clients
