import MsgpackRpc.Clients.MessageSource
import MsgpackRpc.Clients.SenderProgress
import MsgpackRpc.Clients.SingleConnection

/-!
# Clients that go on

A client whose connection stays up does not stand still before it is stopped: when nothing of it has
a step left, everything that has been pushed has been written.
-/

namespace MsgpackRpc.Clients

open MsgpackRpc.Transport

variable {ω μ : Type}

/-- The routine is between its push, or its store of `is_sending_`, and the exchange. -/
def Pc.inSendNext : Pc μ → Bool
  | .loadSending | .getConnection | .next _ | .exchangeSending _ _ => true
  | _ => false

/-- The steps that need no caller and are no failure. -/
def ClientAction.succeeds : ClientAction μ → Bool
  | .routine _ | .connected | .retryExpired => true
  | .context _ e => e.succeeds
  | .send _ _ | .stop | .connectFailed => false

namespace Client

/-- What a run keeps whose connection stays up, besides what it keeps of the queue. -/
structure Live (s : Client μ) : Prop where
  token : s.OneToken
  unclosed : s.closedBy = []
  connections : s.thrown = none → ∀ k ∈ s.connections, k.Live
  woken : s.queue ≠ [] → s.connection ≠ none → s.isSending = true ∨ s.Any Pc.inSendNext

theorem live_init : Live ({} : Client μ) where
  token := oneToken_init
  unclosed := rfl
  connections _ := nofun
  woken hne := absurd rfl hne

/-! ## A step -/

theorem Advances.thrown {s t : Client μ} {r r' : Routine μ} (h : Advances s r t r') :
    t.thrown = s.thrown := by
  cases h with
  | @sendPosted c entry =>
    obtain ⟨connections, heq⟩ := s.postTo_eq c (.asyncSendInThread entry)
    rw [heq]
  | @stopClosed c =>
    obtain ⟨connections, heq⟩ := s.postTo_eq c (.closeInThread {})
    rw [heq]
  | _ => rfl

theorem Advances.live_connections {s t : Client μ} {r r' : Routine μ} (h : Advances s r t r')
    (hlive : ∀ k ∈ s.connections, k.Live) : ∀ k ∈ t.connections, k.Live := by
  intro k hk
  obtain ⟨c, hc⟩ := List.getElem?_of_mem hk
  rcases h.connection hc with ⟨before, hbefore, heq⟩ | ⟨-, rfl⟩
  · have hlive := hlive before (List.mem_of_getElem? hbefore)
    rcases heq with rfl | ⟨task, htask, rfl⟩
    · exact hlive
    · exact hlive.post htask
  · exact ⟨rfl, rfl, nofun, nofun, rfl⟩

/-- The queue, or the flag, wakes somebody up in every step of a routine. -/
theorem woken_advance {s t : Client μ} {i : Nat} {r r' : Routine μ} (h : s.Live)
    (hclosing : r.pc.isClosing = false) (hr : s.routines[i]? = some r)
    (hadvances : Advances s r t r') (hqueue : t.queue ≠ []) (hconnection : t.connection ≠ none) :
    t.isSending = true ∨ (t.withRoutines (s.routines.set i r')).Any Pc.inSendNext := by
  have hi : i < s.routines.length := (List.getElem?_eq_some_iff.mp hr).1
  have goes (hpc : r'.pc.inSendNext = true) :
      t.isSending = true ∨ (t.withRoutines (s.routines.set i r')).Any Pc.inSendNext :=
    .inr ⟨r', List.mem_set hi r', hpc⟩
  -- a routine that is outside of `send_next` wakes nobody up
  have stays (hpc : r.pc.inSendNext = false) (hsending : t.isSending = s.isSending)
      (hqueue : s.queue ≠ []) (hconnection : s.connection ≠ none) :
      t.isSending = true ∨ (t.withRoutines (s.routines.set i r')).Any Pc.inSendNext := by
    rw [hsending]
    refine (h.woken hqueue hconnection).imp_right fun hany => hany.of_set hr fun hin => ?_
    rw [hpc] at hin
    cases hin
  cases hadvances with
  | @goes pc hgoes =>
    generalize r.pc = before at hgoes hclosing stays
    cases hgoes with
    | sendingBusy hsending | exchangeLost hsending => exact .inl hsending
    | sendingFree | connection | message => exact goes rfl
    | noConnection hnone => exact absurd hnone hconnection
    | noMessage hempty => exact absurd hempty hqueue
    | _ => exact stays rfl rfl hqueue hconnection
  | pushed | storedSent | registered => exact goes rfl
  | exchangeWon => exact .inl rfl
  | @sendPosted c entry hpc =>
    obtain ⟨connections, heq⟩ := s.postTo_eq c (.asyncSendInThread entry)
    rw [heq] at hqueue hconnection stays ⊢
    exact stays (by rw [hpc]; rfl) rfl hqueue hconnection
  | popped hpc hfront =>
    refine stays (by rw [hpc]; rfl) rfl ?_ hconnection
    rw [hfront]
    exact List.cons_ne_nil _ _
  | reset hpc | disconnected hpc =>
    rw [hpc] at hclosing
    cases hclosing
  | stopClosed => exact absurd rfl hconnection
  | stopped hpc => exact stays (by rw [hpc]; rfl) rfl hqueue hconnection
  | sendAccepted hpc | sendDropped hpc => exact stays (by rw [hpc]; rfl) rfl hqueue hconnection
  | _ =>
    rename_i hpc
    exact stays (by rw [hpc]; rfl) rfl hqueue hconnection

theorem Live.spawn {s t : Client μ} {pc : Pc μ} (h : s.Live) (htoken : (t.spawn pc).OneToken)
    (hclosedBy : t.closedBy = s.closedBy) (hthrown : t.thrown = s.thrown)
    (hconnections : t.connections = s.connections) (hconnection : t.connection = s.connection)
    (hqueue : t.queue = s.queue) (hsending : t.isSending = s.isSending)
    (hroutines : t.routines = s.routines) : (t.spawn pc).Live where
  token := htoken
  unclosed := hclosedBy.trans h.unclosed
  connections hnone k hk := h.connections (hthrown ▸ hnone) k (hconnections ▸ hk)
  woken hne hsome := by
    have hany : s.Any Pc.inSendNext → (t.spawn pc).Any Pc.inSendNext := fun hany =>
      hany.mono (by rw [← hroutines]; exact List.subset_append_left _ _)
    refine ((h.woken (hqueue ▸ hne) (hconnection ▸ hsome)).imp (fun hs => ?_) hany)
    exact hsending.trans hs

theorem Live.step {p : MessageParser ω} {s s' : Client μ} {a : ClientAction μ} (h : s.Live)
    (hserving : s.Serving) (hserving' : s'.Serving) (hsteps : Steps p s a s') : s'.Live := by
  have htoken (honce : s'.closedBy = []) : s'.OneToken :=
    h.token.step (honce ▸ List.nodup_nil) hsteps
  cases hsteps with
  | routine hr hadvances =>
    have hclosing := hserving.closing _ (List.mem_of_getElem? hr)
    have hopen := hadvances.valid.2.1.trans h.unclosed
    refine ⟨htoken hopen, hopen, fun hthrown => ?_, fun hne hsome => ?_⟩
    · exact hadvances.live_connections (h.connections (hadvances.thrown.symm.trans hthrown))
    · have hwoken := woken_advance h hclosing hr hadvances hne hsome
      exact hwoken
  | @context c e k r hthrown hk hhandles =>
    have hc : c < s.connections.length := (List.getElem?_eq_some_iff.mp hk).1
    have hup : r.connection.state = .processing := by
      refine hserving'.up _ ?_
      show r.connection ∈ s.connections.set c r.connection
      exact List.mem_set hc r.connection
    have hlive := h.connections hthrown
    have hafter (hnone : r.thrown = none) : ∀ k' ∈ s.connections.set c r.connection, k'.Live := by
      intro k' hk'
      rcases List.mem_or_eq_of_mem_set hk' with hk' | rfl
      · exact hlive k' hk'
      · exact (hlive k (List.mem_of_getElem? hk)).handles hhandles hup hnone
    have hdelivers := delivers s c hhandles
    generalize s.deliver c r = t at htoken hdelivers ⊢
    cases hdelivers with
    | closed _ hstopped =>
      rw [hup] at hstopped
      cases hstopped
    | silent => exact ⟨htoken h.unclosed, h.unclosed, hafter, h.woken⟩
    | sent =>
      refine ⟨htoken h.unclosed, h.unclosed, hafter, fun hne hsome => ?_⟩
      exact (h.woken hne hsome).imp_right fun hany => hany.mono (List.subset_append_left _ _)
  | _ => exact h.spawn (htoken h.unclosed) rfl rfl rfl rfl rfl rfl rfl

/-! ## Standing still -/

/-- Every call has returned, and no attempt to connect and no timer is left. -/
structure Rests (s : Client μ) : Prop where
  routines : ∀ r ∈ s.routines, r.pc = .done
  connecting : s.connecting = 0
  retryArmed : s.retryArmed = false

theorem Rests.sum_eq_zero {s : Client μ} (h : s.Rests) {M : Type} [AddCommMonoid M] (w : Pc μ → M)
    (hdone : w .done = 0) : (s.routines.map fun r => w r.pc).sum = 0 := by
  refine List.sum_eq_zero fun x hx => ?_
  obtain ⟨r, hr, rfl⟩ := List.mem_map.mp hx
  rw [h.routines r hr, hdone]

/-- A client that rests and has not been stopped is connected. -/
theorem Rests.connected {s : Client μ} (h : s.Rests) (hlive : s.Live) (hsingle : s.tokens ≤ 1)
    (hrunning : s.isStopped = false) : s.connection ≠ none ∧ ∃ k, s.connections = [k] := by
  have hone := hlive.token.exactly hrunning
  rw [held, h.sum_eq_zero _ rfl, attempts, h.connecting, h.retryArmed] at hone
  have hsome : s.connection ≠ none := by
    intro hnone
    rw [hnone] at hone
    cases hone
  obtain ⟨c, hc⟩ := Option.ne_none_iff_exists'.mp hsome
  have hlt := hlive.token.valid.connection c hc
  refine ⟨hsome, List.length_eq_one_iff.mp ?_⟩
  unfold tokens at hsingle
  omega

/-- When a client rests and its connection has nothing to write, all that has been pushed has been
given to the connection, and has been written. -/
theorem Rests.drained {s : Client μ} (h : s.Rests) (hlive : s.Live) (hserving : s.Serving)
    (hconnection : s.connection ≠ none) {k : Connection (Entry μ)} (hk : s.connections = [k])
    (htasks : k.tasks = []) (hwrites : k.writes = []) :
    s.handed = s.pushed ∧ s.pending = 0 := by
  have hnone : s.view.outstanding = 0 := by
    show s.outstanding = 0
    rw [outstanding, h.sum_eq_zero _ rfl, hk, List.map_singleton, List.sum_singleton,
      Connection.sends, htasks, hwrites]
    rfl
  have hunderWay : s.view.underWay = 0 := by
    rw [StopAndWait.State.underWay, hnone, add_zero]
    exact h.sum_eq_zero _ rfl
  have hfree : s.isSending = false := by
    have htaken := hserving.serial.taken
    rw [hunderWay, Multiset.card_zero, show s.view.releasing = 0 from h.sum_eq_zero _ rfl] at htaken
    exact Bool.toNat_eq_zero.mp htaken
  have hqueue : s.queue = [] := by
    by_contra hne
    rcases hlive.woken hne hconnection with hsending | ⟨r, hr, hpc⟩
    · rw [hfree] at hsending
      cases hsending
    · rw [h.routines r hr] at hpc
      cases hpc
  constructor
  · obtain ⟨l, hl, hhanded⟩ := hserving.serial.handed
    rw [hnone, Multiset.coe_eq_zero] at hl
    have hpushed := hserving.serial.pushed
    rw [hl, List.append_nil] at hhanded
    rw [show s.view.queue = [] from hqueue, List.append_nil, ← hhanded] at hpushed
    exact hpushed.symm
  · rw [pending, h.sum_eq_zero _ rfl, hk, List.map_singleton, List.sum_singleton,
      Connection.queued, htasks]
    rfl

end Client

/-! ## What is left to do -/

/-- The steps that are left to a routine, with those of the connections that it leads to. -/
def Pc.work : Pc μ → Nat
  | .push _ _ => 20
  | .loadSending => 9
  | .getConnection => 8
  | .next _ => 7
  | .exchangeSending _ _ => 6
  | .asyncSend _ _ => 5
  | .postSend _ _ => 4
  | .pop _ => 1
  | .storeSent => 10
  | .closedLoad _ | .failureLoad => 17
  | .closedReset _ | .asyncWait => 16
  | .handleDisconnection => 15
  | .asyncConnect => 14
  | .connectionLoad => 12
  | .connectionRegister => 11
  | .stopExchange => 4
  | .stopClose => 3
  | .stopCancel => 1
  | .done => 0

namespace Client

/-- The steps that are left to a client before it rests: a message in the queue makes `send_next`
run once more. -/
def work (s : Client μ) : Nat :=
  (s.routines.map fun r => r.pc.work).sum + 10 * s.queue.length + 13 * s.connecting +
    15 * s.retryArmed.toNat + (s.connections.map (Connection.work 1)).sum

theorem work_withRoutines (s : Client μ) (routines : List (Routine μ)) :
    (s.withRoutines routines).work =
      (routines.map fun r => r.pc.work).sum + (s.withRoutines []).work := by
  simp only [work, withRoutines, List.map_nil, List.sum_nil]
  omega

theorem work_spawn (s : Client μ) (pc : Pc μ) : (s.spawn pc).work = s.work + pc.work := by
  simp only [work, spawn, List.map_append, List.sum_append, List.map_singleton, List.sum_singleton]
  omega

theorem work_postTo_le (s : Client μ) (c : Nat) (task : Transport.Task (Entry μ)) :
    (s.postTo c task).work ≤ s.work + task.work 1 := by
  unfold postTo
  split
  · rename_i k hk
    obtain ⟨rest, hbefore, hafter⟩ := List.exists_sum_map_set (Connection.work 1) hk
    simp only [work, hbefore, hafter, Connection.work_post]
    omega
  · exact Nat.le_add_right _ _

theorem Goes.work_lt {s : Client μ} {pc pc' : Pc μ} (h : Goes s pc pc') : pc'.work < pc.work := by
  cases h <;> simp only [Pc.work] <;> omega

/-- A step of a routine leaves less to do. -/
theorem Advances.work_lt {s t : Client μ} {r r' : Routine μ} (h : Advances s r t r') :
    (t.withRoutines []).work + r'.pc.work < (s.withRoutines []).work + r.pc.work := by
  have posted (c : Nat) (task : Transport.Task (Entry μ)) :
      ((s.postTo c task).withRoutines []).work ≤ (s.withRoutines []).work + task.work 1 := by
    have hle := (s.withRoutines []).work_postTo_le c task
    have hsame : (s.withRoutines []).postTo c task = (s.postTo c task).withRoutines [] := by
      unfold postTo withRoutines
      split <;> rename_i hk <;> simp only [hk]
    exact hsame ▸ hle
  cases h with
  | goes hgoes => exact Nat.add_lt_add_left hgoes.work_lt _
  | @sendPosted c entry hpc =>
    have hle := posted c (.asyncSendInThread entry)
    rw [hpc]
    simp only [Pc.work, Task.work] at hle ⊢
    omega
  | @stopClosed c hpc =>
    have hle := posted c (.closeInThread {})
    rw [hpc]
    simp only [Pc.work, Task.work] at hle ⊢
    exact Nat.lt_of_le_of_lt (Nat.add_le_add_right hle 1) (by omega)
  | popped hpc hqueue =>
    rw [hpc]
    simp only [work, withRoutines, Pc.work, hqueue, List.length_cons]
    omega
  | registered hpc =>
    rw [hpc]
    simp only [work, withRoutines, Pc.work, List.map_append, List.sum_append, List.map_singleton,
      List.sum_singleton, Connection.work, startedConnection, Task.work, List.length_nil]
    omega
  | pushed _ hpc =>
    rw [hpc]
    simp only [work, withRoutines, Pc.work, List.length_append, List.length_singleton]
    omega
  | waiting hpc | stopCancelled hpc =>
    rw [hpc]
    have hone := Bool.toNat_le s.retryArmed
    simp only [work, withRoutines, Pc.work, Bool.toNat_true, Bool.toNat_false]
    omega
  | exchangeWon hpc | sendAccepted hpc | sendDropped hpc | stopped hpc =>
    rw [hpc]
    simp only [work, withRoutines, Pc.work]
    omega
  | _ =>
    rename_i hpc
    rw [hpc]
    simp only [work, withRoutines, Pc.work]
    omega

variable {p : MessageParser ω} {s s' : Client μ}

/-- So does a step outside of the handlers of a connection. -/
theorem Steps.work_lt {a : ClientAction μ} (h : Steps p s a s') (hok : a.succeeds = true)
    (hown : ∀ c e, a ≠ .context c e) : s'.work < s.work := by
  cases h with
  | send | stop | connectFailed => cases hok
  | @routine i r t r' hr hadvances =>
    obtain ⟨rest, hbefore, hafter⟩ := List.exists_sum_map_set (fun r : Routine μ => r.pc.work) hr
    have hlt := hadvances.work_lt
    have hself : s.work = (s.withRoutines s.routines).work := rfl
    rw [work_withRoutines, hafter, hself, work_withRoutines s, hbefore]
    omega
  | connected hconnecting =>
    rw [work_spawn]
    simp only [work, Pc.work]
    omega
  | retryExpired harmed =>
    rw [work_spawn]
    simp only [work, Pc.work, harmed, Bool.toNat_true, Bool.toNat_false]
    omega
  | context => exact absurd rfl (hown _ _)

end Client

end MsgpackRpc.Clients
