import Mathlib.Algebra.GroupWithZero.Nat
import Mathlib.Algebra.Order.BigOperators.Group.List
import Mathlib.Data.Multiset.OrderedMonoid
import MsgpackRpc.Clients.Client
import MsgpackRpc.Lib.StopAndWait
import MsgpackRpc.Lib.Update

/-!
# The sender as a stop-and-wait queue

Seen from the queue of messages, a client is a stop-and-wait queue: winning the exchange of
`is_sending_` claims what was copied from the front, `async_send` hands it over, and it comes back
with `on_sent`.
-/

namespace MsgpackRpc.Transport

variable {ω μ : Type}

def Task.message : Task μ → Option μ
  | .asyncSendInThread message => some message
  | _ => none

/-- The messages that `async_send` has accepted and whose write has not completed. -/
def Connection.sends (c : Connection μ) : Multiset μ :=
  ↑(c.tasks.filterMap Task.message) + ↑(c.writes.map Prod.fst)

theorem Connection.sends_post (c : Connection μ) (task : Task μ) :
    (c.post task).sends = c.sends + (task.message.toList : Multiset μ) := by
  have hmessages : (c.tasks ++ [task]).filterMap Task.message =
      c.tasks.filterMap Task.message ++ task.message.toList := by
    rw [List.filterMap_append]
    cases task <;> rfl
  rw [Connection.sends, Connection.sends, Connection.post, hmessages, ← Multiset.coe_add,
    add_right_comm]

theorem Connection.sends_asyncSendInThread (c : Connection μ) (message : μ) :
    (c.asyncSendInThread message).sends = c.sends + {message} := by
  simp only [Connection.sends, Connection.asyncSendInThread, List.map_append, ← Multiset.coe_add,
    ← add_assoc]
  rfl

theorem Connection.sends_eraseTask {c : Connection μ} {i : Nat} {task : Task μ}
    (h : c.tasks[i]? = some task) :
    c.sends = { c with tasks := c.tasks.eraseIdx i }.sends +
      (task.message.toList : Multiset μ) := by
  have hperm := (List.perm_cons_eraseIdx h).filterMap Task.message
  have hmessages : (c.tasks.filterMap Task.message : Multiset μ) =
      (task.message.toList : Multiset μ) +
        ((c.tasks.eraseIdx i).filterMap Task.message : List μ) := by
    rw [Multiset.coe_add, Multiset.coe_eq_coe]
    cases task <;> exact hperm
  rw [Connection.sends, hmessages, add_assoc, add_comm]
  rfl

theorem Connection.sends_eraseWrite {c : Connection μ} {i : Nat} {write : μ × SocketState}
    (h : c.writes[i]? = some write) :
    c.sends = { c with writes := c.writes.eraseIdx i }.sends + {write.1} := by
  have hmessages : (c.writes.map Prod.fst : Multiset μ) =
      ((c.writes.eraseIdx i).map Prod.fst : List μ) + {write.1} := by
    rw [Multiset.add_comm, Multiset.singleton_add, Multiset.cons_coe, Multiset.coe_eq_coe]
    exact (List.perm_cons_eraseIdx h).map Prod.fst
  rw [Connection.sends, hmessages, ← add_assoc]
  rfl

/-- A handler keeps the messages of the connection; only a completed write gives one back, to
`on_sent` if it was successful. -/
theorem Connection.Handles.sends {p : MessageParser ω} {c : Connection μ} {e : Event}
    {r : Handled ω μ} (h : Handles p c e r) :
    ∃ lost : Multiset μ,
      c.sends = ↑(r.callbacks.filterMap Callback.sentMessage) + r.connection.sends + lost ∧
        (lost = 0 ∨ ∃ i error, e = .write i (some error)) := by
  cases h with
  | readNext htask =>
    exact ⟨0, by rw [sends_eraseTask htask, add_zero]; exact add_comm _ _, .inl rfl⟩
  | send htask =>
    refine ⟨0, ?_, .inl rfl⟩
    rw [sends_eraseTask htask, sends_asyncSendInThread, add_zero]
    exact (zero_add _).symm
  | close htask hcalls hcloses =>
    refine ⟨0, ?_, .inl rfl⟩
    rw [sends_eraseTask htask, add_zero, add_comm]
    cases hcloses <;> rfl
  | readInvalid hread hadmits hcalls hinvalid hcloses =>
    refine ⟨0, ?_, .inl rfl⟩
    rw [List.filterMap_append, filterMap_received _ (fun _ => rfl), List.nil_append, add_zero]
    cases hcloses <;> exact (zero_add _).symm
  | readBytes reads =>
    refine ⟨0, ?_, .inl rfl⟩
    rw [filterMap_received _ (fun _ => rfl), add_zero]
    exact (zero_add _).symm
  | written hwrite =>
    refine ⟨0, ?_, .inl rfl⟩
    rw [sends_eraseWrite hwrite, add_zero, add_comm]
    rfl
  | @writeAborted _ message _ hwrite =>
    refine ⟨{message}, ?_, .inr ⟨_, _, rfl⟩⟩
    rw [sends_eraseWrite hwrite]
    exact congrArg (· + _) (zero_add _).symm
  | @writeClosedByPeer _ _ message _ hwrite =>
    refine ⟨{message}, ?_, .inr ⟨_, _, rfl⟩⟩
    rw [sends_eraseWrite hwrite]
    exact congrArg (· + _) (zero_add _).symm
  | @writeFailed _ _ message _ hwrite =>
    refine ⟨{message}, ?_, .inr ⟨_, _, rfl⟩⟩
    rw [sends_eraseWrite hwrite]
    exact congrArg (· + _) (zero_add _).symm
  | _ => exact ⟨0, ((add_zero _).trans (zero_add _)).symm, .inl rfl⟩

end MsgpackRpc.Transport

namespace MsgpackRpc.Clients

open MsgpackRpc.Transport

variable {ω μ : Type}

/-- What a routine has taken and not handed over; for a connection that is gone it will not be
handed over to anybody. -/
def Pc.claims (up : Nat → Bool) : Pc μ → Multiset (Entry μ)
  | .asyncSend c entry => if up c then {entry} else 0
  | _ => 0

/-- What a routine has handed over and not posted yet, or is about to remove. -/
def Pc.carries : Pc μ → Multiset (Entry μ)
  | .postSend _ entry | .pop entry => {entry}
  | _ => 0

def Pc.releases : Pc μ → Nat
  | .storeSent => 1
  | _ => 0

namespace Client

def claimed (s : Client μ) : Multiset (Entry μ) :=
  (s.routines.map fun r => r.pc.claims s.processing).sum

def outstanding (s : Client μ) : Multiset (Entry μ) :=
  (s.routines.map fun r => r.pc.carries).sum + (s.connections.map Connection.sends).sum

def releasing (s : Client μ) : Nat := (s.routines.map fun r => r.pc.releases).sum

/-- The sender of a client, seen from its queue. -/
def view (s : Client μ) : StopAndWait.State (Entry μ) where
  queue := s.queue
  pushed := s.pushed
  removed := s.removed
  handed := s.handed
  taken := s.isSending
  claimed := s.claimed
  outstanding := s.outstanding
  releasing := s.releasing

/-- What the next step of a routine is in this view. -/
def label (s : Client μ) (r : Routine μ) : StopAndWait.Label (Entry μ) :=
  match r.pc with
  | .push message id => .push { seq := s.pushed.length, message, id }
  | .exchangeSending c entry =>
      if s.isSending then .quiet else if s.processing c then .take entry else .block
  | .asyncSend c entry => if s.processing c then .hand entry else .drop entry
  | .pop entry => .remove entry
  | .storeSent => .release
  | .handleDisconnection => .clear
  | _ => .quiet

/-! ## A step of a routine is a step of the view -/

theorem processing_set {s t : Client μ} {c : Nat} {k k' : Connection (Entry μ)}
    (hk : s.connections[c]? = some k) (hconnections : t.connections = s.connections.set c k')
    (c' : Nat) :
    t.processing c' = if c = c' then k'.state.isProcessing else s.processing c' := by
  have hc : c < s.connections.length := (List.getElem?_eq_some_iff.mp hk).1
  unfold processing
  rw [hconnections]
  by_cases heq : c = c'
  · rw [if_pos heq, ← heq, List.getElem?_set_self hc]
    rfl
  · rw [if_neg heq, List.getElem?_set_ne heq]

theorem processing_postTo (s : Client μ) (c : Nat) (task : Transport.Task (Entry μ)) :
    (s.postTo c task).processing = s.processing := by
  unfold postTo
  split
  · rename_i k hk
    funext c'
    rw [processing_set hk rfl]
    split
    · rename_i heq
      subst heq
      rw [processing, hk]
      rfl
    · rfl
  · rfl

theorem sum_sends_postTo {s : Client μ} {c : Nat} (hc : c < s.connections.length)
    (task : Transport.Task (Entry μ)) :
    ((s.postTo c task).connections.map Connection.sends).sum =
      (s.connections.map Connection.sends).sum + (task.message.toList : Multiset (Entry μ)) := by
  have hk : s.connections[c]? = some s.connections[c] := List.getElem?_eq_getElem hc
  obtain ⟨rest, hbefore, hafter⟩ := List.exists_sum_map_set Connection.sends hk
  unfold postTo
  rw [hk]
  show ((s.connections.set c _).map Connection.sends).sum = _
  rw [hafter, hbefore, Connection.sends_post, add_right_comm]

/-- Registering a connection changes nothing for the routines that have fetched another one. -/
theorem claims_append (s : Client μ) (k : Connection (Entry μ)) {pc : Pc μ}
    (htarget : ∀ c, pc.target = some c → c < s.connections.length) :
    pc.claims (processing { s with connections := s.connections ++ [k] }) =
      pc.claims s.processing := by
  cases pc with
  | asyncSend c entry =>
    have hc : c < s.connections.length := htarget c rfl
    have hprocessing : processing { s with connections := s.connections ++ [k] } c =
        s.processing c := by
      rw [processing, processing, List.getElem?_append_left hc]
    rw [Pc.claims, Pc.claims, hprocessing]
  | _ => rfl

theorem Goes.label {s : Client μ} {r : Routine μ} {pc : Pc μ} (h : Goes s r.pc pc) :
    s.label r = .quiet := by
  unfold Client.label
  generalize r.pc = pc at h
  cases h with
  | exchangeLost hsending => simp only [hsending, if_true]
  | _ => rfl

/-- A step that only reads holds nothing, before and after it. -/
theorem Goes.holds_nothing {s : Client μ} {pc pc' : Pc μ} (h : Goes s pc pc') (up : Nat → Bool) :
    pc'.claims up = pc.claims up ∧ pc'.carries = pc.carries ∧ pc'.releases = pc.releases := by
  cases h <;> exact ⟨rfl, rfl, rfl⟩

theorem view_advance {s t : Client μ} {i : Nat} {r r' : Routine μ} (hvalid : s.Valid)
    (hr : s.routines[i]? = some r) (h : Advances s r t r') :
    StopAndWait.Step s.view (s.label r) (t.withRoutines (s.routines.set i r')).view := by
  obtain ⟨rc, hclaimed, hclaimed'⟩ :=
    List.exists_sum_map_set (fun r : Routine μ => r.pc.claims s.processing) hr
  obtain ⟨ro, hcarried, hcarried'⟩ := List.exists_sum_map_set (fun r : Routine μ => r.pc.carries) hr
  obtain ⟨rr, hreleasing, hreleasing'⟩ :=
    List.exists_sum_map_set (fun r : Routine μ => r.pc.releases) hr
  have hbefore : s.view =
      { queue := s.queue, pushed := s.pushed, removed := s.removed, handed := s.handed
        taken := s.isSending
        claimed := r.pc.claims s.processing + rc
        outstanding := r.pc.carries + (ro + (s.connections.map Connection.sends).sum)
        releasing := r.pc.releases + rr } := by
    simp only [view, claimed, outstanding, releasing, hclaimed, hcarried, hreleasing, add_assoc]
  have hafter (t : Client μ) (r' : Routine μ)
      (hclaims : ∀ x ∈ s.routines.set i r',
        x.pc.claims t.processing = x.pc.claims s.processing) :
      (t.withRoutines (s.routines.set i r')).view =
        { queue := t.queue, pushed := t.pushed, removed := t.removed, handed := t.handed
          taken := t.isSending
          claimed := r'.pc.claims s.processing + rc
          outstanding := r'.pc.carries + (ro + (t.connections.map Connection.sends).sum)
          releasing := r'.pc.releases + rr } := by
    have hsum : ((s.routines.set i r').map fun x => x.pc.claims t.processing) =
        (s.routines.set i r').map fun x => x.pc.claims s.processing :=
      List.map_congr_left hclaims
    rw [← hclaimed', ← hsum, ← add_assoc, ← hcarried', ← hreleasing']
    rfl
  cases h with
  | @goes pc hgoes =>
    obtain ⟨hclaims, hcarries, hreleases⟩ := hgoes.holds_nothing s.processing
    rw [hbefore, hafter _ _ fun _ _ => rfl, hgoes.label]
    simp only [hclaims, hcarries, hreleases]
    exact .quiet
  | @exchangeWon c entry hpc hsending =>
    rw [hbefore, hafter]
    · simp only [label, hpc, hsending, Bool.false_eq_true, if_false, Pc.claims, Pc.carries,
        Pc.releases]
      cases s.processing c with
      | true =>
        rw [if_pos rfl, if_pos rfl, Multiset.singleton_add, zero_add]
        exact .take entry rfl
      | false =>
        rw [if_neg Bool.false_ne_true, if_neg Bool.false_ne_true]
        exact .block rfl
    · exact fun _ _ => rfl
  | pushed entry hpc hseq =>
    rw [hbefore, hafter]
    · simp only [label, hpc, ← hseq, Pc.claims, Pc.carries, Pc.releases]
      exact .push entry
    · exact fun _ _ => rfl
  | @sendAccepted c entry hpc hprocessing =>
    rw [hbefore, hafter]
    · simp only [label, hpc, hprocessing, if_true, Pc.claims, Pc.carries, Pc.releases, zero_add,
        Multiset.singleton_add]
      exact .hand entry _ rfl
    · exact fun _ _ => rfl
  | @sendDropped c entry hpc hprocessing =>
    rw [hbefore, hafter]
    · simp only [label, hpc, hprocessing, Bool.false_eq_true, if_false, Pc.claims, Pc.carries,
        Pc.releases]
      exact .drop entry
    · exact fun _ _ => rfl
  | @sendPosted c entry hpc =>
    have hc : c < s.connections.length :=
      hvalid.routines r (List.mem_of_getElem? hr) c (by rw [hpc]; rfl)
    have hsame : (s.postTo c (.asyncSendInThread entry)).processing = s.processing :=
      processing_postTo _ _ _
    rw [hbefore, hafter]
    · -- the entry moves from the routine to the connection
      have hmoves : {entry} + (ro + (s.connections.map Connection.sends).sum) =
          0 + (ro + ((s.connections.map Connection.sends).sum + {entry})) := by
        rw [zero_add, add_left_comm, add_comm (s.connections.map Connection.sends).sum]
      rw [sum_sends_postTo hc]
      simp only [label, hpc, Pc.claims, Pc.carries, Pc.releases]
      rw [hmoves]
      unfold postTo
      split <;> exact .quiet
    · exact fun _ _ => by rw [hsame]
  | @popped entry front queue hpc hqueue =>
    rw [hbefore, hafter]
    · simp only [label, hpc, Pc.claims, Pc.carries, Pc.releases, zero_add, add_comm 1 rr,
        Multiset.singleton_add]
      exact .remove entry front queue _ hqueue rfl
    · exact fun _ _ => rfl
  | storedSent hpc =>
    rw [hbefore, hafter]
    · simp only [label, hpc, Pc.claims, Pc.carries, Pc.releases, zero_add, add_comm 1 rr]
      exact .release rr rfl
    · exact fun _ _ => rfl
  | disconnected hpc =>
    rw [hbefore, hafter]
    · simp only [label, hpc, Pc.claims, Pc.carries, Pc.releases]
      exact .clear
    · exact fun _ _ => rfl
  | registered hpc =>
    rw [hbefore, hafter]
    · have hsends : ((s.connections ++ [startedConnection (Entry μ)]).map Connection.sends).sum =
          (s.connections.map Connection.sends).sum := by
        rw [List.map_append, List.sum_append]
        exact add_zero _
      simp only [label, hpc, Pc.claims, Pc.carries, Pc.releases, hsends]
      exact .quiet
    · intro x hx
      refine claims_append s _ fun c hc => ?_
      rcases List.mem_or_eq_of_mem_set hx with hx | rfl
      · exact hvalid.routines x hx c hc
      · cases hc
  | @stopClosed c hpc hconnection =>
    have hc : c < s.connections.length := hvalid.connection c hconnection
    have hsame : (s.postTo c (.closeInThread {})).processing = s.processing :=
      processing_postTo _ _ _
    rw [hbefore, hafter]
    · have hsends := sum_sends_postTo hc (.closeInThread {})
      rw [show ((Task.closeInThread {} : Transport.Task (Entry μ)).message.toList :
        Multiset (Entry μ)) = 0 from rfl, add_zero] at hsends
      simp only [label, hpc, Pc.claims, Pc.carries, Pc.releases, hsends]
      unfold postTo
      split <;> exact .quiet
    · intro x _
      show x.pc.claims (s.postTo c (.closeInThread {})).processing = _
      rw [hsame]
  | stopped hpc hstopped =>
    rw [hbefore, hafter]
    · simp only [label, hpc, Pc.claims, Pc.carries, Pc.releases]
      exact .quiet
    · exact fun _ _ => rfl
  | _ =>
    rename_i hpc
    rw [hbefore, hafter]
    · simp only [label, hpc, Pc.claims, Pc.carries, Pc.releases]
      exact .quiet
    · exact fun _ _ => rfl

theorem view_spawn {s t : Client μ} {pc : Pc μ} (hview : t.view = s.view)
    (hclaims : ∀ up, pc.claims up = 0) (hcarries : pc.carries = 0) (hreleases : pc.releases = 0) :
    (t.spawn pc).view = s.view := by
  rw [← hview]
  simp only [view, claimed, outstanding, releasing, spawn, List.map_append, List.sum_append,
    List.map_cons, List.map_nil, List.sum_singleton, hclaims, hcarries, hreleases, add_zero]
  rfl

/-! ## A handler only loses, or gives back -/

theorem claims_le {up up' : Nat → Bool} (h : ∀ c, up' c = true → up c = true) (pc : Pc μ) :
    pc.claims up' ≤ pc.claims up := by
  cases pc with
  | asyncSend c entry =>
    simp only [Pc.claims]
    by_cases hc : up' c = true
    · rw [if_pos hc, if_pos (h c hc)]
    · rw [if_neg hc]
      exact Multiset.zero_le _
  | _ => exact le_refl _

/-- A handler may stop its connection and starts none. -/
theorem processing_handled {p : MessageParser ω} {s t : Client μ} {c : Nat}
    {k : Connection (Entry μ)} {e : Connection.Event} {r : Handled ω (Entry μ)}
    (hk : s.connections[c]? = some k) (h : Connection.Handles p k e r)
    (hconnections : t.connections = s.connections.set c r.connection) (c' : Nat) :
    (t.processing c' = true → s.processing c' = true) ∧
      (r.connection.state = .processing → t.processing c' = s.processing c') := by
  rw [processing_set hk hconnections]
  by_cases heq : c = c'
  · subst heq
    rw [if_pos rfl, processing, hk]
    rcases h.state_eq with hsame | hstopped
    · rw [hsame]
      exact ⟨id, fun _ => rfl⟩
    · rw [hstopped]
      exact ⟨nofun, nofun⟩
  · rw [if_neg heq]
    exact ⟨id, fun _ => rfl⟩

theorem view_context {p : MessageParser ω} {s : Client μ} {c : Nat} {k : Connection (Entry μ)}
    {e : Connection.Event} {r : Handled ω (Entry μ)} (hk : s.connections[c]? = some k)
    (h : Connection.Handles p k e r) :
    ∃ claimed outstanding lost : Multiset (Entry μ),
      (s.deliver c r).view = { s.view with claimed, outstanding } ∧
        claimed ≤ s.claimed ∧ s.outstanding = outstanding + lost ∧
        (r.connection.state = .processing → claimed = s.claimed) ∧
        (lost = 0 ∨ ∃ i error, e = .write i (some error)) := by
  obtain ⟨lost, hsends, hlost⟩ := h.sends
  obtain ⟨rest, hbefore, hafter⟩ := List.exists_sum_map_set Connection.sends hk
  let up : Nat → Bool := processing { s with connections := s.connections.set c r.connection }
  have hup (c' : Nat) : (up c' = true → s.processing c' = true) ∧
      (r.connection.state = .processing → up c' = s.processing c') :=
    processing_handled hk h rfl c'
  refine ⟨(s.routines.map fun x => x.pc.claims up).sum,
    (s.routines.map fun x => x.pc.carries).sum +
      (r.callbacks.filterMap Callback.sentMessage : Multiset (Entry μ)) +
      (r.connection.sends + rest), lost, ?_, ?_, ?_, fun hstate => ?_, hlost⟩
  · have hdelivers := delivers s c h
    generalize s.deliver c r = t at hdelivers ⊢
    cases hdelivers with
    | silent hsent =>
      rw [hsent, ← hafter, Multiset.coe_nil, add_zero]
      rfl
    | closed hsent =>
      rw [hsent, ← hafter]
      simp only [view, claimed, outstanding, releasing, List.map_append, List.sum_append,
        List.map_cons, List.map_nil, List.sum_singleton, Pc.claims, Pc.carries, Pc.releases,
        add_zero, Multiset.coe_nil]
      rfl
    | sent entry hsent =>
      rw [hsent, ← hafter]
      simp only [view, claimed, outstanding, releasing, List.map_append, List.sum_append,
        List.map_cons, List.map_nil, List.sum_singleton, Pc.claims, Pc.carries, Pc.releases,
        add_zero, Multiset.coe_singleton]
      rfl
  · exact List.sum_le_sum fun x _ => claims_le (fun c' => (hup c').1) x.pc
  · rw [outstanding, hbefore, hsends]
    simp only [add_assoc, add_comm lost rest]
  · have hsame : up = s.processing := funext fun c' => (hup c').2 hstate
    rw [hsame]
    rfl

end Client

end MsgpackRpc.Clients
