import Mathlib.Algebra.GroupWithZero.Nat
import Mathlib.Algebra.Order.Group.Multiset
import MsgpackRpc.Lib.Update
import MsgpackRpc.Messages.Unpacker
import MsgpackRpc.Servers.ServerConnection

/-!
# The order of the responses

On a connection that stays live, `is_sending_` stands for exactly one message that has been taken
out of the queue and whose `on_sent` has not stored `false` yet.  Whoever takes a message has found
the flag clear, so the messages go to the connection one after another in the order of the queue.
-/

namespace MsgpackRpc.Servers

open MsgpackRpc.Transport
open MsgpackRpc.Messages (ParsedMessage formatParser)

variable {μ : Type}

def isSend : Transport.Task μ → Bool
  | .asyncSendInThread _ => true
  | _ => false

/-- The messages posted to the connection whose write has not completed. -/
def pendingSends (c : Connection μ) : Nat :=
  c.tasks.countP isSend + c.writes.length

/-- A routine that has taken a message, or that tells that it has been sent, stands for
`is_sending_`. -/
def Pc.weight : Pc μ → Nat
  | .asyncSend _ | .postSend _ | .storeSent => 1
  | _ => 0

/-- The message that a routine has taken and not given to the connection yet. -/
def Pc.claims : Pc μ → Multiset μ
  | .asyncSend message => {message}
  | _ => 0

/-- The message of the routine waits for its `on_sent`. -/
def Pc.waits : Pc μ → Nat
  | .postSend _ => 1
  | _ => 0

/-- The routine is between its push, or its store of `is_sending_`, and the end of
`send_next_if_exists`. -/
def Pc.inSendNext : Pc μ → Bool
  | .sendNext | .asyncSend _ | .postSend _ => true
  | _ => false

/-- The response that has been returned to the routine and not been pushed yet. -/
def Pc.pushes : Pc μ → Multiset μ
  | .push response => {response}
  | _ => 0

def ServerAction.isWriteFailure : ServerAction μ → Bool
  | .context (.write _ (some _)) => true
  | _ => false

/-- What the routines of a connection contribute to a sum. -/
def total {M : Type} [AddCommMonoid M] (w : Pc μ → M) (routines : List (Routine μ)) : M :=
  (routines.map fun r => w r.pc).sum

namespace ServerConnection

/-- The connection stays live in a step: it goes on processing and no write fails. -/
def staysLive (a : ServerAction μ) (t : ServerConnection μ) : Bool :=
  t.connection.state == .processing && !a.isWriteFailure

def claimed (s : ServerConnection μ) : Multiset μ := total Pc.claims s.routines

def pushing (s : ServerConnection μ) : Multiset μ := total Pc.pushes s.routines

/-- The messages given to `async_send` that wait for their `on_sent`. -/
def awaiting (s : ServerConnection μ) : Nat :=
  total Pc.waits s.routines + pendingSends s.connection

/-- What `is_sending_` stands for. -/
def underWay (s : ServerConnection μ) : Nat :=
  total Pc.weight s.routines + pendingSends s.connection

/-- A server connection serves its requests: each is dispatched once, each response is pushed once,
and the pushed responses go to the connection in order, one at a time and without a standstill. -/
structure Serves (s : ServerConnection μ) : Prop where
  dispatched : (s.dispatched ++ s.invoked).Perm (s.received.filterMap Invocation.ofMessage)
  answered : ↑s.answered = ↑s.pushed + s.pushing
  inOrder : s.handed <+: s.pushed
  oneAwaiting : s.awaiting ≤ 1
  woken : s.queue ≠ [] → (∀ r ∈ s.routines, r.pc.inSendNext = false) → s.isSending = true
  underWay : s.isSending = true → s.underWay = 1

/-- What every run keeps of the invocations and the responses. -/
structure Accounts (s : ServerConnection μ) : Prop where
  dispatched : (s.dispatched ++ s.invoked).Perm (s.received.filterMap Invocation.ofMessage)
  answered : ↑s.answered = ↑s.pushed + s.pushing

/-- What a run keeps whose connection stays live. -/
structure Serial (s : ServerConnection μ) : Prop where
  flag : s.isSending.toNat = s.underWay
  order : ∃ l : List μ, ↑l = s.claimed ∧ s.pushed = s.handed ++ (l ++ s.queue)
  woken : s.queue ≠ [] → s.isSending = true ∨ ∃ r ∈ s.routines, r.pc = .sendNext

theorem accounts_init : Accounts ({} : ServerConnection μ) where
  dispatched := List.Perm.refl []
  answered := rfl

theorem serial_init : Serial ({} : ServerConnection μ) where
  flag := rfl
  order := ⟨[], rfl, rfl⟩
  woken hne := absurd rfl hne

end ServerConnection

/-! ## One step -/

section Total

variable {M : Type} [AddCommMonoid M] (w : Pc μ → M)

theorem total_append (routines : List (Routine μ)) (r : Routine μ) :
    total w (routines ++ [r]) = total w routines + w r.pc := by
  rw [total, List.map_append, List.sum_append, List.map_singleton, List.sum_singleton]
  rfl

/-- What the routines contribute when one of them goes on. -/
theorem exists_total_set {routines : List (Routine μ)} {i : Nat} {r : Routine μ}
    (hr : routines[i]? = some r) :
    ∃ rest, total w routines = w r.pc + rest ∧
      ∀ pc, total w (routines.set i { r with pc }) = w pc + rest := by
  obtain ⟨rest, hsum, hset⟩ := List.exists_sum_map_set (fun r : Routine μ => w r.pc) hr
  exact ⟨rest, hsum, fun pc => hset { r with pc }⟩

theorem total_set_eq {routines : List (Routine μ)} {i : Nat} {r : Routine μ} {pc : Pc μ}
    (hr : routines[i]? = some r) (hpc : w pc = w r.pc) :
    total w (routines.set i { r with pc }) = total w routines := by
  obtain ⟨rest, hsum, hset⟩ := exists_total_set w hr
  rw [hset, hsum, hpc]

end Total

/-- At most as many messages are claimed as routines stand for `is_sending_`. -/
theorem card_claims_le (routines : List (Routine μ)) :
    (total Pc.claims routines).card ≤ total Pc.weight routines := by
  induction routines with
  | nil => exact Nat.le_refl 0
  | cons r routines ih =>
    have hone : r.pc.claims.card ≤ r.pc.weight := by
      cases r.pc <;> simp [Pc.claims, Pc.weight]
    rw [total, total, List.map_cons, List.map_cons, List.sum_cons, List.sum_cons, Multiset.card_add]
    exact Nat.add_le_add hone ih

@[simp] theorem pushes_pc (invocation : Invocation) : (invocation.pc : Pc μ).pushes = 0 := by
  cases invocation <;> rfl

@[simp] theorem claims_pc (invocation : Invocation) : (invocation.pc : Pc μ).claims = 0 := by
  cases invocation <;> rfl

@[simp] theorem weight_pc (invocation : Invocation) : (invocation.pc : Pc μ).weight = 0 := by
  cases invocation <;> rfl

namespace ServerConnection

theorem Advances.accounts {s t : ServerConnection μ} {pc pc' : Pc μ} (h : Advances s pc t pc') :
    t.routines = s.routines ∧ t.dispatched = s.dispatched ∧ t.invoked = s.invoked ∧
      t.received = s.received ∧ t.answered = s.answered ∧
      ∃ l : List μ, t.pushed = s.pushed ++ l ∧ pc.pushes = ↑l + pc'.pushes := by
  cases h with
  | pushed response => exact ⟨rfl, rfl, rfl, rfl, rfl, [response], rfl, rfl⟩
  | _ => exact ⟨rfl, rfl, rfl, rfl, rfl, [], (List.append_nil _).symm, rfl⟩

theorem accounts_step {p : MessageParser ParsedMessage} {s s' : ServerConnection μ}
    {a : ServerAction μ} (h : s.Accounts) (hstep : Steps p s a s') : s'.Accounts := by
  have hanswered := h.answered
  cases hstep with
  | asyncClose => exact ⟨h.dispatched, h.answered⟩
  | dispatch hinvoked =>
    refine ⟨?_, ?_⟩
    · -- the invocation only moves from one list to the other
      have hperm := List.perm_cons_eraseIdx hinvoked
      rw [List.append_assoc]
      exact ((hperm.symm).append_left _).trans h.dispatched
    · simp only [pushing, total_append, pushes_pc, add_zero]
      exact hanswered
  | @answer i r request response hr hpc =>
    refine ⟨h.dispatched, ?_⟩
    obtain ⟨rest, hsum, hset⟩ := exists_total_set Pc.pushes hr
    rw [hpc] at hsum
    simp only [pushing, hset, ← Multiset.coe_add] at hanswered ⊢
    rw [hanswered, hsum, add_assoc, show (Pc.call request : Pc μ).pushes = 0 from rfl, zero_add,
      add_comm rest]
    rfl
  | processed hr interrupted hpc =>
    refine ⟨h.dispatched, ?_⟩
    simp only [pushing]
    rw [total_set_eq Pc.pushes hr]
    · exact hanswered
    · rcases hpc with ⟨request, hpc⟩ | ⟨notification, hpc⟩ <;> rw [hpc] <;> rfl
  | @routine i r t pc hr hadvances =>
    obtain ⟨hroutines, hdispatched, hinvoked, hreceived, htanswered, l, hpushed, hpushes⟩ :=
      hadvances.accounts
    obtain ⟨rest, hsum, hset⟩ := exists_total_set Pc.pushes hr
    refine ⟨?_, ?_⟩
    · simp only [hdispatched, hinvoked, hreceived]
      exact h.dispatched
    · simp only [pushing, hset, htanswered, hpushed, ← Multiset.coe_add] at hanswered ⊢
      rw [hanswered, hsum, hpushes, add_assoc, add_assoc]
  | context hr hdelivers =>
    cases hdelivers with
    | silent =>
      refine ⟨?_, h.answered⟩
      rw [← List.append_assoc, List.filterMap_append]
      exact h.dispatched.append_right _
    | sent =>
      refine ⟨h.dispatched, ?_⟩
      simp only [pushing, total_append]
      rw [show (Pc.storeSent : Pc μ).pushes = 0 from rfl, add_zero]
      exact hanswered

theorem pendingSends_post (c : Connection μ) (task : Transport.Task μ) :
    pendingSends (c.post task) = pendingSends c + if isSend task then 1 else 0 := by
  simp only [pendingSends, Connection.post, List.countP_append, List.countP_singleton]
  omega

theorem countP_isSend_closesFor (messages : List ParsedMessage) :
    (closesFor messages : List (Transport.Task μ)).countP isSend = 0 := by
  rw [List.countP_eq_zero]
  intro task hmem
  rw [eq_of_mem_closesFor hmem]
  exact Bool.false_ne_true

/-- On a connection that stays live, a message stops waiting when its write completes. -/
theorem pendingSends_of_handles {p : MessageParser ParsedMessage} {c : Connection μ}
    {e : Connection.Event} {r : Handled ParsedMessage μ} (h : Connection.Handles p c e r)
    (hstate : r.connection.state = .processing)
    (hwrite : (ServerAction.context e : ServerAction μ).isWriteFailure = false) :
    pendingSends r.connection + (if e.isWritten then 1 else 0) = pendingSends c := by
  have hcount {i : Nat} {task : Transport.Task μ} (htask : c.tasks[i]? = some task) :=
    List.countP_eraseIdx isSend htask
  cases h with
  | readNext htask =>
    have hnone := hcount htask
    simp only [isSend, Bool.false_eq_true, if_false] at hnone
    simp only [pendingSends, Connection.asyncReadNext, Connection.Event.isWritten,
      Bool.false_eq_true, if_false]
    omega
  | send htask =>
    have hone := hcount htask
    simp only [isSend, if_true] at hone
    simp only [pendingSends, Connection.asyncSendInThread, List.length_append,
      List.length_singleton, Connection.Event.isWritten, Bool.false_eq_true, if_false]
    omega
  | close _ _ hcloses =>
    -- a live connection has not been closed
    rw [hcloses.state_eq] at hstate
    cases hstate
  | readClosedByPeer => cases hstate
  | readInvalid _ _ _ _ hcloses =>
    rw [hcloses.state_eq] at hstate
    cases hstate
  | writeAborted => cases hwrite
  | writeClosedByPeer => cases hwrite
  | writeFailed => cases hwrite
  | written hwritten =>
    have hlength := (List.perm_cons_eraseIdx hwritten).length_eq
    rw [List.length_cons] at hlength
    simp only [pendingSends, Connection.Event.isWritten, if_true]
    omega
  | _ => rfl

theorem exists_sendNext_set {routines : List (Routine μ)} {i : Nat} {r : Routine μ} (y : Routine μ)
    (hr : routines[i]? = some r) (hpc : r.pc ≠ .sendNext)
    (h : ∃ x ∈ routines, x.pc = .sendNext) : ∃ x ∈ routines.set i y, x.pc = .sendNext :=
  (List.exists_mem_set hr y h).resolve_left hpc

theorem mem_set_self {routines : List (Routine μ)} {i : Nat} {r : Routine μ} (y : Routine μ)
    (hr : routines[i]? = some r) : y ∈ routines.set i y :=
  List.mem_of_getElem? (List.getElem?_set_self (List.getElem?_eq_some_iff.mp hr).1)

theorem serial_routine {s t : ServerConnection μ} {i : Nat} {r : Routine μ} {pc : Pc μ}
    (h : s.Serial) (hr : s.routines[i]? = some r) (hadvances : Advances s r.pc t pc)
    (hlive : t.connection.state = .processing) :
    Serial { t with routines := s.routines.set i { r with pc } } := by
  obtain ⟨weights, hweight, hsetWeight⟩ := exists_total_set Pc.weight hr
  obtain ⟨claims, hclaims, hsetClaims⟩ := exists_total_set Pc.claims hr
  have hflag := h.flag
  have hone : s.isSending.toNat ≤ 1 := Bool.toNat_le _
  have hcard := card_claims_le s.routines
  obtain ⟨l, hl, hpushed⟩ := h.order
  unfold underWay at hflag
  unfold claimed at hl
  generalize hpc : r.pc = before at hadvances hweight hclaims
  have hgone (hne : before ≠ .sendNext) (y : Routine μ)
      (hwoken : s.isSending = true ∨ ∃ x ∈ s.routines, x.pc = .sendNext) :
      s.isSending = true ∨ ∃ x ∈ s.routines.set i y, x.pc = .sendNext :=
    hwoken.imp_right (exists_sendNext_set y hr (hpc ▸ hne))
  have hquiet (hnoWeight : pc.weight = before.weight) :
      s.isSending.toNat = total Pc.weight (s.routines.set i { r with pc }) +
        pendingSends s.connection := by
    rw [hflag, hsetWeight, hweight, hnoWeight]
  have hunclaimed (hnoClaim : pc.claims = before.claims) :
      ↑l = total Pc.claims (s.routines.set i { r with pc }) := by
    rw [hl, hsetClaims, hclaims, hnoClaim]
  cases hadvances with
  | pushed response =>
    refine ⟨hquiet rfl, ⟨l, hunclaimed rfl, ?_⟩, fun _ => .inr ⟨_, mem_set_self _ hr, rfl⟩⟩
    rw [hpushed, List.append_assoc, List.append_assoc]
  | sending hsending =>
    exact ⟨hquiet rfl, ⟨l, hunclaimed rfl, hpushed⟩, fun _ => .inl hsending⟩
  | empty hqueue =>
    exact ⟨hquiet rfl, ⟨l, hunclaimed rfl, hpushed⟩, fun hne => absurd hqueue hne⟩
  | @taken message queue hfree hqueue =>
    -- the flag is clear, so nobody else has taken anything
    rw [hfree, Bool.toNat_false, hweight] at hflag
    -- no weight, so no claims
    have hnone : total Pc.claims s.routines = 0 := Multiset.card_eq_zero.mp (by omega)
    obtain rfl : l = [] := by
      rw [← Multiset.coe_eq_zero, hl, hnone]
    have hclaimsNone : claims = 0 := by
      rw [hclaims, show (Pc.sendNext : Pc μ).claims = 0 from rfl, zero_add] at hnone
      exact hnone
    refine ⟨?_, ⟨[message], ?_, ?_⟩, fun _ => .inl rfl⟩
    · show 1 = total Pc.weight (s.routines.set i _) + pendingSends s.connection
      rw [hsetWeight]
      simp only [Pc.weight]
      omega
    · show _ = total Pc.claims (s.routines.set i _)
      rw [hsetClaims, hclaimsNone]
      rfl
    · rw [hpushed, hqueue]
      rfl
  | @accepted message hstate =>
    -- the message is the only one that has been taken
    have hclaimsNone : claims = 0 := by
      rw [hclaims] at hcard
      simp only [Pc.claims, Pc.weight, Multiset.card_add, Multiset.card_singleton] at hcard hweight
      exact Multiset.card_eq_zero.mp (by omega)
    obtain rfl : l = [message] := by
      rw [hclaims, hclaimsNone, add_zero] at hl
      exact Multiset.coe_eq_singleton.mp hl
    refine ⟨hquiet rfl, ⟨[], ?_, ?_⟩, fun hne => hgone nofun _ (h.woken hne)⟩
    · show _ = total Pc.claims (s.routines.set i _)
      rw [hsetClaims, hclaimsNone]
      rfl
    · rw [hpushed, List.append_assoc]
      rfl
  | dropped hstate => exact absurd hlive hstate
  | @posted message =>
    refine ⟨?_, ⟨l, hunclaimed rfl, hpushed⟩, fun hne => hgone nofun _ (h.woken hne)⟩
    show s.isSending.toNat = total Pc.weight (s.routines.set i _) +
      pendingSends (s.connection.post (.asyncSendInThread message))
    rw [hsetWeight, pendingSends_post, hflag, hweight]
    simp only [Pc.weight, isSend, if_true]
    omega
  | stored =>
    refine ⟨?_, ⟨l, hunclaimed rfl, hpushed⟩, fun _ => .inr ⟨_, mem_set_self _ hr, rfl⟩⟩
    show 0 = total Pc.weight (s.routines.set i _) + pendingSends s.connection
    rw [hsetWeight]
    simp only [Pc.weight] at hweight ⊢
    omega

/-- A routine that goes on inside `processor_`, or returns from it. -/
theorem Serial.set {s t : ServerConnection μ} {i : Nat} {r : Routine μ} {pc : Pc μ}
    (h : s.Serial) (hr : s.routines[i]? = some r) (hpc : r.pc ≠ .sendNext)
    (hweight : pc.weight = r.pc.weight) (hclaims : pc.claims = r.pc.claims)
    (hconnection : t.connection = s.connection) (hqueue : t.queue = s.queue)
    (hsending : t.isSending = s.isSending) (hroutines : t.routines = s.routines.set i { r with pc })
    (hpushed : t.pushed = s.pushed) (hhanded : t.handed = s.handed) : t.Serial := by
  obtain ⟨l, hl, horder⟩ := h.order
  refine ⟨?_, ⟨l, ?_, ?_⟩, fun hne => ?_⟩
  · rw [underWay, hroutines, hconnection, hsending, total_set_eq Pc.weight hr hweight]
    exact h.flag
  · rw [claimed, hroutines, total_set_eq Pc.claims hr hclaims]
    exact hl
  · rw [hpushed, hhanded, hqueue]
    exact horder
  · rw [hqueue] at hne
    rw [hsending, hroutines]
    exact (h.woken hne).imp_right (exists_sendNext_set _ hr hpc)

/-- New routines that stand for nothing and the other fields as they are. -/
theorem Serial.append {s t : ServerConnection μ} {r : Routine μ} (h : s.Serial)
    (hclaims : r.pc.claims = 0) (hroutines : t.routines = s.routines ++ [r])
    (hflag : t.isSending.toNat = t.underWay) (hqueue : t.queue = s.queue)
    (hsending : t.isSending = s.isSending) (hpushed : t.pushed = s.pushed)
    (hhanded : t.handed = s.handed) : t.Serial := by
  obtain ⟨l, hl, horder⟩ := h.order
  refine ⟨hflag, ⟨l, ?_, ?_⟩, fun hne => ?_⟩
  · rw [claimed, hroutines, total_append, hclaims, add_zero]
    exact hl
  · rw [hpushed, hhanded, hqueue]
    exact horder
  · rw [hqueue] at hne
    rw [hsending, hroutines]
    refine (h.woken hne).imp_right ?_
    intro ⟨x, hmem, hx⟩
    exact ⟨x, List.mem_append_left _ hmem, hx⟩

theorem serial_step {p : MessageParser ParsedMessage} {s s' : ServerConnection μ}
    {a : ServerAction μ} (h : s.Serial) (hlive : staysLive a s' = true)
    (hstep : Steps p s a s') : s'.Serial := by
  simp only [staysLive, Bool.and_eq_true, beq_iff_eq, Bool.not_eq_true'] at hlive
  obtain ⟨hstate, hwrite⟩ := hlive
  have hflag := h.flag
  unfold underWay at hflag
  cases hstep with
  | asyncClose =>
    refine ⟨?_, h.order, h.woken⟩
    simp only [underWay, pendingSends_post]
    exact hflag
  | dispatch hinvoked =>
    refine h.append (claims_pc _) rfl ?_ rfl rfl rfl rfl
    simp only [underWay, total_append, weight_pc, add_zero]
    exact hflag
  | answer hr hpc =>
    refine h.set hr ?_ ?_ ?_ rfl rfl rfl rfl rfl rfl <;> rw [hpc]
    · exact fun h => by cases h
    · rfl
    · rfl
  | processed hr interrupted hpc =>
    rcases hpc with ⟨request, hpc⟩ | ⟨notification, hpc⟩
    all_goals
      refine h.set hr ?_ ?_ ?_ rfl rfl rfl rfl rfl rfl <;> rw [hpc]
      · exact fun h => by cases h
      · rfl
      · rfl
  | routine hr hadvances => exact serial_routine h hr hadvances hstate
  | context hr hdelivers =>
    cases hdelivers with
    | silent hwritten =>
      have hsends := pendingSends_of_handles hr hstate hwrite
      simp only [hwritten, Bool.false_eq_true, if_false] at hsends
      refine ⟨?_, h.order, h.woken⟩
      simp only [underWay, pendingSends, List.countP_append, countP_isSend_closesFor]
      unfold pendingSends at hsends hflag
      omega
    | sent hwritten =>
      have hsends := pendingSends_of_handles hr hstate hwrite
      simp only [hwritten, if_true] at hsends
      refine h.append rfl rfl ?_ rfl rfl rfl rfl
      simp only [underWay, total_append, Pc.weight]
      omega

theorem handed_prefix {s : ServerConnection μ} (h : s.Serial) : s.handed <+: s.pushed := by
  obtain ⟨l, -, hpushed⟩ := h.order
  rw [hpushed]
  exact List.prefix_append _ _

theorem waits_le_weight (routines : List (Routine μ)) :
    total Pc.waits routines ≤ total Pc.weight routines := by
  induction routines with
  | nil => exact Nat.le_refl 0
  | cons r routines ih =>
    have hone : r.pc.waits ≤ r.pc.weight := by
      cases r.pc <;> simp [Pc.waits, Pc.weight]
    rw [total, total, List.map_cons, List.map_cons, List.sum_cons, List.sum_cons]
    exact Nat.add_le_add hone ih

theorem serves_of_serial {s : ServerConnection μ} (haccounts : s.Accounts) (h : s.Serial) :
    s.Serves where
  dispatched := haccounts.dispatched
  answered := haccounts.answered
  inOrder := handed_prefix h
  oneAwaiting := by
    have hflag := h.flag
    have hone : s.isSending.toNat ≤ 1 := Bool.toNat_le _
    have hwaits := waits_le_weight s.routines
    unfold underWay at hflag
    unfold awaiting
    omega
  woken hne hnobody := by
    rcases h.woken hne with hsending | ⟨r, hmem, hpc⟩
    · exact hsending
    · have hnot := hnobody r hmem
      rw [hpc] at hnot
      cases hnot
  underWay hsending := by
    rw [← h.flag, hsending]
    rfl

end ServerConnection

/-- A server connection whose connection stays live serves its requests in every run. -/
theorem serves_of_staysLive (p : MessageParser ParsedMessage) (schedule : List (ServerAction μ))
    (s : ServerConnection μ)
    (hlive : (serverMachine p μ).Meets (fun _ a t => ServerConnection.staysLive a t = true) {}
      schedule)
    (hrun : (serverMachine p μ).run {} schedule = some s) : s.Serves := by
  have hkeep : ∀ s a s', s.Accounts ∧ s.Serial → ServerConnection.staysLive a s' = true →
      (serverMachine p μ).step s a = some s' → s'.Accounts ∧ s'.Serial := by
    intro s a s' ⟨haccounts, hserial⟩ hlive hstep
    have hsteps := ServerConnection.steps_of_step hstep
    exact ⟨ServerConnection.accounts_step haccounts hsteps,
      ServerConnection.serial_step hserial hlive hsteps⟩
  obtain ⟨haccounts, hserial⟩ := Machine.run_invariant hkeep
    ⟨ServerConnection.accounts_init, ServerConnection.serial_init⟩ hlive hrun
  exact ServerConnection.serves_of_serial haccounts hserial

/-- Two requests `f` of no arguments arrive in one read.  The second one is answered first, and the
response to the first one waits while the other is written. -/
def respondSchedule : List (ServerAction Nat) :=
  List.flatten [
    [.context (.task 0 {}),
      .context (.read 0 none
        [0x94, 0x00, 0x01, 0xa1, 0x66, 0x90, 0x94, 0x00, 0x02, 0xa1, 0x66, 0x90] {}),
      .dispatch 0, .dispatch 0, .answer 1 (some 8)],
    List.replicate 4 (.routine 1), [.answer 0 (some 7), .routine 0, .routine 0],
    [.context (.task 0 {}), .context (.write 0 none)], List.replicate 4 (.routine 2),
    [.context (.task 0 {}), .context (.write 0 none), .routine 3, .routine 3]]

def responded : ServerConnection Nat where
  connection := { state := .processing, callbacks := true, reads := [.opened] }
  routines := [{ pc := .done }, { pc := .done }, { inContext := true, pc := .done },
    { inContext := true, pc := .done }]
  received := [.request ⟨1, [0x66], ⟨[]⟩⟩, .request ⟨2, [0x66], ⟨[]⟩⟩]
  dispatched := [.request ⟨1, [0x66], ⟨[]⟩⟩, .request ⟨2, [0x66], ⟨[]⟩⟩]
  answered := [8, 7]
  pushed := [8, 7]
  handed := [8, 7]

theorem serves_responded : responded.Serves :=
  serves_of_staysLive formatParser respondSchedule responded (by decide) rfl

end MsgpackRpc.Servers
