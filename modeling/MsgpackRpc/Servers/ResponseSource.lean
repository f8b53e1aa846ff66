import MsgpackRpc.Servers.ProtocolViolation

/-!
# Where the responses of a server come from

Whatever a server connection is about to execute has been received, and whatever it is about to send
has been returned by the processor.  It never writes two responses at once, whether the connection
stays live or not.
-/

namespace MsgpackRpc.Servers

open MsgpackRpc.Transport
open MsgpackRpc.Messages (ParsedMessage)

variable {μ : Type}

/-- What a routine is about to give to the processor, or has given to it. -/
def Pc.invocation : Pc μ → Option Invocation
  | .call request => some (.request request)
  | .notify notification => some (.notification notification)
  | _ => none

/-- The response that a routine is about to push or to send. -/
def Pc.response : Pc μ → Option μ
  | .push response => some response
  | .asyncSend message | .postSend message => some message
  | _ => none

@[simp] theorem invocation_pc (invocation : Invocation) :
    (invocation.pc : Pc μ).invocation = some invocation := by
  cases invocation <;> rfl

@[simp] theorem response_pc (invocation : Invocation) : (invocation.pc : Pc μ).response = none := by
  cases invocation <;> rfl

namespace ServerConnection

/-- Every invocation that waits or runs has `Q`, and every response on its way to the connection has
`R`. -/
structure HoldsOnly (Q : Invocation → Prop) (R : μ → Prop) (s : ServerConnection μ) : Prop where
  invoked : ∀ invocation ∈ s.invoked, Q invocation
  running : ∀ r ∈ s.routines, ∀ invocation, r.pc.invocation = some invocation → Q invocation
  responding : ∀ r ∈ s.routines, ∀ m, r.pc.response = some m → R m
  queue : ∀ m ∈ s.queue, R m
  tasks : ∀ m, .asyncSendInThread m ∈ s.connection.tasks → R m

variable {Q Q' : Invocation → Prop} {R R' : μ → Prop} {s t s' : ServerConnection μ}

theorem holdsOnly_init (Q : Invocation → Prop) (R : μ → Prop) :
    HoldsOnly Q R ({} : ServerConnection μ) where
  invoked := nofun
  running := nofun
  responding := nofun
  queue := nofun
  tasks m hm := by cases List.mem_singleton.mp hm

theorem HoldsOnly.mono (h : s.HoldsOnly Q R) (hQ : ∀ i, Q i → Q' i) (hR : ∀ m, R m → R' m) :
    s.HoldsOnly Q' R' where
  invoked i hi := hQ i (h.invoked i hi)
  running r hr i hi := hQ i (h.running r hr i hi)
  responding r hr m hm := hR m (h.responding r hr m hm)
  queue m hm := hR m (h.queue m hm)
  tasks m hm := hR m (h.tasks m hm)

/-- One routine goes on, and nothing else changes that holds anything. -/
theorem HoldsOnly.set {i : Nat} {r : Routine μ} (h : s.HoldsOnly Q R)
    (hinvoked : t.invoked = s.invoked) (hqueue : t.queue = s.queue)
    (hconnection : t.connection = s.connection) (hroutines : t.routines = s.routines.set i r)
    (hrunning : r.pc.invocation = none) (hresponding : ∀ m, r.pc.response = some m → R m) :
    t.HoldsOnly Q R where
  invoked := hinvoked ▸ h.invoked
  running x hx invocation hinvocation := by
    rw [hroutines] at hx
    rcases List.mem_or_eq_of_mem_set hx with hx | rfl
    · exact h.running x hx invocation hinvocation
    · rw [hrunning] at hinvocation
      cases hinvocation
  responding x hx := by
    rw [hroutines] at hx
    rcases List.mem_or_eq_of_mem_set hx with hx | rfl
    · exact h.responding x hx
    · exact hresponding
  queue := hqueue ▸ h.queue
  tasks := hconnection ▸ h.tasks

/-- A step of a routine outside the processor. -/
theorem HoldsOnly.advances {i : Nat} {r : Routine μ} {pc : Pc μ} (h : s.HoldsOnly Q R)
    (hr : s.routines[i]? = some r) (hadvances : Advances s r.pc t pc) :
    HoldsOnly Q R { t with routines := s.routines.set i { r with pc } } := by
  have hheld {m : μ} (hm : r.pc.response = some m) : R m :=
    h.responding r (List.mem_of_getElem? hr) m hm
  generalize hpc : r.pc = before at hadvances hheld
  cases hadvances with
  | pushed response =>
    have hset : HoldsOnly Q R { s with routines := s.routines.set i { r with pc := .sendNext } } :=
      h.set rfl rfl rfl rfl rfl nofun
    refine ⟨hset.invoked, hset.running, hset.responding, fun m hm => ?_, hset.tasks⟩
    rcases List.mem_append.mp hm with hm | hm
    · exact h.queue m hm
    · exact List.mem_singleton.mp hm ▸ hheld rfl
  | sending | empty => exact h.set rfl rfl rfl rfl rfl nofun
  | @taken message queue hfree hqueue =>
    have hmessage : R message := h.queue message (hqueue ▸ List.mem_cons_self)
    have hset : HoldsOnly Q R
        { s with routines := s.routines.set i { r with pc := .asyncSend message } } := by
      refine h.set rfl rfl rfl rfl rfl fun m hm => ?_
      cases hm
      exact hmessage
    refine ⟨hset.invoked, hset.running, hset.responding, fun m hm => ?_, hset.tasks⟩
    exact h.queue m (hqueue ▸ List.mem_cons_of_mem _ hm)
  | accepted => exact h.set rfl rfl rfl rfl rfl fun m hm => hheld hm
  | dropped => exact h.set rfl rfl rfl rfl rfl nofun
  | @posted message =>
    have hset : HoldsOnly Q R { s with routines := s.routines.set i { r with pc := .done } } :=
      h.set rfl rfl rfl rfl rfl nofun
    refine ⟨hset.invoked, hset.running, hset.responding, hset.queue, fun m hm => ?_⟩
    rcases List.mem_append.mp hm with hm | hm
    · exact h.tasks m hm
    · cases List.mem_singleton.mp hm
      exact hheld rfl
  | stored => exact h.set rfl rfl rfl rfl rfl nofun

/-- What a server connection holds after a step it has held before, or it has just been received or
been returned by the processor. -/
theorem HoldsOnly.step {p : MessageParser ParsedMessage} {a : ServerAction μ}
    (h : s.HoldsOnly Q R)
    (hreceived : ∀ m ∈ completed p s a, ∀ invocation, Invocation.ofMessage m = some invocation →
      Q invocation)
    (hanswer : ∀ (i : Nat) (r : Routine μ) request response, a = .answer i (some response) →
      s.routines[i]? = some r → r.pc = .call request → R response)
    (hsteps : Steps p s a s') : s'.HoldsOnly Q R := by
  cases hsteps with
  | asyncClose =>
    refine ⟨h.invoked, h.running, h.responding, h.queue, fun m hm => ?_⟩
    rcases List.mem_append.mp hm with hm | hm
    · exact h.tasks m hm
    · cases List.mem_singleton.mp hm
  | @dispatch i invocation hinvoked =>
    have hQ : Q invocation := h.invoked invocation (List.mem_of_getElem? hinvoked)
    refine ⟨fun x hx => h.invoked x (List.mem_of_mem_eraseIdx hx), fun r hr x hx => ?_,
      fun r hr m hm => ?_, h.queue, h.tasks⟩
    · rcases List.mem_append.mp hr with hr | hr
      · exact h.running r hr x hx
      · rw [List.mem_singleton.mp hr, invocation_pc, Option.some.injEq] at hx
        exact hx ▸ hQ
    · rcases List.mem_append.mp hr with hr | hr
      · exact h.responding r hr m hm
      · rw [List.mem_singleton.mp hr, response_pc] at hm
        cases hm
  | @answer i r request response hr hpc =>
    refine h.set rfl rfl rfl rfl rfl fun m hm => ?_
    cases hm
    exact hanswer i r request response rfl hr hpc
  | processed => exact h.set rfl rfl rfl rfl rfl nofun
  | routine hr hadvances => exact h.advances hr hadvances
  | context hr hdelivers =>
    have htasks := hr.tasks_subset
    cases hdelivers with
    | silent =>
      refine ⟨fun x hx => ?_, h.running, h.responding, h.queue, fun m hm => ?_⟩
      · rcases List.mem_append.mp hx with hx | hx
        · exact h.invoked x hx
        · obtain ⟨m, hm, hof⟩ := List.mem_filterMap.mp hx
          exact hreceived m hm x hof
      · rcases List.mem_append.mp hm with hm | hm
        · exact h.tasks m (htasks hm)
        · cases eq_of_mem_closesFor hm
    | sent =>
      refine ⟨h.invoked, fun x hx => ?_, fun x hx => ?_, h.queue, fun m hm => h.tasks m (htasks hm)⟩
      · rcases List.mem_append.mp hx with hx | hx
        · exact h.running x hx
        · rw [List.mem_singleton.mp hx]
          nofun
      · rcases List.mem_append.mp hx with hx | hx
        · exact h.responding x hx
        · rw [List.mem_singleton.mp hx]
          nofun

/-- Only handlers start and end writes. -/
theorem Steps.writes_eq {p : MessageParser ParsedMessage} {a : ServerAction μ}
    (h : Steps p s a s') (hown : ∀ e, a ≠ .context e) :
    s'.connection.writes = s.connection.writes := by
  cases h with
  | routine hr hadvances =>
    generalize Routine.pc _ = pc at hadvances
    cases hadvances <;> rfl
  | context => exact absurd rfl (hown _)
  | _ => rfl

theorem completed_eq_nil {p : MessageParser ParsedMessage} {a : ServerAction μ}
    (hown : ∀ e, a ≠ .context e) : completed p s a = [] ∧ a.readBytes = [] := by
  cases a with
  | context e => exact absurd rfl (hown e)
  | _ => exact ⟨rfl, rfl⟩

/-- What has been received is what the bytes read so far say, after every step. -/
theorem reads_step {p : MessageParser ParsedMessage} (hp : p.Incremental) {a : ServerAction μ}
    {bytes : List UInt8} (haccounts : s.Accounts)
    (h : Connection.Reads p s.connection s.received bytes) (hsteps : Steps p s a s') :
    Connection.Reads p s'.connection s'.received (bytes ++ a.readBytes) := by
  -- as if one read had brought all the bytes before this step
  obtain ⟨past, rfl⟩ : ∃ past : List (ServerAction μ), bytesRead past = bytes :=
    ⟨[.context (.read 0 none bytes {})], List.append_nil bytes⟩
  have hreads := (receives_step hp ⟨haccounts, h⟩ hsteps).reads
  rw [bytesRead, List.flatMap_append, List.flatMap_singleton] at hreads
  exact hreads

/-! ## One write at a time -/

/-- Whatever has been taken out of the queue and not been written stands for `is_sending_`. -/
def SendsOne (s : ServerConnection μ) : Prop := s.underWay ≤ s.isSending.toNat

theorem sendsOne_init : SendsOne ({} : ServerConnection μ) := Nat.le_refl 0

/-- A message that is written is not pending any more. -/
theorem pendingSends_le {p : MessageParser ParsedMessage} {c : Connection μ}
    {e : Connection.Event} {r : Handled ParsedMessage μ} (h : Connection.Handles p c e r) :
    pendingSends r.connection + (if e.isWritten then 1 else 0) ≤ pendingSends c := by
  have hcount {i : Nat} {task : Transport.Task μ} (htask : c.tasks[i]? = some task) :=
    List.countP_eraseIdx isSend htask
  have hlost {i : Nat} {w : μ × SocketState} (hwrite : c.writes[i]? = some w) :
      (c.writes.eraseIdx i).length + 1 = c.writes.length := by
    have hlength := (List.perm_cons_eraseIdx hwrite).length_eq
    rw [List.length_cons] at hlength
    exact hlength.symm
  cases h with
  | readNext htask =>
    have hone := hcount htask
    simp only [pendingSends, Connection.asyncReadNext, Connection.Event.isWritten,
      Bool.false_eq_true, if_false]
    omega
  | send htask =>
    have hone := hcount htask
    simp only [isSend, if_true] at hone
    simp only [pendingSends, Connection.asyncSendInThread, List.length_append,
      List.length_singleton, Connection.Event.isWritten, Bool.false_eq_true, if_false]
    omega
  | @close i _ _ htask _ _ hcloses =>
    have hone := hcount htask
    have hsame : pendingSends r.connection =
        pendingSends { c with tasks := c.tasks.eraseIdx i } := by
      cases hcloses <;> rfl
    rw [hsame]
    simp only [pendingSends, Connection.Event.isWritten, Bool.false_eq_true, if_false]
    omega
  | readInvalid _ _ _ _ hcloses => cases hcloses <;> exact Nat.le_refl _
  | writeAborted hwrite | writeFailed hwrite =>
    have hgone := hlost hwrite
    simp only [pendingSends, Connection.Event.isWritten, Bool.false_eq_true, if_false]
    omega
  | writeClosedByPeer hwrite =>
    have hgone := hlost hwrite
    simp only [pendingSends, Connection.closedByPeer, Connection.Event.isWritten,
      Bool.false_eq_true, if_false]
    omega
  | written hwrite =>
    have hgone := hlost hwrite
    simp only [pendingSends, Connection.Event.isWritten, if_true]
    omega
  | _ => exact Nat.le_refl _

theorem SendsOne.advances {i : Nat} {r : Routine μ} {pc : Pc μ} (h : s.SendsOne)
    (hr : s.routines[i]? = some r) (hadvances : Advances s r.pc t pc) :
    SendsOne { t with routines := s.routines.set i { r with pc } } := by
  obtain ⟨others, hweight, hset⟩ := exists_total_set Pc.weight hr
  have hone : s.isSending.toNat ≤ 1 := Bool.toNat_le _
  unfold SendsOne underWay at h ⊢
  rw [hweight] at h
  rw [hset]
  generalize r.pc = before at hadvances h
  cases hadvances with
  | taken hfree =>
    rw [hfree, Bool.toNat_false] at h
    simp only [Pc.weight, Bool.toNat_true]
    omega
  | @posted message =>
    have hposted := pendingSends_post s.connection (.asyncSendInThread message)
    simp only [Pc.weight, isSend, if_true] at h hposted ⊢
    omega
  | stored =>
    simp only [Pc.weight, Bool.toNat_false] at h ⊢
    omega
  | _ =>
    simp only [Pc.weight] at h ⊢
    omega

theorem SendsOne.step {p : MessageParser ParsedMessage} {a : ServerAction μ} (h : s.SendsOne)
    (hsteps : Steps p s a s') : s'.SendsOne := by
  unfold SendsOne underWay at h
  cases hsteps with
  | asyncClose =>
    have hposted := pendingSends_post s.connection (.closeInThread {})
    simp only [SendsOne, underWay, hposted]
    exact h
  | dispatch =>
    simp only [SendsOne, underWay, total_append, weight_pc, add_zero]
    exact h
  | answer hr hpc =>
    simp only [SendsOne, underWay]
    rw [total_set_eq Pc.weight hr (by rw [hpc]; rfl)]
    exact h
  | processed hr interrupted hpc =>
    simp only [SendsOne, underWay]
    rw [total_set_eq Pc.weight hr (by rcases hpc with ⟨_, hpc⟩ | ⟨_, hpc⟩ <;> rw [hpc] <;> rfl)]
    exact h
  | routine hr hadvances => exact SendsOne.advances h hr hadvances
  | context hr hdelivers =>
    have hsends := pendingSends_le hr
    cases hdelivers with
    | silent hwritten =>
      simp only [hwritten, Bool.false_eq_true, if_false] at hsends
      simp only [SendsOne, underWay, pendingSends, List.countP_append, countP_isSend_closesFor]
      unfold pendingSends at hsends h
      omega
    | sent hwritten =>
      simp only [hwritten, if_true] at hsends
      simp only [SendsOne, underWay, total_append, Pc.weight]
      omega

/-- A connection that is about to start a write has none under way. -/
theorem SendsOne.writes_eq_nil {i : Nat} {message : μ} (h : s.SendsOne)
    (htask : s.connection.tasks[i]? = some (.asyncSendInThread message)) :
    s.connection.writes = [] := by
  have hcount := List.countP_eraseIdx isSend htask
  have hone : s.isSending.toNat ≤ 1 := Bool.toNat_le _
  unfold SendsOne underWay pendingSends at h
  simp only [isSend, if_true] at hcount
  exact List.eq_nil_of_length_eq_zero (by omega)

end ServerConnection

end MsgpackRpc.Servers
