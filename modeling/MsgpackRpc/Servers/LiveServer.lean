import MsgpackRpc.Lib.StopAndWait
import MsgpackRpc.Servers.ResponseOrder
import MsgpackRpc.Transport.LiveConnection

/-!
# Server connections that go on

On a connection that stays live everything that has been given to `async_send` has been begun to be
written but at most one message; and when nothing of the server connection has a step left, every
response has been written.
-/

namespace MsgpackRpc.Servers

open MsgpackRpc.Transport
open MsgpackRpc.Messages (ParsedMessage ParsedNotification ParsedRequest)

variable {μ : Type}

/-- What a routine has given to `async_send` and is about to post. -/
def Pc.posting : Pc μ → Multiset μ
  | .postSend message => {message}
  | _ => 0

/-- The routine is inside `processor_`. -/
def Pc.isProcessing : Pc μ → Bool
  | .call _ | .notify _ => true
  | _ => false

/-- A callback context begins an invocation, or a routine goes on. -/
def ServerAction.isOwn : ServerAction μ → Bool
  | .dispatch _ | .routine _ => true
  | _ => false

@[simp] theorem posting_pc (invocation : Invocation) : (invocation.pc : Pc μ).posting = 0 := by
  cases invocation <;> rfl

/-- At most as many messages are about to be posted as routines stand for `is_sending_`. -/
theorem card_posting_le (routines : List (Routine μ)) :
    (total Pc.posting routines).card ≤ total Pc.weight routines := by
  induction routines with
  | nil => exact Nat.le_refl 0
  | cons r routines ih =>
    have hone : r.pc.posting.card ≤ r.pc.weight := by
      cases r.pc <;> simp [Pc.posting, Pc.weight]
    rw [total, total, List.map_cons, List.map_cons, List.sum_cons, List.sum_cons, Multiset.card_add]
    exact Nat.add_le_add hone ih

theorem card_queued_le (c : Connection μ) : c.queued.card ≤ pendingSends c := by
  have hsame : c.tasks.countP (fun task => task.message.isSome) = c.tasks.countP isSend := by
    congr 1
    funext task
    cases task <;> rfl
  rw [Connection.queued, Multiset.coe_card, List.length_filterMap_eq_countP, hsame]
  exact Nat.le_add_right _ _

namespace ServerConnection

/-- The messages given to `async_send` whose write is still to be started. -/
def pending (s : ServerConnection μ) : Multiset μ :=
  total Pc.posting s.routines + s.connection.queued

/-- The message whose write a step starts. -/
def starting (s : ServerConnection μ) : ServerAction μ → Option μ
  | .context e => e.starts s.connection
  | _ => none

theorem Serial.card_pending_le {s : ServerConnection μ} (h : s.Serial) : s.pending.card ≤ 1 := by
  have hflag := h.flag
  have hone : s.isSending.toNat ≤ 1 := Bool.toNat_le _
  have hposting := card_posting_le s.routines
  have hqueued := card_queued_le s.connection
  unfold underWay at hflag
  rw [pending, Multiset.card_add]
  omega

/-- Of what has been given to `async_send`, the writes of the messages in `begun` have been
started. -/
def HasBegun (s : ServerConnection μ) (begun : List μ) : Prop :=
  StopAndWait.HasBegun s.handed begun s.pending

/-- What a run keeps whose connection stays live; `begun` are the messages whose writes have been
started. -/
structure Live (s : ServerConnection μ) (begun : List μ) : Prop where
  serial : s.Serial
  begun : s.HasBegun begun
  connection : s.interrupted = false → s.connection.Live

theorem live_init : Live ({} : ServerConnection μ) [] where
  serial := serial_init
  begun := StopAndWait.hasBegun_nil
  connection _ := ⟨rfl, rfl, nofun, nofun, rfl⟩

/-! ## A step -/

variable {p : MessageParser ParsedMessage} {s s' t : ServerConnection μ} {a : ServerAction μ}

/-- An exception ends the handlers for good. -/
theorem interrupted_of_step (h : s.step p a = some s') (hafter : s'.interrupted = false) :
    s.interrupted = false := by
  cases a with
  | asyncClose =>
    cases h
    exact hafter
  | dispatch i =>
    simp only [step, Option.ite_none_left_eq_some, Bool.not_eq_true] at h
    exact h.1
  | answer i response =>
    simp only [step] at h
    split at h
    · split at h <;> cases h
      · exact hafter
      · cases hafter
    · cases h
  | notified i returned =>
    simp only [step] at h
    split at h <;> cases h
    exact (Bool.or_eq_false_iff.mp hafter).1
  | routine i =>
    simp only [step] at h
    split at h
    · cases h
    · rename_i r hr
      obtain ⟨⟨u, pc⟩, hadvance, rfl⟩ := Option.map_eq_some_iff.mp h
      have hadvances := advances_of_advance hadvance
      generalize r.pc = before at hadvances
      cases hadvances <;> exact hafter
  | context e =>
    simp only [step, Option.ite_none_left_eq_some, Bool.or_eq_true, not_or, Bool.not_eq_true] at h
    exact h.1.1

theorem interrupted_of_answer_none {i : Nat} (h : s.step p (.answer i none) = some s') :
    s'.interrupted = true := by
  simp only [step] at h
  split at h <;> cases h
  rfl

/-- On a live connection, what a step gives to `async_send` is pending after it. -/
theorem pending_advance {i : Nat} {r : Routine μ} {pc : Pc μ} (hr : s.routines[i]? = some r)
    (hadvances : Advances s r.pc t pc) (hlive : t.connection.state = .processing) :
    ∃ new : List μ, t.handed = s.handed ++ new ∧
      pending { t with routines := s.routines.set i { r with pc } } = s.pending + ↑new := by
  obtain ⟨rest, hsum, hset⟩ := exists_total_set Pc.posting hr
  have hpending : s.pending = r.pc.posting + (rest + s.connection.queued) := by
    rw [pending, hsum, add_assoc]
  have hpending' : pending { t with routines := s.routines.set i { r with pc } } =
      pc.posting + (rest + t.connection.queued) := by
    rw [pending, hset, add_assoc]
  rw [hpending, hpending']
  generalize r.pc = before at hadvances
  have kept (hhanded : t.handed = s.handed) (hposting : pc.posting = before.posting)
      (hconnection : t.connection = s.connection) :
      ∃ new : List μ, t.handed = s.handed ++ new ∧ pc.posting + (rest + t.connection.queued) =
        before.posting + (rest + s.connection.queued) + ↑new :=
    ⟨[], by rw [hhanded, List.append_nil],
      by rw [hposting, hconnection, Multiset.coe_nil, add_zero]⟩
  cases hadvances with
  | @accepted message =>
    refine ⟨[message], rfl, ?_⟩
    show ({message} : Multiset μ) + _ = 0 + _ + _
    rw [zero_add, add_comm, Multiset.coe_singleton]
  | dropped hstate => exact absurd hlive hstate
  | @posted message =>
    refine ⟨[], (List.append_nil _).symm, ?_⟩
    rw [Connection.queued_post, Multiset.coe_nil, add_zero]
    show 0 + (rest + (s.connection.queued + ({message} : Multiset μ))) = {message} + _
    rw [zero_add, ← add_assoc, add_comm]
  | _ => exact kept rfl rfl rfl

theorem queued_closesFor (c : Connection μ) (messages : List ParsedMessage) :
    Connection.queued { c with tasks := c.tasks ++ closesFor messages } = c.queued := by
  have hnone : (closesFor messages : List (Transport.Task μ)).filterMap Task.message = [] := by
    rw [List.filterMap_eq_nil_iff]
    intro task htask
    rw [eq_of_mem_closesFor htask]
    rfl
  rw [Connection.queued, List.filterMap_append, hnone, List.append_nil]
  rfl

theorem pending_step (hlive : s'.connection.state = .processing) (hsteps : Steps p s a s') :
    ∃ new : List μ, s'.handed = s.handed ++ new ∧
      s.pending + ↑new = ((s.starting a).toList : Multiset μ) + s'.pending := by
  have kept {u : ServerConnection μ} (hnone : s.starting a = none) (hhanded : u.handed = s.handed)
      (hposting : total Pc.posting u.routines = total Pc.posting s.routines)
      (hqueued : u.connection.queued = s.connection.queued) :
      ∃ new : List μ, u.handed = s.handed ++ new ∧
        s.pending + ↑new = ((s.starting a).toList : Multiset μ) + u.pending := by
    refine ⟨[], by rw [hhanded, List.append_nil], ?_⟩
    rw [hnone, pending, pending, hposting, hqueued]
    exact add_comm _ _
  cases hsteps with
  | asyncClose =>
    refine kept rfl rfl rfl ?_
    rw [Connection.queued_post]
    exact add_zero _
  | dispatch => exact kept rfl rfl (by rw [total_append, posting_pc, add_zero]) rfl
  | answer hr hpc => exact kept rfl rfl (total_set_eq Pc.posting hr (by rw [hpc]; rfl)) rfl
  | @processed _ i r hr interrupted hpc ha =>
    have hnone : Pc.done.posting = r.pc.posting := by
      rcases hpc with ⟨_, hpc⟩ | ⟨_, hpc⟩ <;> rw [hpc] <;> rfl
    have hposting := total_set_eq Pc.posting hr hnone
    rcases ha with rfl | ⟨returned, rfl⟩ <;> exact kept rfl rfl hposting rfl
  | routine hr hadvances =>
    obtain ⟨new, hhanded, hpending⟩ := pending_advance hr hadvances hlive
    exact ⟨new, hhanded, by rw [hpending]; exact (zero_add _).symm⟩
  | @context e r _ hr hdelivers =>
    have hqueued := hr.queued
    have hbefore : s.pending = ((e.starts s.connection).toList : Multiset μ) +
        (total Pc.posting s.routines + r.connection.queued) := by
      rw [pending, hqueued, add_left_comm]
    have hstarting : s.starting (.context e) = e.starts s.connection := rfl
    cases hdelivers with
    | silent =>
      refine ⟨[], (List.append_nil _).symm, ?_⟩
      rw [hbefore, hstarting, pending, queued_closesFor, Multiset.coe_nil, add_zero]
    | sent =>
      refine ⟨[], (List.append_nil _).symm, ?_⟩
      rw [hbefore, hstarting, pending, total_append, Multiset.coe_nil, add_zero,
        show (Pc.storeSent : Pc μ).posting = 0 from rfl, add_zero]

theorem HasBegun.step {begun : List μ} (h : s.HasBegun begun) (hserial : s.Serial)
    (hlive : s'.connection.state = .processing) (hsteps : Steps p s a s') :
    s'.HasBegun (begun ++ (s.starting a).toList) := by
  obtain ⟨new, hnew, hpending⟩ := pending_step hlive hsteps
  have hbegun := StopAndWait.HasBegun.step h hpending hserial.card_pending_le ?_
  · rw [← hnew] at hbegun
    exact hbegun
  · -- a handler gives nothing to `async_send`
    cases hsteps with
    | context _ hdelivers =>
      refine .inr (List.append_cancel_left (?_ : s.handed ++ new = s.handed ++ []))
      rw [← hnew, List.append_nil]
      cases hdelivers <;> rfl
    | processed _ _ _ ha => rcases ha with rfl | ⟨returned, rfl⟩ <;> exact .inl rfl
    | _ => exact .inl rfl

theorem live_closesFor {c : Connection μ} (h : c.Live) (messages : List ParsedMessage) :
    Connection.Live { c with tasks := c.tasks ++ closesFor messages } where
  state := h.state
  socket := h.socket
  reads := h.reads
  writes := h.writes
  reading := by
    have hnone : (closesFor messages : List (Transport.Task μ)).countP Task.isReadNext = 0 := by
      rw [List.countP_eq_zero]
      intro task hmem
      rw [eq_of_mem_closesFor hmem]
      exact Bool.false_ne_true
    have hreading := h.reading
    simp only [Connection.pendingReads, List.countP_append, hnone] at hreading ⊢
    omega

theorem Live.step {begun : List μ} (h : s.Live begun) (hlive : staysLive a s' = true)
    (hstep : s.step p a = some s') : s'.Live (begun ++ (s.starting a).toList) := by
  have hsteps := steps_of_step hstep
  have hprocessing : s'.connection.state = .processing := by
    simp only [staysLive, Bool.and_eq_true, beq_iff_eq] at hlive
    exact hlive.1
  refine ⟨serial_step h.serial hlive hsteps, h.begun.step h.serial hprocessing hsteps,
    fun hafter => ?_⟩
  have hconnection := h.connection (interrupted_of_step hstep hafter)
  cases hsteps with
  | asyncClose => exact hconnection.post rfl
  | routine hr hadvances =>
    generalize Routine.pc _ = before at hadvances
    cases hadvances with
    | posted => exact hconnection.post rfl
    | _ => exact hconnection
  | context hr hdelivers =>
    cases hdelivers with
    | silent =>
      have hthrown := Option.not_isSome_iff_eq_none.mp (Bool.eq_false_iff.mp hafter)
      exact live_closesFor (hconnection.handles hr hprocessing hthrown) _
    | sent =>
      have hthrown := Option.not_isSome_iff_eq_none.mp (Bool.eq_false_iff.mp hafter)
      exact hconnection.handles hr hprocessing hthrown
  | _ => exact hconnection

/-! ## The requests that have gone to the processor -/

/-- Every request that has gone to the processor is still there or has been answered, unless an
exception has ended the handlers. -/
def Executes (R : ParsedRequest → μ → Prop) (s : ServerConnection μ) : Prop :=
  ∀ request, .request request ∈ s.dispatched →
    (∃ r ∈ s.routines, r.pc = .call request) ∨ (∃ response ∈ s.answered, R request response) ∨
      s.interrupted = true

theorem Executes.mono {R R' : ParsedRequest → μ → Prop} (h : s.Executes R)
    (hR : ∀ request response, R request response → R' request response) : s.Executes R' := by
  intro request hmem
  refine (h request hmem).imp_right fun hanswered => hanswered.imp_left ?_
  rintro ⟨response, hresponse, hfor⟩
  exact ⟨response, hresponse, hR request response hfor⟩

/-- The processor is in a notification when it returns without a response. -/
theorem notify_of_notified {i : Nat} {returned : Bool}
    (h : s.step p (.notified i returned) = some s') :
    ∃ r notification, s.routines[i]? = some r ∧ r.pc = .notify notification := by
  simp only [step] at h
  split at h
  · rename_i inContext notification hr
    exact ⟨_, notification, hr, rfl⟩
  · cases h

theorem Executes.step {R : ParsedRequest → μ → Prop} (h : s.Executes R)
    (hanswer : ∀ (i : Nat) (r : Routine μ) request response, a = .answer i (some response) →
      s.routines[i]? = some r → r.pc = .call request → R request response)
    (hstep : s.step p a = some s') : s'.Executes R := by
  have hinterrupted : s.interrupted = true → s'.interrupted = true := by
    intro hbefore
    cases hafter : s'.interrupted with
    | true => rfl
    | false => rw [interrupted_of_step hstep hafter] at hbefore; cases hbefore
  -- only the routine that the processor returns to leaves it
  have kept {u : ServerConnection μ} {i : Nat} {r r' : Routine μ} (hr : s.routines[i]? = some r)
      (hroutines : u.routines = s.routines.set i r') (hdispatched : u.dispatched = s.dispatched)
      (hanswered : s.answered ⊆ u.answered)
      (hmono : s.interrupted = true → u.interrupted = true)
      (hleaves : ∀ request, r.pc = .call request → ∃ response ∈ u.answered, R request response) :
      u.Executes R := by
    intro request hmem
    rw [hdispatched] at hmem
    rcases h request hmem with hrunning | ⟨response, hresponse, hfor⟩ | hbefore
    · rcases List.exists_mem_set hr r' hrunning with hpc | hother
      · exact .inr (.inl (hleaves request hpc))
      · exact .inl (hroutines ▸ hother)
    · exact .inr (.inl ⟨response, hanswered hresponse, hfor⟩)
    · exact .inr (.inr (hmono hbefore))
  cases steps_of_step hstep with
  | asyncClose => exact h
  | @dispatch i invocation =>
    intro request hmem
    rcases List.mem_append.mp hmem with hmem | hmem
    · refine (h request hmem).imp_left ?_
      rintro ⟨r, hr, hpc⟩
      exact ⟨r, List.mem_append_left _ hr, hpc⟩
    · refine .inl ⟨_, List.mem_append_right _ (List.mem_singleton_self _), ?_⟩
      rw [← List.mem_singleton.mp hmem]
      rfl
  | @answer i r request response hr =>
    refine kept hr rfl rfl (List.subset_append_left _ _) id fun request' hpc => ?_
    exact ⟨response, List.mem_append_right _ (List.mem_singleton_self _),
      hanswer i r request' response rfl hr hpc⟩
  | @processed _ i r hr _ _ ha =>
    rcases ha with rfl | ⟨returned, rfl⟩
    · exact fun _ _ => .inr (.inr (interrupted_of_answer_none hstep))
    · refine kept hr rfl rfl (List.Subset.refl _) hinterrupted fun request hpc => ?_
      obtain ⟨r', notification, hr', hpc'⟩ := notify_of_notified hstep
      obtain rfl : r = r' := Option.some.inj (hr.symm.trans hr')
      rw [hpc] at hpc'
      cases hpc'
  | @routine i r t pc hr hadvances =>
    obtain ⟨-, hdispatched, -, -, hanswered, -⟩ := hadvances.accounts
    refine kept hr rfl hdispatched ?_ hinterrupted fun request hpc => ?_
    · show s.answered ⊆ t.answered
      rw [hanswered]
      exact List.Subset.refl _
    · rw [hpc] at hadvances
      cases hadvances
  | context _ hdelivers =>
    intro request hmem
    have hbefore : .request request ∈ s.dispatched := by cases hdelivers <;> exact hmem
    rcases h request hbefore with ⟨r, hr, hpc⟩ | hanswered | hthrown
    · refine .inl ⟨r, ?_, hpc⟩
      cases hdelivers with
      | silent => exact hr
      | sent => exact List.mem_append_left _ hr
    · refine .inr (.inl ?_)
      cases hdelivers <;> exact hanswered
    · exact .inr (.inr (hinterrupted hthrown))

/-! ## Standing still -/

/-- Everything that has been received has been dispatched, and every handler has returned. -/
structure Rests (s : ServerConnection μ) : Prop where
  invoked : s.invoked = []
  routines : ∀ r ∈ s.routines, r.pc = .done

theorem Rests.total_eq_zero (h : s.Rests) {M : Type} [AddCommMonoid M] (w : Pc μ → M)
    (hdone : w .done = 0) : total w s.routines = 0 := by
  refine List.sum_eq_zero fun x hx => ?_
  obtain ⟨r, hr, rfl⟩ := List.mem_map.mp hx
  rw [h.routines r hr, hdone]

/-- When a server connection rests and its connection has nothing to write, every response has been
written. -/
theorem Rests.drained (h : s.Rests) {begun : List μ} (hlive : s.Live begun) (haccounts : s.Accounts)
    (htasks : s.connection.tasks = []) (hwrites : s.connection.writes = []) :
    (begun : Multiset μ) = s.answered := by
  have hfree : s.isSending = false := by
    have hflag := hlive.serial.flag
    rw [underWay, h.total_eq_zero _ rfl, pendingSends, htasks, hwrites] at hflag
    exact Bool.toNat_eq_zero.mp hflag
  have hqueue : s.queue = [] := by
    by_contra hne
    rcases hlive.serial.woken hne with hsending | ⟨r, hr, hpc⟩
    · rw [hfree] at hsending
      cases hsending
    · rw [h.routines r hr] at hpc
      cases hpc
  have hpending : s.pending = 0 := by
    rw [pending, h.total_eq_zero _ rfl, Connection.queued, htasks]
    rfl
  have hbegun := hlive.begun
  rw [HasBegun, hpending] at hbegun
  obtain ⟨l, hl, hpushed⟩ := hlive.serial.order
  rw [claimed, h.total_eq_zero _ rfl, Multiset.coe_eq_zero] at hl
  rw [hl, hqueue, List.append_nil, List.append_nil] at hpushed
  have hanswered := haccounts.answered
  rw [pushing, h.total_eq_zero _ rfl, add_zero] at hanswered
  rw [hbegun.begun_eq, hanswered, hpushed]

end ServerConnection

/-! ## What is left to do -/

/-- The steps that are left to a routine outside of the processor, with those of the connection that
it leads to. -/
def Pc.work : Pc μ → Nat
  | .push _ => 8
  | .sendNext => 1
  | .asyncSend _ => 6
  | .postSend _ => 5
  | .storeSent => 2
  | .call _ | .notify _ | .done => 0

@[simp] theorem work_pc (invocation : Invocation) : (invocation.pc : Pc μ).work = 0 := by
  cases invocation <;> rfl

namespace ServerConnection

/-- The steps that are left for sending the responses that there are. -/
def work (s : ServerConnection μ) : Nat :=
  total Pc.work s.routines + 6 * s.queue.length + s.connection.work 2

/-- The steps that are left before the processor has returned from every invocation. -/
def toProcess (s : ServerConnection μ) : Nat :=
  2 * s.invoked.length + total (fun pc => pc.isProcessing.toNat) s.routines

variable {p : MessageParser ParsedMessage} {s s' : ServerConnection μ} {a : ServerAction μ}
  {i : Nat}

end ServerConnection

end MsgpackRpc.Servers
