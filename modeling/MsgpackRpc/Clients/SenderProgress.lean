import MsgpackRpc.Clients.MessageDelivery

/-!
# The sender does not stay blocked

`is_sending_` is taken with a connection that was fetched earlier.  While it is true, something must
be under way that stores `false` again: an `on_sent`, an `on_closed`, or a message in flight on the
registered connection that brings one of them.
-/

namespace MsgpackRpc.Transport

variable {ω μ : Type}

namespace Connection

/-- No answer of asio makes the handler throw. -/
def Event.returns : Event → Bool
  | .task _ calls | .read _ none _ calls => calls.succeed
  | .read _ (some error) _ _ | .write _ (some error) =>
      error == .operationAborted || error.isClosedByPeer
  | .write _ none => true

/-- A started connection: its callbacks are assigned, and its socket is closed only in `STOPPED`. -/
structure Sound (c : Connection μ) : Prop where
  callbacks : c.callbacks = true
  closed : c.socket = .closed → c.state = .stopped

theorem Closes.sound {c : Connection μ} {calls : SocketCalls} {status : Status} {r : Handled ω μ}
    (h : Closes c calls status r) (hc : c.Sound) (hcalls : calls.succeed = true) :
    r.connection.Sound ∧ r.thrown = none := by
  cases h with
  | alreadyStopped => exact ⟨hc, rfl⟩
  | failed _ _ _ _ hcause =>
    rw [hcalls, hc.callbacks] at hcause
    simp at hcause
  | closed => exact ⟨⟨hc.callbacks, fun _ => rfl⟩, rfl⟩

theorem Handles.sound {p : MessageParser ω} {c : Connection μ} {e : Event} {r : Handled ω μ}
    (h : Handles p c e r) (hc : c.Sound) (hreturns : e.returns = true) :
    r.connection.Sound ∧ r.thrown = none := by
  have hfailed {error : ErrorCode} (habort : error ≠ .operationAborted)
      (hpeer : error.isClosedByPeer = false)
      (hreturns : (error == .operationAborted || error.isClosedByPeer) = true) : False := by
    rw [hpeer, Bool.or_false, beq_iff_eq] at hreturns
    exact habort hreturns
  cases h with
  | close htask hcalls hcloses => exact hcloses.sound ⟨hc.callbacks, hc.closed⟩ hreturns
  | readClosedByPeer => exact ⟨⟨hc.callbacks, fun _ => rfl⟩, rfl⟩
  | readFailed _ _ habort hpeer => exact (hfailed habort hpeer hreturns).elim
  | readInvalid _ _ _ _ hcloses =>
    exact hcloses.sound ⟨hc.callbacks, hc.closed⟩ hreturns
  | writeClosedByPeer => exact ⟨⟨hc.callbacks, fun _ => rfl⟩, rfl⟩
  | writeFailed _ _ habort hpeer => exact (hfailed habort hpeer hreturns).elim
  | _ => exact ⟨⟨hc.callbacks, hc.closed⟩, rfl⟩

/-- A handler that returns gives a message back only with `on_sent` or `on_closed`, unless the
connection is `STOPPED` already. -/
theorem Handles.sends_ne_zero {p : MessageParser ω} {c : Connection μ} {e : Event}
    {r : Handled ω μ} (h : Handles p c e r) (hc : c.Sound) (hreturns : e.returns = true)
    (hsends : c.sends ≠ 0) :
    r.connection.sends ≠ 0 ∨ r.callbacks.filterMap Callback.sentMessage ≠ [] ∨
      (∃ cb ∈ r.callbacks, cb.isOnClosed = true) ∨ c.state = .stopped := by
  by_cases hafter : r.connection.sends = 0
  · right
    by_cases hsent : r.callbacks.filterMap Callback.sentMessage = []
    · right
      obtain ⟨lost, heq, hlost⟩ := h.sends
      rw [hafter, hsent, Multiset.coe_nil, zero_add, zero_add] at heq
      obtain ⟨i, error, rfl⟩ := hlost.resolve_left fun hnone => hsends (heq.trans hnone)
      cases h with
      | @writeAborted _ _ started _ hadmits =>
        -- only a write of a closed socket is aborted
        refine .inr (hc.closed ?_)
        cases started with
        | closed => cases SocketState.admits_closed.mp hadmits
        | opened =>
          cases hsocket : c.socket with
          | closed => rfl
          | opened =>
            rw [hsocket] at hadmits
            cases hadmits
      | writeClosedByPeer => exact .inl ⟨_, List.mem_singleton_self _, rfl⟩
      | writeFailed _ _ habort hpeer =>
        simp only [Event.returns, hpeer, Bool.or_false, beq_iff_eq] at hreturns
        exact absurd hreturns habort
    · exact .inl hsent
  · exact .inl hafter

end Connection

end MsgpackRpc.Transport

namespace MsgpackRpc.Clients

open MsgpackRpc.Transport

variable {ω μ : Type}

namespace Pc

/-- The routine is about to store `false` in `is_sending_`. -/
def clears : Pc μ → Bool
  | .pop _ | .storeSent | .handleDisconnection => true
  | _ => false

/-- The routine has won the exchange with connection `c`. -/
def sendsOn (c : Nat) : Pc μ → Bool
  | .asyncSend c' _ | .postSend c' _ => c' == c
  | _ => false

/-- The connection with which the routine is about to try the exchange. -/
def exchanging : Pc μ → Option Nat
  | .exchangeSending c _ => some c
  | _ => none

def isStop : Pc μ → Bool
  | .stopExchange | .stopClose | .stopCancel => true
  | _ => false

/-- The routine has returned, or is a call of `send` before `send_next`. -/
def isQuiet : Pc μ → Bool
  | .push _ _ | .done => true
  | _ => false

end Pc

def ClientAction.isStop : ClientAction μ → Bool
  | .stop => true
  | _ => false

def ClientAction.returns : ClientAction μ → Bool
  | .context _ e => e.returns
  | _ => true

namespace Client

/-- Some routine stands at a step of this kind. -/
def Any (s : Client μ) (kind : Pc μ → Bool) : Prop := ∃ r ∈ s.routines, kind r.pc = true

instance (s : Client μ) (kind : Pc μ → Bool) : Decidable (s.Any kind) :=
  inferInstanceAs (Decidable (∃ r ∈ s.routines, kind r.pc = true))

/-- The registered connection has something in flight. -/
def InFlight (s : Client μ) (c : Nat) : Prop := ∃ k ∈ s.connections[c]?, k.sends ≠ 0

instance [DecidableEq μ] (s : Client μ) (c : Nat) : Decidable (s.InFlight c) :=
  inferInstanceAs (Decidable (∃ k ∈ s.connections[c]?, k.sends ≠ 0))

/-- Something is under way that leads to a store of `false` in `is_sending_`. -/
def Unblocks (s : Client μ) : Prop :=
  s.Any Pc.clears ∨ ∃ c ∈ s.connection,
    s.Any (Pc.closes c) ∨ s.Any (Pc.sendsOn c) ∨ s.InFlight c

instance [DecidableEq μ] (s : Client μ) : Decidable s.Unblocks :=
  inferInstanceAs (Decidable (_ ∨ ∃ c ∈ s.connection, _ ∨ _ ∨ _))

/-- The steps after which `is_sending_` stays true only with something under way.  An exchange is
won with the registered connection, or while something else is under way; no registered connection
is replaced while `is_sending_` is true and nothing is about to clear it; and no handler throws. -/
def StepsUnblocked (s : Client μ) (a : ClientAction μ) : Prop :=
  a.returns = true ∧ ∀ r ∈ s.stepping a,
    (∀ c ∈ r.pc.exchanging, s.isSending = true ∨ s.connection = some c ∨ s.Unblocks) ∧
      (r.pc = .connectionRegister →
        s.isSending = false ∨ s.connection = none ∨ s.Any Pc.clears)

instance [DecidableEq μ] (s : Client μ) (a : ClientAction μ) : Decidable (s.StepsUnblocked a) :=
  inferInstanceAs (Decidable (_ ∧ ∀ r ∈ s.stepping a, (∀ c ∈ r.pc.exchanging, _ ∨ _ ∨ _) ∧ (_ → _)))

/-- If `is_sending_` is true, the registered connection has accepted a message whose `on_sent`, or
the `on_closed` of that connection, is still to come. -/
def AwaitsSent (s : Client μ) : Prop :=
  s.isSending = true → ∃ c ∈ s.connection, s.InFlight c ∧ c ∉ s.closedBy

/-- No thread is inside `send_next` and no callback is running. -/
def IsQuiet (s : Client μ) : Prop := ∀ r ∈ s.routines, r.pc.isQuiet = true

instance (s : Client μ) : Decidable s.IsQuiet :=
  inferInstanceAs (Decidable (∀ r ∈ s.routines, r.pc.isQuiet = true))

/-- What a run keeps that is never stopped and never blocked. -/
structure Progressing (s : Client μ) : Prop where
  valid : s.Valid
  running : s.isStopped = false
  stopping : ∀ r ∈ s.routines, r.pc.isStop = false
  connections : ∀ c k, s.connections[c]? = some k →
    k.Sound ∧ (k.state = .processing ∨ c ∈ s.closedBy)
  told : ∀ c, s.connection = some c → c ∈ s.closedBy → s.Any (Pc.closes c)
  unblocks : s.isSending = true → s.Unblocks

theorem progressing_init : Progressing ({} : Client μ) where
  valid := valid_init
  running := rfl
  stopping := nofun
  connections := nofun
  told := nofun
  unblocks := nofun

theorem Progressing.awaitsSent {s : Client μ} (h : s.Progressing) (hquiet : s.IsQuiet) :
    s.AwaitsSent := by
  intro hsending
  have hnone {kind : Pc μ → Bool} (hkind : ∀ pc, kind pc = true → pc.isQuiet = false) :
      ¬ s.Any kind := by
    intro ⟨r, hr, hpc⟩
    have hnot := hkind r.pc hpc
    rw [hquiet r hr] at hnot
    cases hnot
  have hcloses (c : Nat) : ¬ s.Any (Pc.closes c) := hnone fun pc hpc => by
    cases pc <;> first | rfl | cases hpc
  have hsendsOn (c : Nat) : ¬ s.Any (Pc.sendsOn c) := hnone fun pc hpc => by
    cases pc <;> first | rfl | cases hpc
  have hclears : ¬ s.Any Pc.clears := hnone fun pc hpc => by
    cases pc <;> first | rfl | cases hpc
  obtain ⟨c, hconnection, hway⟩ := (h.unblocks hsending).resolve_left hclears
  have hinFlight := (hway.resolve_left (hcloses c)).resolve_left (hsendsOn c)
  exact ⟨c, hconnection, hinFlight, fun hclosed => hcloses c (h.told c hconnection hclosed)⟩

/-! ## A step of a routine -/

theorem Any.of_set {s t : Client μ} {i : Nat} {r r' : Routine μ} {kind : Pc μ → Bool}
    (h : s.Any kind) (hr : s.routines[i]? = some r)
    (hcarry : kind r.pc = true → kind r'.pc = true) :
    (t.withRoutines (s.routines.set i r')).Any kind := by
  have hi : i < s.routines.length := (List.getElem?_eq_some_iff.mp hr).1
  rcases List.exists_mem_set hr r' h with hpc | hother
  · exact ⟨r', List.mem_set hi r', hcarry hpc⟩
  · exact hother

theorem Unblocks.of_set {s t : Client μ} {i : Nat} {r r' : Routine μ} (h : s.Unblocks)
    (hr : s.routines[i]? = some r) (hconnection : t.connection = s.connection)
    (hinFlight : ∀ c, s.InFlight c → t.InFlight c)
    (hclears : r.pc.clears = true → r'.pc.clears = true)
    (hcloses : ∀ c, r.pc.closes c = true → r'.pc.closes c = true)
    (hsends : ∀ c, r.pc.sendsOn c = true → s.connection = some c →
      (t.withRoutines (s.routines.set i r')).Unblocks) :
    (t.withRoutines (s.routines.set i r')).Unblocks := by
  rcases h with hany | ⟨c, hc, hany | hany | hflight⟩
  · exact .inl (hany.of_set hr hclears)
  · exact .inr ⟨c, hconnection.trans hc, .inl (hany.of_set hr (hcloses c))⟩
  · rcases List.exists_mem_set hr r' hany with hpc | hother
    · exact hsends c hpc hc
    · exact .inr ⟨c, hconnection.trans hc, .inr (.inl hother)⟩
  · exact .inr ⟨c, hconnection.trans hc, .inr (.inr (hinFlight c hflight))⟩

/-- A routine that sends has its own way on; it clears nothing and drops nothing. -/
theorem Unblocks.of_sending {s t : Client μ} {i : Nat} {r r' : Routine μ} (h : s.Unblocks)
    (hr : s.routines[i]? = some r) (hconnection : t.connection = s.connection)
    (hinFlight : ∀ c, s.InFlight c → t.InFlight c) (hclears : r.pc.clears = false)
    (hcloses : ∀ c, r.pc.closes c = false)
    (hsends : ∀ c, r.pc.sendsOn c = true → s.connection = some c →
      (t.withRoutines (s.routines.set i r')).Unblocks) :
    (t.withRoutines (s.routines.set i r')).Unblocks := by
  refine h.of_set hr hconnection hinFlight (fun hpc => ?_) (fun c hpc => ?_) hsends
  · rw [hclears] at hpc
    cases hpc
  · rw [hcloses] at hpc
    cases hpc

/-- A routine that is on no such way leaves what is under way. -/
theorem Unblocks.of_idle {s t : Client μ} {i : Nat} {r r' : Routine μ} (h : s.Unblocks)
    (hr : s.routines[i]? = some r) (hconnection : t.connection = s.connection)
    (hinFlight : ∀ c, s.InFlight c → t.InFlight c) (hclears : r.pc.clears = false)
    (hcloses : ∀ c, r.pc.closes c = false) (hsends : ∀ c, r.pc.sendsOn c = false) :
    (t.withRoutines (s.routines.set i r')).Unblocks := by
  refine h.of_sending hr hconnection hinFlight hclears hcloses fun c hpc _ => ?_
  rw [hsends] at hpc
  cases hpc

theorem Goes.way {s : Client μ} {pc pc' : Pc μ} (h : Goes s pc pc')
    (hrunning : s.isStopped = false) :
    pc.clears = false ∧ (∀ c, pc.closes c = true → pc'.closes c = true) ∧
      ∀ c, pc.sendsOn c = false := by
  cases h with
  | closed => exact ⟨rfl, fun _ hc => hc, fun _ => rfl⟩
  | closedStopped hstopped =>
    rw [hrunning] at hstopped
    cases hstopped
  | _ => exact ⟨rfl, nofun, fun _ => rfl⟩

theorem InFlight.postTo {s : Client μ} {c : Nat} (h : s.InFlight c) (c' : Nat)
    (task : Transport.Task (Entry μ)) : (s.postTo c' task).InFlight c := by
  obtain ⟨k, hk, hsends⟩ := h
  unfold Client.postTo
  split
  · rename_i k' hk'
    by_cases heq : c' = c
    · subst heq
      have hc : c' < s.connections.length := (List.getElem?_eq_some_iff.mp hk).1
      refine ⟨k'.post task, List.getElem?_set_self hc, fun hzero => hsends ?_⟩
      rw [hk] at hk'
      cases hk'
      rw [Connection.sends_post] at hzero
      exact Multiset.le_zero.mp (hzero ▸ Multiset.le_add_right _ _)
    · exact ⟨k, (List.getElem?_set_ne heq).trans hk, hsends⟩
  · exact ⟨k, hk, hsends⟩

theorem inFlight_postTo_send {s : Client μ} {c : Nat} (hc : c < s.connections.length)
    (entry : Entry μ) : (s.postTo c (.asyncSendInThread entry)).InFlight c := by
  unfold postTo
  rw [List.getElem?_eq_getElem hc]
  refine ⟨_, List.getElem?_set_self hc, fun hzero => ?_⟩
  rw [Connection.sends_post] at hzero
  have hmem : entry ∈ s.connections[c].sends + ({entry} : Multiset (Entry μ)) :=
    Multiset.mem_add.mpr (.inr (Multiset.mem_singleton_self entry))
  rw [show s.connections[c].sends + ({entry} : Multiset (Entry μ)) = 0 from hzero] at hmem
  exact absurd hmem (Multiset.notMem_zero entry)

theorem Progressing.unblocks_advance {s t : Client μ} {i : Nat} {r r' : Routine μ}
    (h : s.Progressing) (hok : s.StepsUnblocked (.routine i)) (hr : s.routines[i]? = some r)
    (hadvances : Advances s r t r') (hsending : t.isSending = true) :
    (t.withRoutines (s.routines.set i r')).Unblocks := by
  have hmem : r ∈ s.routines := List.mem_of_getElem? hr
  have hi : i < s.routines.length := (List.getElem?_eq_some_iff.mp hr).1
  have hfalse {p : Prop} : false = true → p := by
    intro heq
    cases heq
  obtain ⟨hexchange, hregister⟩ := hok.2 r hr
  cases hadvances with
  | goes hgoes =>
    obtain ⟨hclears, hcloses, hsends⟩ := hgoes.way h.running
    refine (h.unblocks hsending).of_set hr rfl (fun _ => id) (fun hpc => ?_) hcloses
      fun c hpc _ => ?_
    · rw [hclears] at hpc
      cases hpc
    · rw [hsends] at hpc
      cases hpc
  | @exchangeWon c entry hpc hfree =>
    -- the winner sends on the registered connection, or somebody else clears the flag
    rcases hexchange c (by rw [hpc]; rfl) with htaken | hconnection | hunblocks
    · rw [hfree] at htaken
      cases htaken
    · refine .inr ⟨c, hconnection, .inr (.inl ⟨_, List.mem_set hi _, ?_⟩)⟩
      exact beq_self_eq_true c
    · apply hunblocks.of_idle hr rfl (fun _ => id) <;> rw [hpc] <;> first | rfl | exact fun _ => rfl
  | pushed entry hpc | connecting hpc | waiting hpc =>
    apply (h.unblocks hsending).of_idle hr rfl (fun _ => id) <;> rw [hpc] <;>
      first | rfl | exact fun _ => rfl
  | sendAccepted hpc =>
    -- the message is on its way to a connection that has accepted it
    refine (h.unblocks hsending).of_sending hr rfl (fun _ => id) ?_ ?_ fun c hsends hc => ?_
    · rw [hpc]
      rfl
    · rw [hpc]
      exact fun _ => rfl
    · rw [hpc] at hsends
      exact .inr ⟨c, hc, .inr (.inl ⟨_, List.mem_set hi _, hsends⟩)⟩
  | @sendDropped c entry hpc hdown =>
    -- the connection is down: its `on_closed` is still to be worked off
    refine (h.unblocks hsending).of_sending hr rfl (fun _ => id) ?_ ?_ fun c' hsends hc' => ?_
    · rw [hpc]
      rfl
    · rw [hpc]
      exact fun _ => rfl
    · rw [hpc] at hsends
      obtain rfl : c = c' := eq_of_beq hsends
      have hlength := h.valid.connection c hc'
      have hup := (h.connections c _ (List.getElem?_eq_getElem hlength)).2
      have hclosed : c ∈ s.closedBy := by
        refine hup.resolve_left fun hup => ?_
        rw [processing, List.getElem?_eq_getElem hlength, Option.any_some,
          State.isProcessing_eq_true.mpr hup] at hdown
        cases hdown
      refine .inr ⟨c, hc', .inl ((h.told c hc' hclosed).of_set hr ?_)⟩
      rw [hpc]
      exact hfalse
  | @sendPosted c entry hpc =>
    obtain ⟨connections, heq⟩ := postTo_eq s c (.asyncSendInThread entry)
    have hsending' : s.isSending = true := by
      rw [heq] at hsending
      exact hsending
    have hconnection : (s.postTo c (.asyncSendInThread entry)).connection = s.connection := by
      rw [heq]
    -- the post puts the message in flight
    refine (h.unblocks hsending').of_sending hr hconnection (fun c' hc' => hc'.postTo c _) ?_ ?_
      fun c' hsends hc' => ?_
    · rw [hpc]
      rfl
    · rw [hpc]
      exact fun _ => rfl
    · rw [hpc] at hsends
      obtain rfl : c = c' := eq_of_beq hsends
      refine .inr ⟨c, hconnection.trans hc', .inr (.inr ?_)⟩
      exact inFlight_postTo_send (h.valid.connection c hc') entry
  | popped hpc =>
    exact .inl ⟨_, List.mem_set hi _, rfl⟩
  | storedSent => cases hsending
  | reset => exact .inl ⟨_, List.mem_set hi _, rfl⟩
  | disconnected => cases hsending
  | registered hpc =>
    -- what was in flight on another connection counts no longer
    have hclears : s.Any Pc.clears := by
      rcases hregister hpc with hfree | hnone | hclears
      · rw [show s.isSending = true from hsending] at hfree
        cases hfree
      · refine (h.unblocks hsending).resolve_right ?_
        rintro ⟨c, hc, -⟩
        rw [hnone] at hc
        cases hc
      · exact hclears
    refine .inl (hclears.of_set hr ?_)
    rw [hpc]
    exact hfalse
  | _ hpc =>
    have hstop := h.stopping r hmem
    rw [hpc] at hstop
    cases hstop

/-- Without a stop the connector only drops a connection that is closed, and registers new ones. -/
theorem Advances.connection_cases {s t : Client μ} {r r' : Routine μ} (h : Advances s r t r')
    (hrunning : s.isStopped = false) (hstop : r.pc.isStop = false) :
    t.isStopped = false ∧ r'.pc.isStop = false ∧
      (t.connection = s.connection ∧ (∀ c, r.pc.closes c = true → r'.pc.closes c = true) ∨
        t.connection = none ∨ t.connection = some s.connections.length) := by
  cases h with
  | goes hgoes =>
    refine ⟨hrunning, ?_, .inl ⟨rfl, (hgoes.way hrunning).2.1⟩⟩
    generalize r.pc = pc at hgoes hstop
    cases hgoes <;> first | rfl | cases hstop
  | reset => exact ⟨hrunning, rfl, .inr (.inl rfl)⟩
  | registered => exact ⟨hrunning, rfl, .inr (.inr rfl)⟩
  | @sendPosted c entry hpc =>
    obtain ⟨connections, heq⟩ := postTo_eq s c (.asyncSendInThread entry)
    rw [heq, hpc]
    exact ⟨hrunning, rfl, .inl ⟨rfl, nofun⟩⟩
  | pushed entry hpc =>
    rw [hpc]
    exact ⟨hrunning, rfl, .inl ⟨rfl, nofun⟩⟩
  | stopped hpc =>
    rw [hpc] at hstop
    cases hstop
  | stopClosed hpc =>
    rw [hpc] at hstop
    cases hstop
  | stopCancelled hpc =>
    rw [hpc] at hstop
    cases hstop
  | _ hpc =>
    rw [hpc]
    exact ⟨hrunning, rfl, .inl ⟨rfl, nofun⟩⟩

theorem Progressing.routine {s t : Client μ} {i : Nat} {r r' : Routine μ} (h : s.Progressing)
    (hok : s.StepsUnblocked (.routine i)) (hr : s.routines[i]? = some r)
    (hadvances : Advances s r t r') (hvalid : (t.withRoutines (s.routines.set i r')).Valid) :
    (t.withRoutines (s.routines.set i r')).Progressing := by
  have hmem : r ∈ s.routines := List.mem_of_getElem? hr
  have hclosedBy : t.closedBy = s.closedBy := hadvances.valid.2.1
  obtain ⟨hrunning, hstop, hconnection⟩ :=
    hadvances.connection_cases h.running (h.stopping r hmem)
  refine ⟨hvalid, hrunning, fun x hx => ?_, ?_, fun c hc hclosed => ?_, fun hsending => ?_⟩
  · rcases List.mem_or_eq_of_mem_set hx with hx | rfl
    · exact h.stopping x hx
    · exact hstop
  · show ∀ c k, t.connections[c]? = some k → k.Sound ∧ (k.state = .processing ∨ c ∈ t.closedBy)
    rw [hclosedBy]
    refine hadvances.connections_keep (fun c k task hk => ?_) ?_ h.connections
    · exact ⟨⟨hk.1.callbacks, hk.1.closed⟩, hk.2⟩
    · exact ⟨⟨rfl, nofun⟩, .inl rfl⟩
  · have hclosed : c ∈ s.closedBy := hclosedBy ▸ hclosed
    rcases hconnection with ⟨hsame, hcloses⟩ | hnone | hnew
    · exact (h.told c (hsame ▸ hc) hclosed).of_set hr (hcloses c)
    · rw [show t.connection = some c from hc] at hnone
      cases hnone
    · rw [show t.connection = some c from hc, Option.some.injEq] at hnew
      have hlt := h.valid.closedBy c hclosed
      omega
  · exact h.unblocks_advance hok hr hadvances hsending

/-! ## A step of a context -/

theorem Any.mono {s t : Client μ} {kind : Pc μ → Bool} (h : s.Any kind)
    (hroutines : s.routines ⊆ t.routines) : t.Any kind := by
  obtain ⟨r, hr, hpc⟩ := h
  exact ⟨r, hroutines hr, hpc⟩

theorem Unblocks.mono {s t : Client μ} (h : s.Unblocks) (hroutines : s.routines ⊆ t.routines)
    (hconnection : t.connection = s.connection)
    (hflight : ∀ c, s.connection = some c → s.InFlight c → t.Unblocks) : t.Unblocks := by
  rcases h with hany | ⟨c, hc, hany | hany | hfl⟩
  · exact .inl (hany.mono hroutines)
  · exact .inr ⟨c, hconnection.trans hc, .inl (hany.mono hroutines)⟩
  · exact .inr ⟨c, hconnection.trans hc, .inr (.inl (hany.mono hroutines))⟩
  · exact hflight c hc hfl

theorem Progressing.spawn {s t : Client μ} {pc : Pc μ} (h : s.Progressing)
    (hvalid : (t.spawn pc).Valid) (hroutines : t.routines = s.routines)
    (hconnection : t.connection = s.connection) (hconnections : t.connections = s.connections)
    (hclosedBy : t.closedBy = s.closedBy) (hstopped : t.isStopped = s.isStopped)
    (hsending : t.isSending = s.isSending) (hpc : pc.isStop = false) :
    (t.spawn pc).Progressing := by
  have hsub : s.routines ⊆ (t.spawn pc).routines := by
    rw [← hroutines]
    exact List.subset_append_left _ _
  refine ⟨hvalid, hstopped.trans h.running, fun r hr => ?_, fun c k hk => ?_,
    fun c hc hclosed => ?_, fun hs => ?_⟩
  · simp only [Client.spawn, hroutines, List.mem_append, List.mem_singleton] at hr
    rcases hr with hr | rfl
    · exact h.stopping r hr
    · exact hpc
  · show k.Sound ∧ (k.state = .processing ∨ c ∈ t.closedBy)
    rw [hclosedBy]
    exact h.connections c k (hconnections ▸ hk)
  · exact (h.told c (hconnection ▸ hc) (hclosedBy ▸ hclosed)).mono hsub
  · refine (h.unblocks (hsending ▸ hs)).mono hsub hconnection fun c hc hin => ?_
    obtain ⟨k, hk, hsends⟩ := hin
    exact .inr ⟨c, hconnection.trans hc, .inr (.inr ⟨k, hconnections ▸ hk, hsends⟩)⟩

theorem Progressing.context {p : MessageParser ω} {s : Client μ} {c : Nat}
    {k : Connection (Entry μ)} {e : Connection.Event} {r : Handled ω (Entry μ)} (h : s.Progressing)
    (hreturns : e.returns = true) (hk : s.connections[c]? = some k)
    (hhandles : Connection.Handles p k e r) (hvalid : (s.deliver c r).Valid) :
    (s.deliver c r).Progressing := by
  have hc : c < s.connections.length := (List.getElem?_eq_some_iff.mp hk).1
  obtain ⟨hsound, hup⟩ := h.connections c k hk
  obtain ⟨hsound', hthrown⟩ := hhandles.sound hsound hreturns
  have hstopped (hstate : k.state = .stopped) : c ∈ s.closedBy :=
    hup.resolve_left fun hprocessing => by
      rw [hprocessing] at hstate
      cases hstate
  have hafter (hclosed : ∀ cb ∈ r.callbacks, cb.isOnClosed = false) :
      r.connection.state = .processing ∨ c ∈ s.closedBy := by
    rcases hhandles.state_eq with hsame | hstop
    · rw [hsame]
      exact hup
    · refine .inr ((hhandles.onClosed_of_stopped hthrown hstop).elim hstopped ?_)
      rintro ⟨cb, hcb, htrue⟩
      rw [hclosed cb hcb] at htrue
      cases htrue
  have hother {closedBy : List Nat} (hsub : s.closedBy ⊆ closedBy)
      (hstate : r.connection.state = .processing ∨ c ∈ closedBy) (c' : Nat)
      (k' : Connection (Entry μ)) (hk' : (s.connections.set c r.connection)[c']? = some k') :
      k'.Sound ∧ (k'.state = .processing ∨ c' ∈ closedBy) := by
    by_cases heq : c = c'
    · subst heq
      rw [List.getElem?_set_self hc, Option.some.injEq] at hk'
      rw [← hk']
      exact ⟨hsound', hstate⟩
    · rw [List.getElem?_set_ne heq] at hk'
      obtain ⟨hs, hu⟩ := h.connections c' k' hk'
      exact ⟨hs, hu.imp_right fun hmem => hsub hmem⟩
  have hflight {t : Client μ} (hconnections : t.connections = s.connections.set c r.connection)
      {c' : Nat} (hne : c ≠ c') (hin : s.InFlight c') : t.InFlight c' := by
    obtain ⟨k', hk', hsends⟩ := hin
    exact ⟨k', by rw [hconnections]; exact (List.getElem?_set_ne hne).trans hk', hsends⟩
  have hdelivers := delivers s c hhandles
  generalize s.deliver c r = t at hvalid hdelivers ⊢
  cases hdelivers with
  | silent hsent hclosed =>
    refine ⟨hvalid, h.running, h.stopping, hother (fun _ => id) (hafter hclosed), h.told,
      fun hsending => ?_⟩
    refine (h.unblocks hsending).mono (fun _ => id) rfl fun c' hc' hin => ?_
    by_cases heq : c = c'
    · subst heq
      obtain ⟨k', hk', hsends⟩ := hin
      rw [Option.mem_def, hk, Option.some.injEq] at hk'
      subst hk'
      rcases hhandles.sends_ne_zero hsound hreturns hsends with hkeeps | hback | ⟨cb, hcb, htrue⟩ |
        hstate
      · exact .inr ⟨c, hc', .inr (.inr ⟨r.connection, List.getElem?_set_self hc, hkeeps⟩)⟩
      · exact absurd hsent hback
      · rw [hclosed cb hcb] at htrue
        cases htrue
      · exact .inr ⟨c, hc', .inl ((h.told c hc' (hstopped hstate)).mono fun _ => id)⟩
    · exact .inr ⟨c', hc', .inr (.inr (hflight rfl heq hin))⟩
  | closed hsent hstate =>
    have hsub : s.routines ⊆ s.routines ++ [{ context := some c, pc := .closedLoad c }] :=
      List.subset_append_left _ _
    have hnew : Routine.mk (some c) (.closedLoad c) ∈
        s.routines ++ [{ context := some c, pc := .closedLoad c }] :=
      List.mem_append_right _ (List.mem_singleton_self _)
    refine ⟨hvalid, h.running, fun x hx => ?_, hother (List.subset_append_left _ _) ?_,
      fun c' hc' hmem => ?_, fun hsending => ?_⟩
    · rcases List.mem_append.mp hx with hx | hx
      · exact h.stopping x hx
      · rw [List.mem_singleton.mp hx]
        rfl
    · exact .inr (List.mem_append_right _ (List.mem_singleton_self c))
    · rcases List.mem_append.mp hmem with hmem | hmem
      · exact (h.told c' hc' hmem).mono hsub
      · rw [List.mem_singleton.mp hmem]
        exact ⟨_, hnew, beq_self_eq_true c⟩
    · refine (h.unblocks hsending).mono hsub rfl fun c' hc' hin => ?_
      by_cases heq : c = c'
      · exact .inr ⟨c', hc', .inl ⟨_, hnew, beq_of_eq heq⟩⟩
      · exact .inr ⟨c', hc', .inr (.inr (hflight rfl heq hin))⟩
  | sent entry hsent hclosed =>
    refine ⟨hvalid, h.running, fun x hx => ?_, hother (fun _ => id) (hafter hclosed),
      fun c' hc' hmem => (h.told c' hc' hmem).mono (List.subset_append_left _ _), fun _ => ?_⟩
    · rcases List.mem_append.mp hx with hx | hx
      · exact h.stopping x hx
      · rw [List.mem_singleton.mp hx]
        rfl
    · exact .inl ⟨_, List.mem_append_right _ (List.mem_singleton_self _), rfl⟩

theorem Progressing.step {p : MessageParser ω} {s s' : Client μ} {a : ClientAction μ}
    (h : s.Progressing) (hstop : a.isStop = false) (hok : s.StepsUnblocked a)
    (hsteps : Steps p s a s') : s'.Progressing := by
  have hvalid : s'.Valid := valid_step h.valid hsteps
  cases hsteps with
  | stop => cases hstop
  | routine hr hadvances => exact h.routine hok hr hadvances hvalid
  | context hthrown hk hhandles => exact h.context hok.1 hk hhandles hvalid
  | _ => exact h.spawn hvalid rfl rfl rfl rfl rfl rfl rfl

end Client

/-- In a run that is not stopped and whose steps leave the sender unblocked, a quiet client whose
`is_sending_` is true has a message in flight on its registered connection. -/
theorem awaitsSent_of_stepsUnblocked (p : MessageParser ω) (schedule : List (ClientAction μ))
    (s : Client μ) (hstop : ∀ a ∈ schedule, a.isStop = false)
    (hok : (clientMachine p μ).Meets (fun s a _ => s.StepsUnblocked a) {} schedule)
    (hrun : (clientMachine p μ).run {} schedule = some s) (hquiet : s.IsQuiet) : s.AwaitsSent := by
  have hkeep : ∀ s a s', s.Progressing → a.isStop = false ∧ s.StepsUnblocked a →
      (clientMachine p μ).step s a = some s' → s'.Progressing := by
    intro s a s' h ⟨hnot, hunblocked⟩ hstep
    exact h.step hnot hunblocked (Client.steps_of_step hstep)
  have hmeets := (Machine.meets_of_forall_mem hstop).and hok
  have h := Machine.run_invariant hkeep Client.progressing_init hmeets hrun
  exact h.awaitsSent hquiet

/-- A message is in flight and everybody else has returned. -/
def sendingMessageSchedule : List (ClientAction Nat) :=
  List.flatten [connectedSchedule, [.send 7 none], routineSteps 1 7, [.context 0 (.task 0 {})]]

theorem awaitsSent_sendingMessageSchedule :
    ∃ s, (clientMachine (idleParser Nat) Nat).run {} sendingMessageSchedule = some s ∧
      s.isSending = true ∧ s.AwaitsSent := by
  have hrun : ((clientMachine (idleParser Nat) Nat).run {} sendingMessageSchedule).map
      (fun s => (s.isSending, decide s.IsQuiet)) = some (true, true) := by decide
  obtain ⟨s, hs, heq⟩ := Option.map_eq_some_iff.mp hrun
  obtain ⟨hsending, hquiet⟩ := Prod.mk.inj heq
  exact ⟨s, hs, hsending, awaitsSent_of_stepsUnblocked (idleParser Nat) sendingMessageSchedule s
    (by decide) (by decide) hs (of_decide_eq_true hquiet)⟩

/-- A thread has fetched the first connection and stops before the exchange.  The connection is
closed and its flag cleared; then the thread wins the exchange, and its message is dropped.  The
next connection finds the flag taken. -/
def blockedSchedule : List (ClientAction Nat) :=
  List.flatten [connectedSchedule, [.send 7 none], routineSteps 1 4,
    [.context 0 (.read 0 (some .eof) [] {})], routineSteps 2 4, routineSteps 1 2, [.connected],
    routineSteps 3 3]

theorem sender_blocked :
    ¬ ∀ (schedule : List (ClientAction Nat)) (s : Client Nat), (∀ a ∈ schedule, a.isStop = false) →
      (clientMachine (idleParser Nat) Nat).run {} schedule = some s → s.IsQuiet → s.AwaitsSent := by
  intro h
  have hrun : ((clientMachine (idleParser Nat) Nat).run {} blockedSchedule).map
      (fun s => (s.isSending, decide s.IsQuiet, s.connection,
        s.connections[1]?.map Connection.sends)) = some (true, true, some 1, some 0) := by decide
  obtain ⟨s, hs, heq⟩ := Option.map_eq_some_iff.mp hrun
  simp only [Prod.mk.injEq] at heq
  obtain ⟨hsending, hquiet, hconnection, hsends⟩ := heq
  obtain ⟨c, hc, ⟨k, hk, hne⟩, -⟩ := h _ s (by decide) hs (of_decide_eq_true hquiet) hsending
  rw [hconnection, Option.mem_some_iff] at hc
  subst hc
  rw [Option.mem_def.mp hk, Option.map_some, Option.some.injEq] at hsends
  exact hne hsends

end MsgpackRpc.Clients
