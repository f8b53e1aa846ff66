import MsgpackRpc.Clients.ClientConnector
import MsgpackRpc.Clients.MessageOrder
import MsgpackRpc.Transport.LiveConnection

/-!
# The connection that stays up

While no connection closes, a client makes only one, and it has begun to write everything that has
been given to `async_send` but at most one message.
-/

namespace MsgpackRpc.Clients

open MsgpackRpc.Transport

variable {ω μ : Type}

/-- What a routine has given to `async_send` and is about to post. -/
def Pc.posting : Pc μ → Multiset (Entry μ)
  | .postSend _ entry => {entry}
  | _ => 0

namespace Client

/-- The entries given to `async_send` whose write is still to be started. -/
def pending (s : Client μ) : Multiset (Entry μ) :=
  (s.routines.map fun r => r.pc.posting).sum + (s.connections.map Connection.queued).sum

/-- The entry whose write a step starts. -/
def starting (s : Client μ) : ClientAction μ → Option (Entry μ)
  | .context c e => s.connections[c]?.bind fun k => e.starts k
  | _ => none

theorem pending_le_outstanding (s : Client μ) : s.pending ≤ s.outstanding := by
  refine add_le_add (List.sum_le_sum fun r _ => ?_)
    (List.sum_le_sum fun k _ => Connection.queued_le_sends k)
  cases r.pc with
  | postSend => exact le_refl _
  | _ => exact Multiset.zero_le _

theorem Serving.card_pending_le {s : Client μ} (h : s.Serving) : s.pending.card ≤ 1 :=
  (Multiset.card_le_card s.pending_le_outstanding).trans h.sendsInOrder.single

theorem sum_queued_postTo {s : Client μ} {c : Nat} (hc : c < s.connections.length)
    (task : Transport.Task (Entry μ)) :
    ((s.postTo c task).connections.map Connection.queued).sum =
      (s.connections.map Connection.queued).sum + (task.message.toList : Multiset (Entry μ)) := by
  have hk : s.connections[c]? = some s.connections[c] := List.getElem?_eq_getElem hc
  obtain ⟨rest, hbefore, hafter⟩ := List.exists_sum_map_set Connection.queued hk
  unfold postTo
  rw [hk]
  show ((s.connections.set c _).map Connection.queued).sum = _
  rw [hafter, hbefore, Connection.queued_post, add_right_comm]

theorem pending_spawn {s t : Client μ} {pc : Pc μ} (hconnections : t.connections = s.connections)
    (hroutines : t.routines = s.routines) (hpc : pc.posting = 0) :
    (t.spawn pc).pending = s.pending := by
  simp only [pending, spawn, hconnections, hroutines, List.map_append, List.sum_append,
    List.map_cons, List.map_nil, List.sum_singleton, hpc, add_zero]

/-- Where connections stay up, what a step gives to `async_send` is pending after it. -/
theorem Serving.pending_advance {s t : Client μ} {i : Nat} {r r' : Routine μ} (h : s.Serving)
    (hr : s.routines[i]? = some r) (hadvances : Advances s r t r') :
    ∃ new : List (Entry μ), t.handed = s.handed ++ new ∧
      (t.withRoutines (s.routines.set i r')).pending = s.pending + ↑new := by
  have hmem := List.mem_of_getElem? hr
  obtain ⟨rest, hbefore, hafter⟩ :=
    List.exists_sum_map_set (fun r : Routine μ => r.pc.posting) hr
  have hpending : s.pending =
      r.pc.posting + (rest + (s.connections.map Connection.queued).sum) := by
    rw [pending, hbefore, add_assoc]
  have hpending' : (t.withRoutines (s.routines.set i r')).pending =
      r'.pc.posting + (rest + (t.connections.map Connection.queued).sum) := by
    rw [← add_assoc, ← hafter]
    rfl
  rw [hpending, hpending']
  have kept (hhanded : t.handed = s.handed) (hposting : r'.pc.posting = r.pc.posting)
      (hqueued : (t.connections.map Connection.queued).sum =
        (s.connections.map Connection.queued).sum) :
      ∃ new : List (Entry μ), t.handed = s.handed ++ new ∧
        r'.pc.posting + (rest + (t.connections.map Connection.queued).sum) =
          r.pc.posting + (rest + (s.connections.map Connection.queued).sum) + ↑new :=
    ⟨[], by rw [hhanded, List.append_nil], by rw [hposting, hqueued, Multiset.coe_nil, add_zero]⟩
  cases hadvances with
  | goes hgoes =>
    generalize r.pc = pc at hgoes kept
    exact kept rfl (by cases hgoes <;> rfl) rfl
  | @sendAccepted c entry hpc hprocessing =>
    refine ⟨[entry], rfl, ?_⟩
    rw [hpc]
    show ({entry} : Multiset (Entry μ)) + _ = 0 + _ + _
    rw [zero_add, add_comm, Multiset.coe_singleton]
  | @sendDropped c entry hpc hprocessing =>
    -- every connection processes
    have hc := h.valid.routines r hmem c (by rw [hpc]; rfl)
    have hstate := h.up _ (List.getElem_mem hc)
    rw [processing, List.getElem?_eq_getElem hc, Option.any_some,
      State.isProcessing_eq_true.mpr hstate] at hprocessing
    cases hprocessing
  | @sendPosted c entry hpc =>
    have hc := h.valid.routines r hmem c (by rw [hpc]; rfl)
    obtain ⟨connections, heq⟩ := postTo_eq s c (.asyncSendInThread entry)
    refine ⟨[], ?_, ?_⟩
    · rw [heq, List.append_nil]
    · rw [sum_queued_postTo hc, hpc, Multiset.coe_nil, add_zero]
      show 0 + (rest + (_ + ({entry} : Multiset (Entry μ)))) = {entry} + _
      rw [zero_add, ← add_assoc, add_comm]
  | registered hpc =>
    refine kept rfl (by rw [hpc]; rfl) ?_
    rw [List.map_append, List.sum_append]
    exact add_zero _
  | @stopClosed c hpc hconnection =>
    have hc := h.valid.connection c hconnection
    obtain ⟨connections, heq⟩ := postTo_eq s c (.closeInThread {})
    refine kept ?_ (by rw [hpc]; rfl) ?_
    · rw [heq]
    · exact (sum_queued_postTo hc (.closeInThread {})).trans (add_zero _)
  | pushed _ hpc | exchangeWon hpc | popped hpc | stopped hpc =>
    exact kept rfl (by rw [hpc]; rfl) rfl
  | _ =>
    rename_i hpc
    exact kept rfl (by rw [hpc]; rfl) rfl

theorem Serving.pending_step {p : MessageParser ω} {s s' : Client μ} {a : ClientAction μ}
    (h : s.Serving) (hsteps : Steps p s a s') :
    ∃ new : List (Entry μ), s'.handed = s.handed ++ new ∧
      s.pending + ↑new = ((s.starting a).toList : Multiset (Entry μ)) + s'.pending := by
  have spawned {t : Client μ} {pc : Pc μ} (hnone : s.starting a = none)
      (hconnections : t.connections = s.connections) (hroutines : t.routines = s.routines)
      (hhanded : t.handed = s.handed) (hpc : pc.posting = 0) :
      ∃ new : List (Entry μ), (t.spawn pc).handed = s.handed ++ new ∧
        s.pending + ↑new =
          ((s.starting a).toList : Multiset (Entry μ)) + (t.spawn pc).pending := by
    refine ⟨[], hhanded.trans (List.append_nil _).symm, ?_⟩
    rw [pending_spawn hconnections hroutines hpc, hnone]
    exact add_comm _ _
  cases hsteps with
  | send | stop | connected | connectFailed | retryExpired => exact spawned rfl rfl rfl rfl rfl
  | routine hr hadvances =>
    obtain ⟨new, hhanded, hpending⟩ := h.pending_advance hr hadvances
    exact ⟨new, hhanded, by rw [hpending]; exact (zero_add _).symm⟩
  | @context c e k r _ hk hhandles =>
    obtain ⟨rest, hbefore, hafter⟩ := List.exists_sum_map_set Connection.queued hk
    have hqueued := hhandles.queued
    have hstarting : s.starting (.context c e) = e.starts k := by
      rw [starting, hk, Option.bind_some]
    have hdelivers := delivers s c hhandles
    generalize s.deliver c r = t at hdelivers ⊢
    have hsum : s.pending = ((e.starts k).toList : Multiset (Entry μ)) +
        ((s.routines.map fun r => r.pc.posting).sum +
          ((s.connections.set c r.connection).map Connection.queued).sum) := by
      rw [pending, hbefore, hafter, hqueued, add_assoc, add_left_comm]
    refine ⟨[], ?_, ?_⟩
    · cases hdelivers <;> exact (List.append_nil _).symm
    · rw [hstarting, Multiset.coe_nil, add_zero, hsum]
      cases hdelivers with
      | silent => rfl
      | closed | sent =>
        simp only [pending, List.map_append, List.sum_append, List.map_cons, List.map_nil,
          List.sum_singleton, Pc.posting, add_zero]

/-! ## Everything handed over has been begun, but one message -/

/-- The writes of the entries in `begun` have been started. -/
def HasBegun (s : Client μ) (begun : List (Entry μ)) : Prop :=
  StopAndWait.HasBegun s.handed begun s.pending

theorem HasBegun.step {p : MessageParser ω} {s s' : Client μ} {a : ClientAction μ}
    {begun : List (Entry μ)} (h : s.HasBegun begun) (hserving : s.Serving)
    (hsteps : Steps p s a s') : s'.HasBegun (begun ++ (s.starting a).toList) := by
  obtain ⟨new, hnew, hpending⟩ := hserving.pending_step hsteps
  have hbegun := StopAndWait.HasBegun.step h hpending hserving.card_pending_le ?_
  · rw [← hnew] at hbegun
    exact hbegun
  · -- a handler gives nothing to `async_send`
    cases hsteps with
    | context =>
      refine .inr (List.append_cancel_left (?_ : s.handed ++ new = s.handed ++ []))
      rw [← hnew, List.append_nil]
      rfl
    | _ => exact .inl rfl

/-! ## Only one connection -/

/-- The attempts in flight, the armed timer, and the connections. -/
def tokens (s : Client μ) : Nat :=
  s.connecting + s.retryArmed.toNat + (s.routines.map fun r => r.pc.holds none).sum +
    s.connections.length

theorem Serving.tokens_advance {s t : Client μ} {i : Nat} {r r' : Routine μ} (h : s.Serving)
    (hr : s.routines[i]? = some r) (hadvances : Advances s r t r') :
    (t.withRoutines (s.routines.set i r')).tokens ≤ s.tokens := by
  have hclosing := h.closing r (List.mem_of_getElem? hr)
  obtain ⟨rest, hbefore, hafter⟩ :=
    List.exists_sum_map_set (fun r : Routine μ => r.pc.holds none) hr
  have hafter' := hafter r'
  simp only [tokens, withRoutines, hbefore, hafter']
  cases hadvances with
  | goes hgoes =>
    generalize r.pc = pc at hgoes hclosing
    cases hgoes with
    | closed => cases hclosing
    | _ => simp only [Pc.holds]; omega
  | reset hpc | disconnected hpc =>
    rw [hpc] at hclosing
    cases hclosing
  | registered hpc =>
    simp only [hpc, Pc.holds, List.length_append, List.length_singleton]
    omega
  | waiting hpc =>
    simp only [hpc, Pc.holds, Bool.toNat_true]
    omega
  | stopCancelled hpc =>
    simp only [hpc, Pc.holds, Bool.toNat_false]
    omega
  | @sendPosted c entry hpc =>
    obtain ⟨connections, heq⟩ := postTo_eq s c (.asyncSendInThread entry)
    have hlength := length_postTo s c (.asyncSendInThread entry)
    rw [heq] at hlength ⊢
    simp only [hpc, Pc.holds] at hlength ⊢
    omega
  | @stopClosed c hpc =>
    obtain ⟨connections, heq⟩ := postTo_eq s c (.closeInThread {})
    have hlength := length_postTo s c (.closeInThread {})
    rw [heq] at hlength ⊢
    simp only [hpc, Pc.holds] at hlength ⊢
    omega
  | pushed _ hpc | exchangeWon hpc | popped hpc | stopped hpc =>
    simp only [hpc, Pc.holds]
    omega
  | _ =>
    rename_i hpc
    simp only [hpc, Pc.holds]
    omega

theorem tokens_spawn (s : Client μ) (pc : Pc μ) :
    (s.spawn pc).tokens = s.tokens + pc.holds none := by
  simp only [tokens, spawn, List.map_append, List.sum_append, List.map_cons, List.map_nil,
    List.sum_singleton]
  omega

/-- While the connections stay up no new token is made. -/
theorem Serving.tokens_step {p : MessageParser ω} {s s' : Client μ} {a : ClientAction μ}
    (h : s.Serving) (hsteps : Steps p s a s') : s'.tokens ≤ s.tokens := by
  cases hsteps with
  | send | stop => exact Nat.le_of_eq (tokens_spawn s _)
  | connected hconnecting | connectFailed hconnecting =>
    rw [tokens_spawn]
    simp only [tokens, Pc.holds]
    omega
  | retryExpired harmed =>
    rw [tokens_spawn]
    simp only [tokens, Pc.holds, harmed, Bool.toNat_true, Bool.toNat_false]
    omega
  | routine hr hadvances => exact h.tokens_advance hr hadvances
  | @context c e k r _ hk hhandles =>
    have hdelivers := delivers s c hhandles
    generalize s.deliver c r = t at hdelivers ⊢
    cases hdelivers with
    | silent => simp only [tokens, List.length_set, le_refl]
    | closed | sent =>
      simp only [tokens, List.length_set, List.map_append, List.sum_append, List.map_cons,
        List.map_nil, List.sum_singleton, Pc.holds, add_zero, le_refl]

end Client

end MsgpackRpc.Clients
