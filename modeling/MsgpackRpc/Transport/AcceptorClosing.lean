import MsgpackRpc.Transport.Acceptor

/-!
# Closing what has been accepted

`stop_in_thread` asks every connection in the list to close.  The handler of an `async_accept` adds
its connection without looking at the state, so what it adds after that is never asked.
-/

namespace MsgpackRpc.Transport

namespace AcceptedConnections

/-- Every connection that is alive is in the list. -/
def Listed (cs : AcceptedConnections) : Prop :=
  ∀ i c, cs.created[i]? = some c → c.alive = true → i ∈ cs.list

/-- Every connection that is alive has been asked to close. -/
def AllAsked (cs : AcceptedConnections) : Prop :=
  ∀ c ∈ cs.created, c.alive = true → c.closeRequested = true

instance AllAsked.decidable (cs : AcceptedConnections) : Decidable cs.AllAsked :=
  inferInstanceAs (Decidable (∀ c ∈ cs.created, c.alive = true → c.closeRequested = true))

theorem listed_append {cs : AcceptedConnections} (h : cs.Listed) : cs.append.Listed := by
  intro i c hc halive
  -- an older connection, or the one that has just been appended
  rcases Nat.lt_trichotomy i cs.created.length with hlt | rfl | hgt
  · have hold : cs.created[i]? = some c := by
      rw [← hc]
      exact (List.getElem?_append_left hlt).symm
    exact List.mem_append_left _ (h i c hold halive)
  · exact List.mem_append_right _ (List.mem_singleton_self _)
  · have hnone : cs.append.created[i]? = none := by
      apply List.getElem?_eq_none
      rw [append, List.length_append, List.length_singleton]
      exact hgt
    rw [hnone] at hc
    cases hc

theorem getElem?_remove {cs : AcceptedConnections} {i j : Nat} {c : AcceptedConnection}
    (hc : (cs.remove i).created[j]? = some c) (halive : c.alive = true) :
    j ≠ i ∧ cs.created[j]? = some c := by
  rw [remove, List.getElem?_modify] at hc
  split at hc
  · obtain ⟨c', -, rfl⟩ := Option.map_eq_some_iff.mp hc
    cases halive
  · rename_i hne
    rw [id_map'] at hc
    exact ⟨fun heq => hne heq.symm, hc⟩

theorem listed_remove {cs : AcceptedConnections} (h : cs.Listed) (i : Nat) :
    (cs.remove i).Listed := by
  intro j c hc halive
  obtain ⟨hne, hc⟩ := getElem?_remove hc halive
  apply List.mem_filter.mpr
  exact ⟨h j c hc halive, by simpa using hne⟩

theorem allAsked_remove {cs : AcceptedConnections} (h : cs.AllAsked) (i : Nat) :
    (cs.remove i).AllAsked := by
  intro c hmem halive
  obtain ⟨j, hc⟩ := List.getElem?_of_mem hmem
  exact h c (List.mem_of_getElem? (getElem?_remove hc halive).2) halive

theorem listed_asyncCloseAll {cs : AcceptedConnections} (h : cs.Listed) :
    cs.asyncCloseAll.Listed := by
  intro i c hc halive
  rw [asyncCloseAll, List.getElem?_mapIdx] at hc
  obtain ⟨c', hc', rfl⟩ := Option.map_eq_some_iff.mp hc
  apply h i c' hc'
  split at halive <;> exact halive

/-- The sweep reaches every connection that is alive. -/
theorem allAsked_asyncCloseAll {cs : AcceptedConnections} (h : cs.Listed) :
    cs.asyncCloseAll.AllAsked := by
  intro c hmem halive
  obtain ⟨i, hc⟩ := List.getElem?_of_mem hmem
  rw [asyncCloseAll, List.getElem?_mapIdx] at hc
  obtain ⟨c', hc', rfl⟩ := Option.map_eq_some_iff.mp hc
  split at halive
  · rename_i hasked
    rw [if_pos hasked]
  · rename_i hnot
    exact absurd ⟨h i c' hc' halive, halive⟩ hnot

end AcceptedConnections

namespace Acceptor

/-- No handler creates a connection after `stop_in_thread` has returned. -/
def acceptsBeforeStop (s : Acceptor) : AcceptorAction → Bool
  | .accept _ none none => !s.returned
  | _ => true

/-- What every run keeps whose handlers create connections only before `stop_in_thread`. -/
structure ClosesAll (s : Acceptor) : Prop where
  listed : s.connections.Listed
  stopped : s.state = .stopped → s.thrown = none → s.returned = true
  asked : s.returned = true → s.connections.AllAsked

theorem closesAll_init : ClosesAll {} where
  listed i c hc := by cases hc
  stopped hstate := by cases hstate
  asked hreturned := by cases hreturned

theorem closesAll_stops {s s' : Acceptor} (h : s.ClosesAll) (hthrown : s.thrown = none)
    (hstops : Stops s s') : s'.ClosesAll := by
  cases hstops with
  | alreadyStopped hstate =>
    exact ⟨h.listed, fun _ _ => rfl, fun _ => h.asked (h.stopped hstate hthrown)⟩
  | failed => exact ⟨h.listed, fun _ hnone => (by cases hnone), h.asked⟩
  | stopped =>
    exact ⟨AcceptedConnections.listed_asyncCloseAll h.listed, fun _ _ => rfl,
      fun _ => AcceptedConnections.allAsked_asyncCloseAll h.listed⟩

theorem closesAll_step {s s' : Acceptor} {a : AcceptorAction} (h : s.ClosesAll)
    (hok : s.acceptsBeforeStop a = true) (hstep : acceptorMachine.step s a = some s') :
    s'.ClosesAll := by
  cases steps_of_step hstep with
  | started => exact ⟨h.listed, fun hstate => (by cases hstate), h.asked⟩
  | startedAgain => exact h
  | posted => exact ⟨h.listed, h.stopped, h.asked⟩
  | processing => exact ⟨h.listed, fun hstate => (by cases hstate), h.asked⟩
  | stopPosted => exact ⟨h.listed, h.stopped, h.asked⟩
  | @released i =>
    exact ⟨AcceptedConnections.listed_remove h.listed i, h.stopped,
      fun hreturned => AcceptedConnections.allAsked_remove (h.asked hreturned) i⟩
  | acceptNext => exact ⟨h.listed, h.stopped, h.asked⟩
  | @stopRun i _ _ hthrown _ hstops =>
    have hpopped : ClosesAll { s with tasks := s.tasks.eraseIdx i } :=
      ⟨h.listed, h.stopped, h.asked⟩
    exact closesAll_stops hpopped hthrown hstops
  | handled _ _ _ haccepts =>
    cases haccepts with
    | aborted => exact ⟨h.listed, h.stopped, h.asked⟩
    | failed => exact ⟨h.listed, fun _ hnone => (by cases hnone), h.asked⟩
    | disconnected => exact ⟨h.listed, fun _ hnone => (by cases hnone), h.asked⟩
    | accepted | acceptedLast =>
      -- nobody has swept the list yet
      have hearly : s.returned = false := by simpa [acceptsBeforeStop] using hok
      refine ⟨AcceptedConnections.listed_append h.listed, h.stopped, fun hreturned => ?_⟩
      have hreturned : s.returned = true := hreturned
      rw [hearly] at hreturned
      cases hreturned

end Acceptor

/-- In a run whose handlers create no connection after `stop_in_thread` has returned, every
connection that is alive then has been asked to close. -/
theorem closesAll_of_acceptsBeforeStop (schedule : List AcceptorAction) (s : Acceptor)
    (hmeets : acceptorMachine.Meets (fun s a _ => s.acceptsBeforeStop a = true) {} schedule)
    (hrun : acceptorMachine.run {} schedule = some s) (hreturned : s.returned = true) :
    s.connections.AllAsked := by
  have hkeep : ∀ s a s', Acceptor.ClosesAll s → s.acceptsBeforeStop a = true →
      acceptorMachine.step s a = some s' → Acceptor.ClosesAll s' :=
    fun _ _ _ h hok hstep => Acceptor.closesAll_step h hok hstep
  have hfinal : s.ClosesAll := Machine.run_invariant hkeep Acceptor.closesAll_init hmeets hrun
  exact hfinal.asked hreturned

/-- `start` has returned, and a client has connected. -/
def acceptOnce : List AcceptorAction :=
  [.start, .startNext, .startNext, .task 0 {}, .accept 0 none none]

def stoppedAfterOne : Acceptor where
  state := .stopped
  acceptor := .closed
  connections := { created := [{ closeRequested := true }], list := [0] }
  returned := true

theorem allAsked_stoppedAfterOne : stoppedAfterOne.connections.AllAsked :=
  closesAll_of_acceptsBeforeStop
    (acceptOnce ++ [.stop, .task 0 {}, .accept 0 (some .operationAborted) none]) stoppedAfterOne
    (by decide) (by decide) rfl

/-- The second client has connected before `stop_in_thread` cancels the acceptor, and its handler
runs afterwards: nobody asks the second connection to close. -/
theorem connection_survives_stop :
    ¬ ∀ (schedule : List AcceptorAction) (s : Acceptor),
      acceptorMachine.run {} schedule = some s → s.returned = true → s.thrown = none →
      s.tasks = [] → s.accepts = [] → s.connections.AllAsked := by
  intro h
  have hasked := h (acceptOnce ++ [.stop, .task 0 {}, .accept 0 none none])
    { stoppedAfterOne with
      connections := { created := [{ closeRequested := true }, {}], list := [0, 1] } }
    (by decide) rfl rfl rfl rfl
  revert hasked
  decide

end MsgpackRpc.Transport
