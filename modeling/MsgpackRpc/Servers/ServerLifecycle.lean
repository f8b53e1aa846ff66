import MsgpackRpc.Lib.Update
import MsgpackRpc.Servers.ServerImpl

/-!
# Stopping a server while others use it

The first call that sets `is_stopped_` resets `executor_` at its end.  `run_until_signal` goes to
`executor_` after its wait, whatever has happened in the meantime.
-/

namespace MsgpackRpc.Servers

open Addresses (URI)
open Executors
open Transport (acceptorMachine)

/-- Where a call stands relative to the part of `stop` that one call runs. -/
inductive CallKind where
  | before
  | stopping
  | after
  deriving DecidableEq, Repr

namespace CallPhase

def kind : CallPhase → CallKind
  | asyncWait | run | lastException | loadIsStarted | exchangeIsStopped => .before
  | localEndpointUris | executor => .before
  | stopAcceptors | clearAcceptors | resetProcessor | stopExecutor => .stopping
  | asyncStopThreadsGently | join | clearTransport | clearCallbacks | resetExecutor => .stopping
  | finish | done _ => .after

end CallPhase

namespace ServerImpl

/-- What the lifecycle reads is the same. -/
structure SameLifecycle (s s' : ServerImpl) : Prop where
  executor : s'.executor = s.executor
  isStarted : s'.isStarted = s.isStarted
  isStopped : s'.isStopped = s.isStopped
  stopper : s'.stopper = s.stopper

/-- What each action does to the calls and the lifecycle, with what it needs. -/
inductive Moves (s : ServerImpl) : ServerImplAction → ServerImpl → Prop where
  | called (routine : ServerRoutine) :
      Moves s (.call routine) { s with calls := s.calls ++ [.enter routine] }
  | elsewhere {a s'} (hother : ∀ i, a ≠ .advance i) (hsame : SameLifecycle s s')
      (hcalls : s'.calls = s.calls) : Moves s a s'
  /-- A call goes on; only what is before the exchange can end without running `stop`. -/
  | moved {i c c' s'} (hcall : s.calls[i]? = some c) (hsame : SameLifecycle s s')
      (hcalls : s'.calls = s.calls.set i c')
      (hkind : c'.phase.kind = c.phase.kind ∨ c.phase.kind = .before ∧ c'.phase.kind = .after)
      (hread : c.phase = .lastException → s.executor = true)
      (hnull : c'.phase ≠ .done .nullDereference) : Moves s (.advance i) s'
  /-- The exchange finds that nobody has stopped the server. -/
  | won {i c} (hcall : s.calls[i]? = some c) (hphase : c.phase = .exchangeIsStopped)
      (hfirst : s.isStopped = false) :
      Moves s (.advance i)
        { s.setCall i c .stopAcceptors with isStopped := true, stopper := some i }
  | reset {i c} (hcall : s.calls[i]? = some c) (hphase : c.phase = .resetExecutor) :
      Moves s (.advance i) { s.setCall i c .finish with executor := false }
  | null {i c} (hcall : s.calls[i]? = some c)
      (hphase : c.phase = .lastException ∨ c.phase = .stopExecutor)
      (hnull : s.executor = false) :
      Moves s (.advance i) (s.setCall i c (.done .nullDereference))

/-- A step that takes a call to its next phase and leaves the lifecycle alone. -/
theorem moves_of_phase {s s' : ServerImpl} {i : Nat} {c c' : ServerCall} {phase : CallPhase}
    (hcall : s.calls[i]? = some c) (hphase : c.phase = phase) (hsame : SameLifecycle s s')
    (hcalls : s'.calls = s.calls.set i c')
    (hkind : c'.phase.kind = phase.kind ∨ phase.kind = .before ∧ c'.phase.kind = .after)
    (hread : phase ≠ .lastException) (hnull : c'.phase ≠ .done .nullDereference) :
    Moves s (.advance i) s' := by
  apply Moves.moved hcall hsame hcalls _ _ hnull
  · rw [hphase]
    exact hkind
  · intro heq
    exact absurd (hphase.symm.trans heq) hread

theorem outcome_ne_nullDereference (c : ServerCall) :
    CallPhase.done c.outcome ≠ .done .nullDereference := by
  rw [ServerCall.outcome]
  split <;> nofun

theorem moves_advance {s s' : ServerImpl} {i : Nat} {c : ServerCall}
    (hcall : s.calls[i]? = some c) (h : s.advance i c = some s') : Moves s (.advance i) s' := by
  simp only [advance] at h
  split at h <;> rename_i hphase
  case h_1 | h_6 | h_7 | h_8 | h_10 | h_12 | h_13 =>
    cases h
    exact moves_of_phase hcall hphase ⟨rfl, rfl, rfl, rfl⟩ rfl (.inl rfl) nofun nofun
  case h_2 =>
    obtain ⟨⟨signalHandler, returns⟩, -, rfl⟩ := Option.map_eq_some_iff.mp h
    cases returns <;>
      exact moves_of_phase hcall hphase ⟨rfl, rfl, rfl, rfl⟩ rfl (.inl rfl) nofun nofun
  case h_3 =>
    rw [withExecutor] at h
    split at h <;> cases h
    · exact .moved hcall ⟨rfl, rfl, rfl, rfl⟩ rfl (.inl (by rw [hphase]; rfl)) (fun _ => ‹_›) nofun
    · exact .null hcall (.inl hphase) (Bool.eq_false_iff.mpr ‹_›)
  case h_4 =>
    cases h
    split
    · exact moves_of_phase hcall hphase ⟨rfl, rfl, rfl, rfl⟩ rfl (.inl rfl) nofun nofun
    · exact moves_of_phase hcall hphase ⟨rfl, rfl, rfl, rfl⟩ rfl (.inr ⟨rfl, rfl⟩) nofun nofun
  case h_5 =>
    split at h <;> cases h
    · exact moves_of_phase hcall hphase ⟨rfl, rfl, rfl, rfl⟩ rfl (.inr ⟨rfl, rfl⟩) nofun nofun
    · exact .won hcall hphase (Bool.eq_false_iff.mpr ‹_›)
  case h_9 =>
    rw [withExecutor] at h
    split at h
    · split at h <;> cases h <;>
        exact moves_of_phase hcall hphase ⟨rfl, rfl, rfl, rfl⟩ rfl (.inl rfl) nofun nofun
    · cases h
      exact .null hcall (.inr hphase) (Bool.eq_false_iff.mpr ‹_›)
  case h_11 =>
    obtain ⟨-, h⟩ := Option.ite_none_right_eq_some.mp h
    cases h
    exact moves_of_phase hcall hphase ⟨rfl, rfl, rfl, rfl⟩ rfl (.inl rfl) nofun nofun
  case h_14 =>
    cases h
    exact .reset hcall hphase
  case h_15 =>
    cases h
    exact moves_of_phase hcall hphase ⟨rfl, rfl, rfl, rfl⟩ rfl (.inl rfl) nofun
      (outcome_ne_nullDereference c)
  case h_16 | h_17 =>
    cases h
    exact moves_of_phase hcall hphase ⟨rfl, rfl, rfl, rfl⟩ rfl (.inr ⟨rfl, rfl⟩) nofun nofun
  case h_18 => cases h

theorem moves_of_step {s s' : ServerImpl} {a : ServerImplAction}
    (h : serverImplMachine.step s a = some s') : Moves s a s' := by
  have h : s.step a = some s' := h
  cases a with
  | call routine =>
    cases h
    exact .called routine
  | advance i =>
    obtain ⟨c, hcall, h⟩ := Option.bind_eq_some_iff.mp h
    exact moves_advance hcall h
  | signal =>
    cases h
    exact .elsewhere nofun ⟨rfl, rfl, rfl, rfl⟩ rfl
  | thread id =>
    obtain ⟨⟨generalExecutor, exceptions⟩, -, rfl⟩ := Option.map_eq_some_iff.mp h
    exact .elsewhere nofun ⟨rfl, rfl, rfl, rfl⟩ rfl
  | raise id exception =>
    obtain ⟨generalExecutor, -, rfl⟩ := Option.map_eq_some_iff.mp h
    exact .elsewhere nofun ⟨rfl, rfl, rfl, rfl⟩ rfl
  | acceptor k a =>
    obtain ⟨held, acceptor, -, -, rfl⟩ := acceptorStep_eq_some h
    exact .elsewhere nofun ⟨rfl, rfl, rfl, rfl⟩ rfl

/-! ## What every run keeps -/

def kindAt (s : ServerImpl) (i : Nat) : Option CallKind := (s.calls[i]?).map fun c => c.phase.kind

theorem kindAt_of_getElem? {s : ServerImpl} {i : Nat} {c : ServerCall}
    (hcall : s.calls[i]? = some c) : s.kindAt i = some c.phase.kind := by
  rw [kindAt, hcall]
  rfl

theorem kindAt_set {s s' : ServerImpl} {i : Nat} {c c' : ServerCall}
    (hcall : s.calls[i]? = some c) (hcalls : s'.calls = s.calls.set i c') (j : Nat) :
    s'.kindAt j = if i = j then some c'.phase.kind else s.kindAt j := by
  rw [kindAt, hcalls, List.getElem?_set]
  split
  · rw [if_pos (List.getElem?_eq_some_iff.mp hcall).1]
    rfl
  · rfl

/-- The call that stops the server is the only one in that part of `stop`, and has taken `executor_`
away exactly if it is past it. -/
structure Lifecycle (s : ServerImpl) : Prop where
  isStopped : s.isStopped = s.stopper.isSome
  stopping : ∀ i, s.kindAt i = some .stopping → s.stopper = some i
  stopper : ∀ i, s.stopper = some i →
    s.kindAt i = some .stopping ∧ s.executor = true ∨ s.kindAt i = some .after ∧ s.executor = false
  unstopped : s.stopper = none → s.executor = true

/-- The call that stops the server still finds `executor_`. -/
theorem Lifecycle.lastException_of_null {s : ServerImpl} {i : Nat} {c : ServerCall}
    (h : s.Lifecycle) (hcall : s.calls[i]? = some c)
    (hphase : c.phase = .lastException ∨ c.phase = .stopExecutor) (hnull : s.executor = false) :
    c.phase = .lastException := by
  obtain hread | hstop := hphase
  · exact hread
  · have hkind : s.kindAt i = some .stopping := by
      rw [kindAt_of_getElem? hcall, hstop]
      rfl
    have hset := h.stopper i (h.stopping i hkind)
    rw [hkind, hnull] at hset
    simp at hset

theorem lifecycle_called {s : ServerImpl} (h : s.Lifecycle) (routine : ServerRoutine) :
    Lifecycle { s with calls := s.calls ++ [.enter routine] } := by
  have hnew : (ServerCall.enter routine).phase.kind = .before := by cases routine <;> rfl
  have hold : ∀ i kind, s.kindAt i = some kind →
      kindAt { s with calls := s.calls ++ [.enter routine] } i = some kind := by
    intro i kind hkind
    obtain ⟨c, hcall, rfl⟩ := Option.map_eq_some_iff.mp hkind
    exact kindAt_of_getElem? (List.getElem?_of_prefix (List.prefix_append _ _) hcall)
  refine ⟨h.isStopped, fun i hkind => ?_, fun i hstopper => ?_, h.unstopped⟩
  · obtain ⟨c, hcall, hstopping⟩ := Option.map_eq_some_iff.mp hkind
    rw [List.getElem?_append] at hcall
    split at hcall
    · exact h.stopping i (by rw [kindAt_of_getElem? hcall, hstopping])
    · obtain rfl : ServerCall.enter routine = c := by
        have hmem : c ∈ [ServerCall.enter routine] := List.mem_of_getElem? hcall
        exact (List.mem_singleton.mp hmem).symm
      rw [hnew] at hstopping
      cases hstopping
  · exact (h.stopper i hstopper).imp (And.imp_left (hold i _)) (And.imp_left (hold i _))

theorem Lifecycle.same {s s' : ServerImpl} (h : s.Lifecycle) (hsame : SameLifecycle s s')
    (hkinds : s'.kindAt = s.kindAt) : s'.Lifecycle := by
  refine ⟨?_, ?_, ?_, ?_⟩
  · rw [hsame.isStopped, hsame.stopper]
    exact h.isStopped
  · rw [hkinds, hsame.stopper]
    exact h.stopping
  · rw [hkinds, hsame.stopper, hsame.executor]
    exact h.stopper
  · rw [hsame.stopper, hsame.executor]
    exact h.unstopped

/-- No call changes into the one that stops the server, and that one stays what it is. -/
theorem lifecycle_moved {s s' : ServerImpl} {i : Nat} {c c' : ServerCall} (h : s.Lifecycle)
    (hcall : s.calls[i]? = some c) (hsame : SameLifecycle s s')
    (hcalls : s'.calls = s.calls.set i c')
    (hkind : c'.phase.kind = c.phase.kind ∨ c.phase.kind = .before ∧ c'.phase.kind = .after) :
    s'.Lifecycle := by
  have hkindAt := kindAt_set hcall hcalls
  have hi : s.kindAt i = some c.phase.kind := kindAt_of_getElem? hcall
  obtain hkind | ⟨hbefore, hafter⟩ := hkind
  · have heq : s'.kindAt = s.kindAt := by
      funext j
      rw [hkindAt]
      split
      · rename_i hij
        rw [hkind, ← hi, hij]
      · rfl
    exact h.same hsame heq
  · refine ⟨?_, fun j hj => ?_, fun j hj => ?_, ?_⟩
    · rw [hsame.isStopped, hsame.stopper]
      exact h.isStopped
    · rw [hkindAt, hafter] at hj
      rw [hsame.stopper]
      split at hj
      · cases hj
      · exact h.stopping j hj
    · rw [hsame.stopper] at hj
      have hold := h.stopper j hj
      have hij : i ≠ j := by
        rintro rfl
        rw [hi, hbefore] at hold
        simp at hold
      rw [hkindAt, if_neg hij, hsame.executor]
      exact hold
    · rw [hsame.stopper, hsame.executor]
      exact h.unstopped

theorem lifecycle_step {s s' : ServerImpl} {a : ServerImplAction} (h : s.Lifecycle)
    (hstep : serverImplMachine.step s a = some s') : s'.Lifecycle := by
  cases moves_of_step hstep with
  | called routine => exact lifecycle_called h routine
  | elsewhere _ hsame hcalls =>
    have heq : s'.kindAt = s.kindAt := by
      funext i
      rw [kindAt, hcalls]
      rfl
    exact h.same hsame heq
  | moved hcall hsame hcalls hkind => exact lifecycle_moved h hcall hsame hcalls hkind
  | @won i c hcall hphase hfirst =>
    have hnone : s.stopper = none := by
      have hstopped := h.isStopped
      rw [hfirst] at hstopped
      exact Option.isNone_iff_eq_none.mp (by simpa using hstopped.symm)
    refine ⟨rfl, fun j hj => ?_, fun j hj => ?_, nofun⟩
    · rw [kindAt_set hcall rfl] at hj
      split at hj
      · exact congrArg some ‹_›
      · rw [h.stopping j hj] at hnone
        cases hnone
    · cases hj
      refine .inl ⟨?_, h.unstopped hnone⟩
      rw [kindAt_set hcall rfl, if_pos rfl]
      rfl
  | @reset i c hcall hphase =>
    have hstopper : s.stopper = some i :=
      h.stopping i (by rw [kindAt_of_getElem? hcall, hphase]; rfl)
    refine ⟨h.isStopped, fun j hj => ?_, fun j hj => ?_, fun hnone => ?_⟩
    · rw [kindAt_set hcall rfl] at hj
      split at hj
      · cases hj
      · exact h.stopping j hj
    · have hij : s.stopper = some j := hj
      rw [hstopper] at hij
      cases hij
      refine .inr ⟨?_, rfl⟩
      rw [kindAt_set hcall rfl, if_pos rfl]
      rfl
    · have hnone : s.stopper = none := hnone
      rw [hstopper] at hnone
      cases hnone
  | @null i c hcall hphase hnull =>
    have hread : c.phase = .lastException := h.lastException_of_null hcall hphase hnull
    exact lifecycle_moved h hcall ⟨rfl, rfl, rfl, rfl⟩ rfl (.inr ⟨by rw [hread]; rfl, rfl⟩)

/-! ## Null pointers -/

def NoNullDereference (s : ServerImpl) : Prop :=
  ∀ c ∈ s.calls, c.phase ≠ .done .nullDereference

instance NoNullDereference.decidable (s : ServerImpl) : Decidable s.NoNullDereference :=
  inferInstanceAs (Decidable (∀ c ∈ s.calls, c.phase ≠ .done .nullDereference))

/-- The call that stops the server has run `stop` to its end. -/
def StopReturned (s : ServerImpl) : Prop :=
  ∃ i, s.stopper = some i ∧ s.kindAt i = some .after

/-- A `run_until_signal` whose wait has returned asks for the last exception before the call that
stops the server has run `stop` to its end. -/
def AsksInTime (s : ServerImpl) (a : ServerImplAction) : Prop :=
  ∀ i c, a = .advance i → s.calls[i]? = some c → c.phase = .lastException → ¬ s.StopReturned

theorem Lifecycle.executor_iff {s : ServerImpl} (h : s.Lifecycle) :
    s.executor = false ↔ s.StopReturned := by
  constructor
  · intro hnull
    cases hstopper : s.stopper with
    | none =>
      rw [h.unstopped hstopper] at hnull
      cases hnull
    | some i =>
      refine ⟨i, hstopper, ?_⟩
      obtain ⟨-, hset⟩ | ⟨hafter, -⟩ := h.stopper i hstopper
      · rw [hset] at hnull
        cases hnull
      · exact hafter
  · rintro ⟨i, hstopper, hafter⟩
    obtain ⟨hstopping, -⟩ | ⟨-, hnull⟩ := h.stopper i hstopper
    · rw [hafter] at hstopping
      cases hstopping
    · exact hnull

theorem noNullDereference_set_iff {s : ServerImpl} {i : Nat} {c c' : ServerCall}
    (hsafe : s.NoNullDereference) (hcall : s.calls[i]? = some c) :
    (∀ d ∈ s.calls.set i c', d.phase ≠ .done .nullDereference) ↔
      c'.phase ≠ .done .nullDereference := by
  constructor
  · intro h
    exact h c' (List.mem_set (List.getElem?_eq_some_iff.mp hcall).1 _)
  · intro hne d hmem
    obtain hmem | rfl := List.mem_or_eq_of_mem_set hmem
    · exact hsafe d hmem
    · exact hne

theorem noNullDereference_step_iff {s s' : ServerImpl} {a : ServerImplAction} (h : s.Lifecycle)
    (hsafe : s.NoNullDereference) (hstep : serverImplMachine.step s a = some s') :
    s'.NoNullDereference ↔ s.AsksInTime a := by
  have hasks : ∀ {i c}, s.calls[i]? = some c → (c.phase = .lastException → s.executor = true) →
      s.AsksInTime (.advance i) := by
    intro i c hcall hset j c' heq hcall' hread hreturned
    cases heq
    obtain rfl : c = c' := Option.some.inj (hcall.symm.trans hcall')
    rw [← h.executor_iff, hset hread] at hreturned
    cases hreturned
  cases moves_of_step hstep with
  | called routine =>
    refine iff_of_true (fun c hmem => ?_) nofun
    obtain hmem | hmem := List.mem_append.mp hmem
    · exact hsafe c hmem
    · rw [List.mem_singleton.mp hmem]
      cases routine <;> nofun
  | elsewhere hother _ hcalls =>
    refine iff_of_true ?_ fun i _ heq => absurd heq (hother i)
    rw [NoNullDereference, hcalls]
    exact hsafe
  | moved hcall _ hcalls _ hread hnull =>
    refine iff_of_true ?_ (hasks hcall hread)
    rw [NoNullDereference, hcalls, noNullDereference_set_iff hsafe hcall]
    exact hnull
  | won hcall hphase | reset hcall hphase =>
    refine iff_of_true ((noNullDereference_set_iff hsafe hcall).mpr nofun) (hasks hcall ?_)
    simp [hphase]
  | @null i c hcall hphase hnull =>
    have hread : c.phase = .lastException := h.lastException_of_null hcall hphase hnull
    refine iff_of_false (fun hnot => ?_) fun hok => ?_
    · exact (noNullDereference_set_iff hsafe hcall).mp hnot rfl
    · exact hok i c rfl hcall hread (h.executor_iff.mp hnull)

/-- A server that was created with this configuration and listens to these URIs, once `start` has
returned. -/
def started (config : ExecutorConfig) (uris : List URI) : ServerImpl :=
  (create config uris).start

theorem lifecycle_started (config : ExecutorConfig) (uris : List URI) :
    (started config uris).Lifecycle where
  isStopped := rfl
  stopping := nofun
  stopper := nofun
  unstopped _ := rfl

/-! ## The acceptors -/

/-- Each acceptor is in a state that acceptors reach, and the vector is as it was built or empty. -/
structure AcceptorsSound (uris : List URI) (s : ServerImpl) : Prop where
  reachable : ∀ held ∈ s.acceptors, acceptorMachine.Reachable held.acceptor
  uris : s.acceptors = [] ∨ s.acceptors.map ServerAcceptor.uri = uris

theorem acceptorsSound_started (config : ExecutorConfig) (uris : List URI) :
    AcceptorsSound uris (started config uris) where
  reachable held hmem := by
    obtain ⟨fresh, hfresh, rfl⟩ := List.mem_map.mp hmem
    obtain ⟨uri, -, rfl⟩ := List.mem_map.mp hfresh
    exact Transport.Acceptor.reachable_startAlone
  uris := by
    refine .inr ?_
    simp only [started, start, startAcceptors, create, List.map_map]
    exact List.map_id uris

theorem acceptors_withExecutor {s next : ServerImpl} {i : Nat} {c : ServerCall}
    (hnext : next.acceptors = s.acceptors) : (s.withExecutor i c next).acceptors = s.acceptors := by
  rw [withExecutor]
  split
  · exact hnext
  · rfl

/-- Only `stop` changes the vector, when it stops the acceptors and when it clears them. -/
theorem acceptors_advance {s s' : ServerImpl} {i : Nat} {c : ServerCall}
    (h : s.advance i c = some s') :
    s'.acceptors = s.acceptors ∨ s'.acceptors = s.stopAcceptors.acceptors ∨ s'.acceptors = [] := by
  simp only [advance] at h
  split at h
  case h_2 =>
    obtain ⟨-, -, rfl⟩ := Option.map_eq_some_iff.mp h
    exact .inl rfl
  case h_3 =>
    cases h
    exact .inl (acceptors_withExecutor rfl)
  case h_5 => split at h <;> cases h <;> exact .inl rfl
  case h_6 =>
    cases h
    exact .inr (.inl rfl)
  case h_7 =>
    cases h
    exact .inr (.inr rfl)
  case h_9 =>
    cases h
    refine .inl (acceptors_withExecutor ?_)
    split <;> rfl
  case h_11 =>
    obtain ⟨-, h⟩ := Option.ite_none_right_eq_some.mp h
    cases h
    exact .inl rfl
  case h_18 => cases h
  all_goals
    cases h
    exact .inl rfl

theorem AcceptorsSound.same {uris : List URI} {s s' : ServerImpl} (h : s.AcceptorsSound uris)
    (hsame : s'.acceptors = s.acceptors) : s'.AcceptorsSound uris :=
  ⟨hsame ▸ h.reachable, hsame ▸ h.uris⟩

/-- `stop` posts a task to each acceptor, as its own `stop` does. -/
theorem AcceptorsSound.stopped {uris : List URI} {s s' : ServerImpl} (h : s.AcceptorsSound uris)
    (hstopped : s'.acceptors = s.stopAcceptors.acceptors) : s'.AcceptorsSound uris where
  reachable held hmem := by
    rw [hstopped] at hmem
    obtain ⟨old, hold, rfl⟩ := List.mem_map.mp hmem
    have hstop : acceptorMachine.step old.acceptor .stop =
      some (old.acceptor.post .stopInThread) := rfl
    exact (h.reachable old hold).step hstop
  uris := by
    rw [hstopped]
    refine h.uris.imp (fun hnil => ?_) fun huris => ?_
    · rw [stopAcceptors, hnil, List.map_nil]
    · rw [← huris, stopAcceptors, List.map_map]
      rfl

theorem AcceptorsSound.acceptorStep {uris : List URI} {s s' : ServerImpl} {k : Nat}
    {a : Transport.AcceptorAction} (h : s.AcceptorsSound uris)
    (hstep : s.acceptorStep k a = some s') : s'.AcceptorsSound uris := by
  obtain ⟨held, acceptor, hheld, hnext, rfl⟩ := acceptorStep_eq_some hstep
  constructor
  · intro other hmem
    obtain hmem | rfl := List.mem_or_eq_of_mem_set hmem
    · exact h.reachable other hmem
    · exact (h.reachable held (List.mem_of_getElem? hheld)).step hnext
  · refine h.uris.imp (fun hnil => ?_) fun huris => ?_
    · rw [hnil] at hheld
      cases hheld
    · obtain ⟨hk, rfl⟩ := List.getElem?_eq_some_iff.mp hheld
      rw [← huris, List.map_set, ← List.getElem_map ServerAcceptor.uri (h := by simpa using hk)]
      exact List.set_getElem_self _

theorem acceptorsSound_step {uris : List URI} {s s' : ServerImpl} {a : ServerImplAction}
    (h : s.AcceptorsSound uris) (hstep : serverImplMachine.step s a = some s') :
    s'.AcceptorsSound uris := by
  have hstep : s.step a = some s' := hstep
  cases a with
  | call | signal =>
    cases hstep
    exact h.same rfl
  | advance i =>
    obtain ⟨c, -, hadvance⟩ := Option.bind_eq_some_iff.mp hstep
    obtain hsame | hstopped | hcleared := acceptors_advance hadvance
    · exact h.same hsame
    · exact h.stopped hstopped
    · exact ⟨by simp [hcleared], .inl hcleared⟩
  | thread id =>
    obtain ⟨-, -, rfl⟩ := Option.map_eq_some_iff.mp hstep
    exact h.same rfl
  | raise id exception =>
    obtain ⟨-, -, rfl⟩ := Option.map_eq_some_iff.mp hstep
    exact h.same rfl
  | acceptor k a => exact h.acceptorStep hstep

/-- What holds of every acceptor after every run of `acceptorMachine` holds of the acceptors of a
server. -/
theorem acceptorsSound_of_run {config : ExecutorConfig} {uris : List URI} {s : ServerImpl}
    {schedule : List ServerImplAction}
    (hrun : serverImplMachine.run (started config uris) schedule = some s) :
    s.AcceptorsSound uris :=
  Machine.run_keeps (fun _ _ _ h hstep => acceptorsSound_step h hstep)
    (acceptorsSound_started config uris) hrun

end ServerImpl

open ServerImpl

/-- No call dereferences a null pointer exactly if each `run_until_signal` asks for the last
exception before the `stop` of another call has returned. -/
theorem no_null_dereference_iff (config : ExecutorConfig) (uris : List URI)
    (schedule : List ServerImplAction) :
    serverImplMachine.Meets (fun _ _ s => s.NoNullDereference) (started config uris) schedule ↔
      serverImplMachine.Meets (fun s a _ => s.AsksInTime a) (started config uris) schedule := by
  have hiff : ∀ s a s', Lifecycle s → NoNullDereference s → True →
      serverImplMachine.step s a = some s' → (NoNullDereference s' ↔ AsksInTime s a) :=
    fun _ _ _ h hsafe _ hstep => noNullDereference_step_iff h hsafe hstep
  exact Machine.meets_iff (fun _ _ _ h _ hstep => lifecycle_step h hstep) hiff
    (lifecycle_started config uris) nofun fun _ _ => trivial

/-- Another thread stops the server while `run_until_signal` waits, and the signal comes after. -/
theorem run_until_signal_null :
    ¬ ∀ (config : ExecutorConfig) (uris : List URI) (schedule : List ServerImplAction),
      serverImplMachine.Meets (fun _ _ s => s.NoNullDereference) (started config uris)
        schedule := by
  intro h
  have hnull := h {} [] [.call .runUntilSignal, .advance 0, .call .stop, .advance 1, .advance 1,
    .advance 1, .advance 1, .advance 1, .advance 1, .advance 1, .thread ⟨.transport, 0⟩,
    .thread ⟨.callback, 0⟩, .advance 1, .advance 1, .advance 1, .advance 1, .signal, .advance 0,
    .advance 0, .advance 0]
  revert hnull
  decide

end MsgpackRpc.Servers
