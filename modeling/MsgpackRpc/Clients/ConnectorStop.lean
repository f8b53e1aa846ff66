import MsgpackRpc.Clients.ClientConnector

/-!
# Stopping the connector

`stop` sets `is_stopped_` and then asks the registered connection to close.  `on_connection` looks
at `is_stopped_` before it takes the mutex, so it can register a connection after `stop` has looked
for one.
-/

namespace MsgpackRpc.Transport

variable {ω μ : Type}

namespace Connection

/-- The connection has stopped, or a task of `async_close` will stop it. -/
def closedOrAsked (k : Connection μ) : Bool := k.state == .stopped || k.tasks.any Task.isClose

theorem closedOrAsked_of_stopped {k : Connection μ} (h : k.state = .stopped) :
    k.closedOrAsked = true := by
  rw [closedOrAsked, h]
  rfl

theorem closedOrAsked_post {k : Connection μ} (h : k.closedOrAsked = true) (task : Task μ) :
    (k.post task).closedOrAsked = true := by
  simp only [closedOrAsked, Bool.or_eq_true, beq_iff_eq] at h ⊢
  refine h.imp id fun hany => ?_
  rw [post, List.any_append, hany]
  rfl

theorem closedOrAsked_post_close (k : Connection μ) (status : Status) :
    (k.post (.closeInThread status)).closedOrAsked = true := by
  rw [closedOrAsked, post, List.any_append, Bool.or_eq_true, Bool.or_eq_true]
  exact .inr (.inr rfl)

/-- A task that is not `close_in_thread` leaves the tasks of `async_close` in the queue. -/
theorem any_isClose_eraseIdx {tasks : List (Task μ)} {i : Nat} {task : Task μ}
    (htask : tasks[i]? = some task) (hother : task.isClose = false)
    (h : tasks.any Task.isClose = true) : (tasks.eraseIdx i).any Task.isClose = true := by
  rw [(List.perm_cons_eraseIdx htask).any_eq, List.any_cons, hother, Bool.false_or] at h
  exact h

theorem Handles.closedOrAsked {p : MessageParser ω} {k : Connection μ} {e : Event}
    {r : Handled ω μ} (h : Handles p k e r) (hk : k.closedOrAsked = true) :
    r.connection.closedOrAsked = true := by
  cases h with
  | readNext htask | send htask =>
    simp only [Connection.closedOrAsked, Bool.or_eq_true] at hk ⊢
    exact hk.imp id (any_isClose_eraseIdx htask rfl)
  | close _ _ hcloses => exact closedOrAsked_of_stopped hcloses.state_eq
  | readInvalid _ _ _ _ hcloses => exact closedOrAsked_of_stopped hcloses.state_eq
  | readClosedByPeer => exact closedOrAsked_of_stopped rfl
  | writeClosedByPeer => exact closedOrAsked_of_stopped rfl
  | _ => exact hk

end Connection

end MsgpackRpc.Transport

namespace MsgpackRpc.Clients

open MsgpackRpc.Transport

variable {ω μ : Type}

/-- `stop` has set `is_stopped_` and not entered its section of the mutex. -/
def Pc.isStopClose : Pc μ → Bool
  | .stopClose => true
  | _ => false

/-- `stop` has set `is_stopped_` and not returned. -/
def Pc.isStopping : Pc μ → Bool
  | .stopClose | .stopCancel => true
  | _ => false

theorem Pc.isStopping_of_isStopClose {pc : Pc μ} (h : pc.isStopClose = true) :
    pc.isStopping = true := by
  cases pc <;> first | rfl | cases h

namespace Client

/-- `connection_` holds no connection that is open and has not been asked to close. -/
def nothingOpen (s : Client μ) : Bool :=
  s.connection.all fun c => s.connections[c]?.all Connection.closedOrAsked

/-- The call of `stop` that has set `is_stopped_` has left its section of the mutex. -/
def stopPassed (s : Client μ) : Bool :=
  s.isStopped && s.routines.all fun r => !r.pc.isStopClose

/-- `on_connection` enters its section before `stop` has been in its own, and neither it nor
`on_connection_closed` takes an open connection out of `connection_`. -/
def keepsClosable (s : Client μ) (a : ClientAction μ) : Bool :=
  match (s.stepping a).map Routine.pc with
  | some .connectionRegister => s.nothingOpen && !s.stopPassed
  | some (.closedReset _) => s.nothingOpen
  | _ => true

/-- A call of `stop` has returned, and no handler of the connector is running. -/
structure StopReturned (s : Client μ) : Prop where
  stopped : s.isStopped = true
  returned : ∀ r ∈ s.routines, r.pc.isStopping = false
  betweenHandlers : s.BetweenHandlers

/-- What every run keeps whose steps satisfy `keepsClosable`. -/
structure Closable (s : Client μ) : Prop where
  unregistered : ∀ c k, s.connections[c]? = some k → s.connection ≠ some c →
    k.closedOrAsked = true
  passed : s.stopPassed = true → s.connection = none

theorem closable_init : Closable ({} : Client μ) where
  unregistered _ _ h := by cases h
  passed h := by cases h

theorem stopPassed_eq_true {s : Client μ} :
    s.stopPassed = true ↔ s.isStopped = true ∧ ∀ r ∈ s.routines, r.pc.isStopClose = false := by
  simp only [stopPassed, Bool.and_eq_true, List.all_eq_true, Bool.not_eq_true']

theorem StopReturned.stopPassed {s : Client μ} (h : s.StopReturned) : s.stopPassed = true := by
  rw [stopPassed_eq_true]
  refine ⟨h.stopped, fun r hr => ?_⟩
  cases hclose : r.pc.isStopClose with
  | false => rfl
  | true =>
    rw [← h.returned r hr]
    exact (Pc.isStopping_of_isStopClose hclose).symm

/-- Every routine has returned. -/
theorem stopReturned_of_done {s : Client μ} {n : Nat} (hstopped : s.isStopped = true)
    (hroutines : s.routines.map Routine.pc = List.replicate n .done) : s.StopReturned := by
  have hdone : ∀ r ∈ s.routines, r.pc = .done := by
    intro r hr
    exact List.eq_of_mem_replicate (hroutines ▸ List.mem_map_of_mem hr)
  exact ⟨hstopped, fun r hr => by rw [hdone r hr]; rfl, fun r hr => by rw [hdone r hr]; rfl⟩

/-- Nothing is left to close when nothing open is registered. -/
theorem Closable.of_nothingOpen {s : Client μ} (h : s.Closable) (hnothing : s.nothingOpen = true)
    {c : Nat} {k : Connection (Entry μ)} (hk : s.connections[c]? = some k) :
    k.closedOrAsked = true := by
  by_cases hc : s.connection = some c
  · rw [nothingOpen, hc, Option.all_some, hk, Option.all_some] at hnothing
    exact hnothing
  · exact h.unregistered c k hk hc

/-! ## A step of a routine -/

/-- What a routine can do to `is_stopped_` and to the section of `stop`. -/
inductive StopChange (s : Client μ) (r : Routine μ) (t : Client μ) (r' : Routine μ) : Prop where
  | same (hstopped : t.isStopped = s.isStopped) (hpc : r.pc.isStopClose = false)
      (hpc' : r'.pc.isStopClose = false)
  | exchanged (hrunning : s.isStopped = false) (hpc' : r'.pc.isStopClose = true)
  | passed (hstopped : t.isStopped = s.isStopped) (hpc : r.pc = .stopClose)
      (hpc' : r'.pc.isStopClose = false) (hconnection : t.connection = none)

theorem Advances.stopChange {s t : Client μ} {r r' : Routine μ} (h : Advances s r t r') :
    StopChange s r t r' := by
  cases h with
  | goes hgoes =>
    generalize hpc : r.pc = pc at hgoes
    cases hgoes with
    -- a section that finds no connection is a section, too
    | stopUnconnected hconnection => exact .passed rfl hpc rfl hconnection
    | _ => exact .same rfl (by rw [hpc]; rfl) rfl
  | @sendPosted c entry hpc =>
    obtain ⟨connections, heq⟩ := s.postTo_eq c (.asyncSendInThread entry)
    rw [heq]
    exact .same rfl (by rw [hpc]; rfl) rfl
  | @stopClosed c hpc =>
    obtain ⟨connections, heq⟩ := s.postTo_eq c (.closeInThread {})
    rw [heq]
    exact .passed rfl hpc rfl rfl
  | stopped hpc hrunning => exact .exchanged hrunning rfl
  | pushed _ hpc => exact .same rfl (by rw [hpc]; rfl) rfl
  | exchangeWon hpc | sendAccepted hpc | sendDropped hpc | popped hpc | storedSent hpc | reset hpc
  | disconnected hpc | connecting hpc | registered hpc | waiting hpc | stopCancelled hpc =>
    exact .same rfl (by rw [hpc]; rfl) rfl

/-- `stop` has been in its section before the step, or enters it in this step. -/
theorem stopPassed_of_withRoutines {s t : Client μ} {i : Nat} {r r' : Routine μ}
    (hr : s.routines[i]? = some r) (hadvances : Advances s r t r')
    (h : (t.withRoutines (s.routines.set i r')).stopPassed = true) :
    s.stopPassed = true ∨ t.connection = none := by
  have hi : i < s.routines.length := (List.getElem?_eq_some_iff.mp hr).1
  obtain ⟨hstopped, hroutines⟩ := stopPassed_eq_true.mp h
  cases hadvances.stopChange with
  | same hsame hpc =>
    refine .inl (stopPassed_eq_true.mpr ⟨hsame ▸ hstopped, fun x hx => ?_⟩)
    cases hclose : x.pc.isStopClose with
    | false => rfl
    | true =>
      -- the routine that enters its section now is not the one that has moved
      rcases List.exists_mem_set (P := fun x => x.pc.isStopClose = true) hr r' ⟨x, hx, hclose⟩ with
        hr | ⟨y, hy, htrue⟩
      · rw [hpc] at hr
        cases hr
      · rw [← htrue]
        exact hroutines y hy
  | exchanged _ hpc' =>
    -- `stop` has just set the flag and has its section ahead
    rw [hroutines r' (List.mem_set hi r')] at hpc'
    cases hpc'
  | passed _ _ _ hconnection => exact .inr hconnection

theorem stopPassed_withRoutines {s t : Client μ} {i : Nat} {r r' : Routine μ}
    (hadvances : Advances s r t r') (h : s.stopPassed = true) :
    (t.withRoutines (s.routines.set i r')).stopPassed = true := by
  obtain ⟨hstopped, hroutines⟩ := stopPassed_eq_true.mp h
  have hset (hpc' : r'.pc.isStopClose = false) :
      ∀ x ∈ s.routines.set i r', x.pc.isStopClose = false := by
    intro x hx
    rcases List.mem_or_eq_of_mem_set hx with hx | rfl
    · exact hroutines x hx
    · exact hpc'
  cases hadvances.stopChange with
  | same hsame _ hpc' => exact stopPassed_eq_true.mpr ⟨hsame.trans hstopped, hset hpc'⟩
  | exchanged hrunning =>
    rw [hstopped] at hrunning
    cases hrunning
  | passed hsame _ hpc' => exact stopPassed_eq_true.mpr ⟨hsame.trans hstopped, hset hpc'⟩

theorem Advances.connection_eq_none {s t : Client μ} {r r' : Routine μ} (h : Advances s r t r')
    (hnone : s.connection = none) (hpc : r.pc ≠ .connectionRegister) : t.connection = none := by
  cases h with
  | @sendPosted c entry =>
    obtain ⟨connections, heq⟩ := s.postTo_eq c (.asyncSendInThread entry)
    rw [heq]
    exact hnone
  | reset => rfl
  | stopClosed => rfl
  | registered hregister => exact absurd hregister hpc
  | _ => exact hnone

theorem Closable.routine {s t : Client μ} {i : Nat} {r r' : Routine μ} (h : s.Closable)
    (hok : s.keepsClosable (.routine i) = true) (hr : s.routines[i]? = some r)
    (hadvances : Advances s r t r') : (t.withRoutines (s.routines.set i r')).Closable := by
  rw [keepsClosable, stepping, hr, Option.map_some] at hok
  refine ⟨?_, fun hpassed => ?_⟩
  · show ∀ c k, t.connections[c]? = some k → t.connection ≠ some c → k.closedOrAsked = true
    intro c k hk hc
    cases hadvances with
    | @sendPosted c' entry hpc =>
      rcases getElem?_postTo hk with ⟨-, hk⟩ | ⟨rfl, k', hk', rfl⟩
      · refine h.unregistered c k hk fun hsome => hc ?_
        obtain ⟨connections, heq⟩ := s.postTo_eq c' (.asyncSendInThread entry)
        rw [heq]
        exact hsome
      · apply Connection.closedOrAsked_post
        refine h.unregistered c k' hk' fun hsome => hc ?_
        obtain ⟨connections, heq⟩ := s.postTo_eq c (.asyncSendInThread entry)
        rw [heq]
        exact hsome
    | reset hpc =>
      simp only [hpc] at hok
      exact h.of_nothingOpen hok hk
    | registered hpc =>
      simp only [hpc, Bool.and_eq_true] at hok
      -- `c` is older than the connection that is registered now
      have hlt : c < s.connections.length := by
        have hle := (List.getElem?_eq_some_iff.mp hk).1
        rw [List.length_append, List.length_singleton] at hle
        have hne : c ≠ s.connections.length := fun heq => hc (heq ▸ rfl)
        omega
      rw [List.getElem?_append_left hlt] at hk
      exact h.of_nothingOpen hok.1 hk
    | @stopClosed c' hpc hconnection =>
      rcases getElem?_postTo hk with ⟨hne, hk⟩ | ⟨rfl, k', hk', rfl⟩
      · refine h.unregistered c k hk fun hsome => hne ?_
        rw [hconnection, Option.some.injEq] at hsome
        exact hsome.symm
      · exact Connection.closedOrAsked_post_close k' {}
    | _ => exact h.unregistered c k hk hc
  · show t.connection = none
    rcases stopPassed_of_withRoutines hr hadvances hpassed with hbefore | hnone
    · refine hadvances.connection_eq_none (h.passed hbefore) fun hpc => ?_
      simp only [hpc, hbefore, Bool.not_true, Bool.and_false, Bool.false_eq_true] at hok
    · exact hnone

/-! ## A step of a context -/

theorem Closable.congr {s t : Client μ} (h : s.Closable) (hconnection : t.connection = s.connection)
    (hconnections : ∀ (c : Nat) (k : Connection (Entry μ)), t.connections[c]? = some k →
      ∃ k' : Connection (Entry μ), s.connections[c]? = some k' ∧
        (k'.closedOrAsked = true → k.closedOrAsked = true))
    (hpassed : t.stopPassed = true → s.stopPassed = true) : t.Closable where
  unregistered c k hk hc := by
    obtain ⟨k', hk', himp⟩ := hconnections c k hk
    exact himp (h.unregistered c k' hk' (hconnection ▸ hc))
  passed hnow := hconnection.trans (h.passed (hpassed hnow))

theorem stopPassed_of_isPrefix {s t : Client μ} (hstopped : t.isStopped = s.isStopped)
    (hroutines : s.routines <+: t.routines) (h : t.stopPassed = true) : s.stopPassed = true := by
  rw [stopPassed_eq_true] at h ⊢
  exact ⟨hstopped ▸ h.1, fun r hr => h.2 r (hroutines.subset hr)⟩

theorem Closable.spawn {s t : Client μ} {pc : Pc μ} (h : s.Closable)
    (hconnection : t.connection = s.connection) (hconnections : t.connections = s.connections)
    (hroutines : t.routines = s.routines) (hstopped : t.isStopped = s.isStopped) :
    (t.spawn pc).Closable := by
  refine h.congr hconnection (fun c k hk => ⟨k, hconnections ▸ hk, id⟩) ?_
  refine stopPassed_of_isPrefix hstopped ?_
  rw [← hroutines]
  exact List.prefix_append _ _

theorem Closable.context {p : MessageParser ω} {s : Client μ} {c : Nat}
    {k : Connection (Entry μ)} {e : Connection.Event} {r : Handled ω (Entry μ)} (h : s.Closable)
    (hk : s.connections[c]? = some k) (hhandles : Connection.Handles p k e r) :
    (s.deliver c r).Closable := by
  refine h.congr rfl (fun c' k' hk' => ?_) (stopPassed_of_isPrefix rfl (List.prefix_append _ _))
  by_cases heq : c = c'
  · subst heq
    rw [deliver, List.getElem?_set_self (List.getElem?_eq_some_iff.mp hk).1] at hk'
    cases hk'
    exact ⟨k, hk, hhandles.closedOrAsked⟩
  · rw [deliver, List.getElem?_set_ne heq] at hk'
    exact ⟨k', hk', id⟩

theorem Closable.step {p : MessageParser ω} {s s' : Client μ} {a : ClientAction μ}
    (h : s.Closable) (hok : s.keepsClosable a = true) (hsteps : Steps p s a s') : s'.Closable := by
  cases hsteps with
  | routine hr hadvances => exact h.routine hok hr hadvances
  | context _ hk hhandles => exact h.context hk hhandles
  | _ => exact h.spawn rfl rfl rfl rfl

theorem stopPassed_spawn {s t : Client μ} {pc : Pc μ} (h : s.stopPassed = true)
    (hroutines : t.routines = s.routines) (hstopped : t.isStopped = s.isStopped)
    (hpc : pc.isStopClose = false) : (t.spawn pc).stopPassed = true := by
  rw [stopPassed_eq_true] at h ⊢
  refine ⟨hstopped.trans h.1, fun r hr => ?_⟩
  rw [Client.spawn, hroutines] at hr
  rcases List.mem_append.mp hr with hr | hr
  · exact h.2 r hr
  · rw [List.mem_singleton.mp hr]
    exact hpc

/-- Only the first call of `stop` enters the section. -/
theorem stopPassed_step {p : MessageParser ω} {s s' : Client μ} {a : ClientAction μ}
    (h : s.stopPassed = true) (hsteps : Steps p s a s') : s'.stopPassed = true := by
  cases hsteps with
  | routine hr hadvances => exact stopPassed_withRoutines hadvances h
  | @context c e k r _ hk hhandles =>
    obtain ⟨hstopped, hroutines⟩ := stopPassed_eq_true.mp h
    refine stopPassed_eq_true.mpr ⟨hstopped, fun x hx => ?_⟩
    rcases List.mem_append.mp hx with hx | hx
    · exact hroutines x hx
    · obtain ⟨cb, -, hcb⟩ := List.mem_filterMap.mp hx
      cases cb <;> cases hcb <;> rfl
  | _ => exact stopPassed_spawn h rfl rfl rfl

theorem stopPassed_run {p : MessageParser ω} {s t : Client μ} {schedule : List (ClientAction μ)}
    (h : s.stopPassed = true) (hrun : (clientMachine p μ).run s schedule = some t) :
    t.stopPassed = true := by
  have hkeep : ∀ s a s', s.stopPassed = true → (clientMachine p μ).step s a = some s' →
      s'.stopPassed = true :=
    fun _ _ _ h hstep => stopPassed_step h (steps_of_step hstep)
  exact Machine.run_keeps hkeep h hrun

/-- Every connection that the connector has started is closed or asked to close, and `connection()`
returns null. -/
structure AllClosable (s : Client μ) : Prop where
  connection : s.connection = none
  asked : ∀ k ∈ s.connections, k.closedOrAsked = true

theorem Closable.allClosable {s : Client μ} (h : s.Closable) (hpassed : s.stopPassed = true) :
    s.AllClosable where
  connection := h.passed hpassed
  asked k hk := by
    obtain ⟨c, hc⟩ := List.getElem?_of_mem hk
    exact h.unregistered c k hc (by rw [h.passed hpassed]; nofun)

end Client

/-- In a run whose steps all satisfy `keepsClosable`, once `stop` has returned and the handlers of
the connector have finished, every connection is closed or asked to close, and `connection()`
returns null from then on. -/
theorem allClosable_of_keepsClosable (p : MessageParser ω) (before after : List (ClientAction μ))
    (s t : Client μ)
    (hmeets : (clientMachine p μ).Meets (fun s a _ => s.keepsClosable a = true) {}
      (before ++ after))
    (hbefore : (clientMachine p μ).run {} before = some s) (hreturned : s.StopReturned)
    (hafter : (clientMachine p μ).run s after = some t) : t.AllClosable := by
  have hkeep : ∀ s a s', s.Closable → s.keepsClosable a = true →
      (clientMachine p μ).step s a = some s' → s'.Closable :=
    fun _ _ _ h hok hstep => h.step hok (Client.steps_of_step hstep)
  have hrun : (clientMachine p μ).run {} (before ++ after) = some t := by
    rw [Machine.run_append, hbefore, Option.bind_some, hafter]
  have hclosable : t.Closable := Machine.run_invariant hkeep Client.closable_init hmeets hrun
  exact hclosable.allClosable (Client.stopPassed_run hreturned.stopPassed hafter)

/-- A connection is registered, and `stop` runs to its end. -/
def stoppedSchedule : List (ClientAction Nat) :=
  List.flatten [[.connected], List.replicate 5 (.routine 0), [.stop], List.replicate 3 (.routine 1)]

theorem allClosable_stoppedSchedule :
    ∃ s t, (clientMachine (idleParser Nat) Nat).run {} stoppedSchedule = some s ∧
      (clientMachine (idleParser Nat) Nat).run s [.context 0 (.task 1 {}), .routine 2] = some t ∧
      t.closedBy = [0] ∧ t.AllClosable := by
  have hrun : ((clientMachine (idleParser Nat) Nat).run {} stoppedSchedule).map
      (fun s => (s.isStopped, s.routines.map Routine.pc)) =
        some (true, List.replicate 2 .done) := by decide
  obtain ⟨s, hs, hobserved⟩ := Option.map_eq_some_iff.mp hrun
  obtain ⟨hstopped, hroutines⟩ := Prod.mk.inj hobserved
  have hreturned := Client.stopReturned_of_done hstopped hroutines
  have hrest : ((clientMachine (idleParser Nat) Nat).run {}
      (stoppedSchedule ++ [.context 0 (.task 1 {}), .routine 2])).map (·.closedBy) = some [0] := by
    decide
  rw [Machine.run_append, hs, Option.bind_some] at hrest
  obtain ⟨t, ht, hclosedBy⟩ := Option.map_eq_some_iff.mp hrest
  exact ⟨s, t, hs, ht, hclosedBy, allClosable_of_keepsClosable (idleParser Nat) stoppedSchedule
    [.context 0 (.task 1 {}), .routine 2] s t (by decide) hs hreturned ht⟩

/-- `on_connection` has found `is_stopped_` false, and takes the mutex after `stop` has returned:
the connection stays registered, and nobody asks it to close. -/
theorem connection_registered_after_stop :
    ¬ ∀ (schedule : List (ClientAction Nat)) (s : Client Nat),
      (clientMachine (idleParser Nat) Nat).run {} schedule = some s → s.StopReturned →
      s.AllClosable := by
  intro h
  have hrun : ((clientMachine (idleParser Nat) Nat).run {}
      (List.flatten [[.connected, .routine 0, .stop], List.replicate 3 (.routine 1),
        List.replicate 4 (.routine 0)])).map
      (fun s => (s.isStopped, s.routines.map Routine.pc, s.connection)) =
        some (true, List.replicate 2 .done, some 0) := by decide
  obtain ⟨s, hs, hobserved⟩ := Option.map_eq_some_iff.mp hrun
  obtain ⟨hstopped, hobserved⟩ := Prod.mk.inj hobserved
  obtain ⟨hroutines, hconnection⟩ := Prod.mk.inj hobserved
  have hnone := (h _ s hs (Client.stopReturned_of_done hstopped hroutines)).connection
  rw [hconnection] at hnone
  cases hnone

/-! ## Connections that tell once that they are closed -/

namespace Client

/-- `on_connection` enters its section before `stop` has been in its own. -/
def registersBeforeStop (s : Client μ) (a : ClientAction μ) : Bool :=
  match (s.stepping a).map Routine.pc with
  | some .connectionRegister => !s.stopPassed
  | _ => true

/-- What a run keeps in which every connection tells at most once that it is closed. -/
structure TellsOnce (s : Client μ) : Prop where
  token : s.OneToken
  told : ∀ c k, s.connections[c]? = some k → c ∈ s.closedBy → k.state = .stopped

theorem tellsOnce_init : TellsOnce ({} : Client μ) where
  token := oneToken_init
  told _ _ h := by cases h

theorem TellsOnce.step {p : MessageParser ω} {s s' : Client μ} {a : ClientAction μ}
    (h : s.TellsOnce) (honce : s'.closedBy.Nodup) (hsteps : Steps p s a s') : s'.TellsOnce := by
  refine ⟨h.token.step honce hsteps, ?_⟩
  cases hsteps with
  | @routine i r t r' hr hadvances =>
    show ∀ c k, t.connections[c]? = some k → c ∈ t.closedBy → k.state = .stopped
    rw [hadvances.valid.2.1]
    refine hadvances.connections_keep (fun c k task hk => hk) (fun hnew => ?_) h.told
    exact absurd (h.token.valid.closedBy _ hnew) (Nat.lt_irrefl _)
  | @context c e k r hthrown hk hhandles =>
    have hc : c < s.connections.length := (List.getElem?_eq_some_iff.mp hk).1
    -- a handler that tells leaves the connection stopped, and no handler restarts one
    have hset {closedBy : List Nat}
        (htold : ∀ c', c' ∈ closedBy → c' ∈ s.closedBy ∨ c' = c ∧ r.connection.state = .stopped) :
        ∀ c' k', (s.connections.set c r.connection)[c']? = some k' → c' ∈ closedBy →
          k'.state = .stopped := by
      intro c' k' hk' hmem
      by_cases heq : c = c'
      · subst heq
        rw [List.getElem?_set_self hc, Option.some.injEq] at hk'
        rw [← hk']
        rcases htold c hmem with hold | ⟨-, hstopped⟩
        · rcases hhandles.state_eq with hsame | hstopped
          · exact hsame.trans (h.told c k hk hold)
          · exact hstopped
        · exact hstopped
      · rw [List.getElem?_set_ne heq] at hk'
        rcases htold c' hmem with hold | ⟨rfl, -⟩
        · exact h.told c' k' hk' hold
        · exact absurd rfl heq
    have hdelivers := delivers s c hhandles
    generalize s.deliver c r = t at hdelivers ⊢
    cases hdelivers with
    | silent => exact hset fun c' hmem => .inl hmem
    | closed _ hstate =>
      refine hset fun c' hmem => ?_
      rcases List.mem_append.mp hmem with hold | hnew
      · exact .inl hold
      · exact .inr ⟨List.mem_singleton.mp hnew, hstate⟩
    | sent => exact hset fun c' hmem => .inl hmem
  | _ => exact h.told

/-- The sections of the connector find only a connection that is closed already. -/
theorem TellsOnce.keepsClosable_eq {s : Client μ} (h : s.TellsOnce) (honce : s.closedBy.Nodup)
    (a : ClientAction μ) : s.keepsClosable a = s.registersBeforeStop a := by
  unfold keepsClosable registersBeforeStop
  cases hstepping : s.stepping a with
  | none => rfl
  | some r =>
    have hr : r ∈ s.routines := by
      cases a <;> first | exact List.mem_of_getElem? hstepping | cases hstepping
    rw [Option.map_some]
    cases hpc : r.pc with
    | connectionRegister =>
      have hnone : s.connection = none := h.token.connection_eq_none hr (by rw [hpc]; rfl)
      simp only [nothingOpen, hnone, Option.all_none, Bool.true_and]
    | closedReset c =>
      -- another connection than `c` would hold a second token
      by_cases hconnection : s.connection = some c
      · have htold : c ∈ s.closedBy :=
          (h.token.closing_eq_one honce hr (by rw [hpc]; exact beq_self_eq_true c)).2
        simp only [nothingOpen, hconnection, Option.all_some]
        cases hk : s.connections[c]? with
        | none => rfl
        | some k => exact Connection.closedOrAsked_of_stopped (h.told c k hk htold)
      · have hnone : s.connection = none := by
          apply h.token.connection_eq_none hr
          rw [hpc, Pc.holds, if_neg hconnection]
        simp only [nothingOpen, hnone, Option.all_none]
    | _ => rfl

/-- `stop` has missed the registered connection, and no handler is left that drops it. -/
structure Missed (s : Client μ) : Prop where
  passed : s.stopPassed = true
  connection : s.connection ≠ none
  notReset : ∀ r ∈ s.routines, ∀ c, r.pc ≠ .closedReset c

theorem Advances.of_register {s t : Client μ} {r r' : Routine μ} (h : Advances s r t r')
    (hpc : r.pc = .connectionRegister) :
    t.connection = some s.connections.length ∧ r'.pc = .loadSending := by
  cases h with
  | registered => exact ⟨rfl, rfl⟩
  | goes hgoes =>
    rw [hpc] at hgoes
    cases hgoes
  | pushed _ hpc' =>
    rw [hpc] at hpc'
    cases hpc'
  | _ hpc' =>
    rw [hpc] at hpc'
    cases hpc'

theorem missed_of_register {s t : Client μ} {i : Nat} {r r' : Routine μ} (h : s.OneToken)
    (hr : s.routines[i]? = some r) (hadvances : Advances s r t r')
    (hpc : r.pc = .connectionRegister) (hpassed : s.stopPassed = true) :
    (t.withRoutines (s.routines.set i r')).Missed := by
  obtain ⟨hconnection, hpc'⟩ := hadvances.of_register hpc
  refine ⟨stopPassed_withRoutines hadvances hpassed, ?_, fun x hx c hreset => ?_⟩
  · show t.connection ≠ none
    rw [hconnection]
    exact Option.some_ne_none _
  · -- `on_connection` has had the only token
    obtain ⟨rest, hheld, hset⟩ :=
      List.exists_sum_map_set (fun r : Routine μ => r.pc.holds s.connection) hr
    change s.held = r.pc.holds s.connection + rest at hheld
    have hatMost := h.atMost
    have hnone : s.connection = none :=
      h.connection_eq_none (List.mem_of_getElem? hr) (by rw [hpc]; rfl)
    have hzero : ((s.routines.set i r').map fun r => r.pc.holds s.connection).sum = 0 := by
      rw [hpc, Pc.holds] at hheld
      rw [hset, hpc']
      change 0 + rest = 0
      omega
    have hx0 := List.sum_eq_zero_iff_forall_eq_nat.mp hzero _ (List.mem_map_of_mem hx)
    rw [hreset, hnone, Pc.holds, if_neg (Option.some_ne_none c).symm] at hx0
    cases hx0

theorem Missed.routine {s t : Client μ} {i : Nat} {r r' : Routine μ} (h : s.Missed)
    (hr : s.routines[i]? = some r) (hadvances : Advances s r t r') :
    (t.withRoutines (s.routines.set i r')).Missed := by
  obtain ⟨hstopped, hclose⟩ := stopPassed_eq_true.mp h.passed
  have hmem : r ∈ s.routines := List.mem_of_getElem? hr
  refine ⟨stopPassed_withRoutines hadvances h.passed, ?_, fun x hx c hreset => ?_⟩
  · show t.connection ≠ none
    cases hadvances.connectionChange with
    | same hsame => exact hsame ▸ h.connection
    | reset c hpc => exact absurd hpc (h.notReset r hmem c)
    | registered _ _ hconnection =>
      rw [hconnection]
      exact Option.some_ne_none _
    | stopClosed hpc =>
      have hnot := hclose r hmem
      rw [hpc] at hnot
      cases hnot
  · rcases List.mem_or_eq_of_mem_set hx with hx | rfl
    · exact h.notReset x hx c hreset
    · have hrunning := (hadvances.connector.2.1 c hreset).2
      rw [hstopped] at hrunning
      cases hrunning

theorem Missed.step {p : MessageParser ω} {s s' : Client μ} {a : ClientAction μ} (h : s.Missed)
    (hsteps : Steps p s a s') : s'.Missed := by
  have hpassed := stopPassed_step h.passed hsteps
  cases hsteps with
  | routine hr hadvances => exact h.routine hr hadvances
  | context =>
    refine ⟨hpassed, h.connection, fun x hx c hreset => ?_⟩
    rcases List.mem_append.mp hx with hx | hx
    · exact h.notReset x hx c hreset
    · obtain ⟨cb, -, hcb⟩ := List.mem_filterMap.mp hx
      cases cb <;> cases hcb <;> cases hreset
  | _ =>
    refine ⟨hpassed, h.connection, fun x hx c hreset => ?_⟩
    rcases List.mem_append.mp hx with hx | hx
    · exact h.notReset x hx c hreset
    · rw [List.mem_singleton.mp hx] at hreset
      cases hreset

/-- A step that is not allowed registers a connection, which nobody takes out any more. -/
theorem OneToken.missed_of_late {p : MessageParser ω} {s s' : Client μ} {a : ClientAction μ}
    (h : s.OneToken) (hlate : s.registersBeforeStop a = false) (hsteps : Steps p s a s') :
    s'.Missed := by
  unfold registersBeforeStop at hlate
  cases hsteps with
  | @routine i r t r' hr hadvances =>
    rw [stepping, hr, Option.map_some] at hlate
    cases hpc : r.pc with
    | connectionRegister =>
      simp only [hpc, Bool.not_eq_false'] at hlate
      exact missed_of_register h hr hadvances hpc hlate
    | _ => simp only [hpc, Bool.true_eq_false] at hlate
  | _ => cases hlate

end Client

/-- Where every connection tells at most once that it is closed, the race of `on_connection` with
`stop` is all that can go wrong. -/
theorem allClosable_iff_registersBeforeStop (p : MessageParser ω)
    (before after : List (ClientAction μ)) (s t : Client μ)
    (hbefore : (clientMachine p μ).run {} before = some s) (hreturned : s.StopReturned)
    (hafter : (clientMachine p μ).run s after = some t) (honce : t.closedBy.Nodup) :
    t.AllClosable ↔ (clientMachine p μ).Meets (fun s a _ => s.registersBeforeStop a = true) {}
      (before ++ after) := by
  have hback : ∀ s a s', (clientMachine p μ).step s a = some s' → s'.closedBy.Nodup →
      s.closedBy.Nodup :=
    fun _ _ _ hstep hnodup => Client.nodup_closedBy hnodup (Client.steps_of_step hstep)
  have htells : ∀ s a s', s.TellsOnce → s'.closedBy.Nodup →
      (clientMachine p μ).step s a = some s' → s'.TellsOnce :=
    fun _ _ _ h hnodup hstep => h.step hnodup (Client.steps_of_step hstep)
  have hrun : (clientMachine p μ).run {} (before ++ after) = some t := by
    rw [Machine.run_append, hbefore, Option.bind_some, hafter]
  have hpassed : t.stopPassed = true := Client.stopPassed_run hreturned.stopPassed hafter
  constructor
  · intro hall
    rw [Machine.meets_iff_forall]
    intro first a rest u v heq hfirst hstep
    -- a late registration stays to the end, where `connection()` is null
    cases hok : u.registersBeforeStop a with
    | true => rfl
    | false =>
      have hrest : (clientMachine p μ).run v rest = some t := by
        rw [heq, Machine.run_append, hfirst, Option.bind_some] at hrun
        obtain ⟨v', hstep', hrest⟩ := Machine.run_cons hrun
        rw [hstep, Option.some.injEq] at hstep'
        exact hstep' ▸ hrest
      have hnodup : u.closedBy.Nodup :=
        hback u a v hstep (Machine.holds_before hback hrest honce)
      have hu : u.TellsOnce := Machine.run_invariant htells Client.tellsOnce_init
        (Machine.meets_of_holds_after hback hfirst hnodup) hfirst
      have hv : v.Missed := hu.token.missed_of_late hok (Client.steps_of_step hstep)
      have hmissed : t.Missed :=
        Machine.run_keeps (fun _ _ _ h hstep => h.step (Client.steps_of_step hstep)) hv hrest
      exact absurd hall.connection hmissed.connection
  · intro hmeets
    have honces := Machine.meets_of_holds_after hback hrun honce
    have hkeep : ∀ s a s', s.TellsOnce ∧ s.Closable →
        s.registersBeforeStop a = true ∧ s'.closedBy.Nodup →
        (clientMachine p μ).step s a = some s' → s'.TellsOnce ∧ s'.Closable := by
      intro s a s' ⟨htells, hclosable⟩ ⟨hok, hnodup⟩ hstep
      have hsteps := Client.steps_of_step hstep
      rw [← htells.keepsClosable_eq (Client.nodup_closedBy hnodup hsteps)] at hok
      exact ⟨htells.step hnodup hsteps, hclosable.step hok hsteps⟩
    obtain ⟨-, hclosable⟩ := Machine.run_invariant hkeep
      ⟨Client.tellsOnce_init, Client.closable_init⟩ (hmeets.and honces) hrun
    exact hclosable.allClosable hpassed

end MsgpackRpc.Clients
