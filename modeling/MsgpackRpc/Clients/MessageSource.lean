import Mathlib.Algebra.Order.Group.Multiset
import MsgpackRpc.Clients.Client
import MsgpackRpc.Transport.ConnectionReading

/-!
# Where the messages of a client come from

Whatever the sender and the connections of a client hold has been given to `send`, and `send` pushes
what it is given once.
-/

namespace MsgpackRpc.Clients

open MsgpackRpc.Transport

variable {ω μ : Type}

/-- The message that a routine is about to push or to send. -/
def Pc.message : Pc μ → Option μ
  | .push message _ => some message
  | .exchangeSending _ entry | .asyncSend _ entry | .postSend _ entry => some entry.message
  | _ => none

/-- The message that a routine is about to push. -/
def Pc.pushing : Pc μ → Multiset μ
  | .push message _ => {message}
  | _ => 0

def ClientAction.offers : ClientAction μ → Multiset μ
  | .send message _ => {message}
  | _ => 0

namespace Client

/-- Every message that is queued, or on its way to a connection, has `P`. -/
structure HoldsOnly (P : μ → Prop) (s : Client μ) : Prop where
  queue : ∀ entry ∈ s.queue, P entry.message
  routines : ∀ r ∈ s.routines, ∀ m, r.pc.message = some m → P m
  tasks : ∀ (c : Nat) (k : Connection (Entry μ)), s.connections[c]? = some k →
    ∀ entry, .asyncSendInThread entry ∈ k.tasks → P entry.message

variable {P Q : μ → Prop} {s t s' : Client μ}

theorem holdsOnly_init (P : μ → Prop) : HoldsOnly P ({} : Client μ) where
  queue := nofun
  routines := nofun
  tasks _ _ hk := by cases hk

theorem HoldsOnly.mono (h : s.HoldsOnly P) (hPQ : ∀ m, P m → Q m) : s.HoldsOnly Q where
  queue entry hentry := hPQ _ (h.queue entry hentry)
  routines r hr m hm := hPQ m (h.routines r hr m hm)
  tasks c k hk entry hentry := hPQ _ (h.tasks c k hk entry hentry)

theorem HoldsOnly.append (h : s.HoldsOnly P) {routines : List (Routine μ)}
    (hqueue : t.queue = s.queue) (hconnections : t.connections = s.connections)
    (hroutines : t.routines = s.routines ++ routines)
    (hnew : ∀ r ∈ routines, ∀ m, r.pc.message = some m → P m) : t.HoldsOnly P where
  queue := hqueue ▸ h.queue
  routines r hr := by
    rw [hroutines] at hr
    rcases List.mem_append.mp hr with hr | hr
    · exact h.routines r hr
    · exact hnew r hr
  tasks := hconnections ▸ h.tasks

theorem HoldsOnly.spawn (h : s.HoldsOnly P) {pc : Pc μ} (hqueue : t.queue = s.queue)
    (hconnections : t.connections = s.connections) (hroutines : t.routines = s.routines)
    (hpc : ∀ m, pc.message = some m → P m) : (t.spawn pc).HoldsOnly P := by
  refine h.append hqueue hconnections (congrArg (· ++ [_]) hroutines) fun r hr m hm => ?_
  rw [List.mem_singleton.mp hr] at hm
  exact hpc m hm

/-- Posting a task to a connection, where a task that sends has been given a message with `P`. -/
theorem HoldsOnly.tasks_postTo (h : s.HoldsOnly P) {c : Nat} {task : Transport.Task (Entry μ)}
    (htask : ∀ entry, task = .asyncSendInThread entry → P entry.message) :
    ∀ (c' : Nat) (k : Connection (Entry μ)), (s.postTo c task).connections[c']? = some k →
      ∀ entry, .asyncSendInThread entry ∈ k.tasks → P entry.message := by
  intro c' k hk entry hentry
  rcases getElem?_postTo hk with ⟨-, hk⟩ | ⟨rfl, k', hk', rfl⟩
  · exact h.tasks c' k hk entry hentry
  · rcases List.mem_append.mp hentry with hold | hnew
    · exact h.tasks c' k' hk' entry hold
    · exact htask entry (List.mem_singleton.mp hnew).symm

/-- A routine that only reads takes its message from the front of the queue or has it already. -/
theorem Goes.held {pc pc' : Pc μ} (hgoes : Goes s pc pc') {m : μ} (hm : pc'.message = some m) :
    pc.message = some m ∨ ∃ entry ∈ s.queue, entry.message = m := by
  cases hgoes with
  | message hqueue =>
    refine .inr ⟨_, List.mem_of_mem_head? hqueue, ?_⟩
    exact Option.some.inj hm
  | _ => cases hm

theorem HoldsOnly.advances {r r' : Routine μ} (h : s.HoldsOnly P) (hr : r ∈ s.routines)
    (hadvances : Advances s r t r') :
    (∀ entry ∈ t.queue, P entry.message) ∧ (∀ m, r'.pc.message = some m → P m) ∧
      ∀ (c : Nat) (k : Connection (Entry μ)), t.connections[c]? = some k →
        ∀ entry, .asyncSendInThread entry ∈ k.tasks → P entry.message := by
  have hheld {m : μ} (hm : r.pc.message = some m) : P m := h.routines r hr m hm
  cases hadvances with
  | goes hgoes =>
    refine ⟨h.queue, fun m hm => ?_, h.tasks⟩
    rcases hgoes.held hm with hbefore | ⟨entry, hentry, rfl⟩
    · exact hheld hbefore
    · exact h.queue entry hentry
  | pushed entry hpc =>
    refine ⟨fun x hx => ?_, nofun, h.tasks⟩
    rcases List.mem_append.mp hx with hx | hx
    · exact h.queue x hx
    · rw [List.mem_singleton.mp hx]
      exact hheld (by rw [hpc]; rfl)
  | exchangeWon hpc => exact ⟨h.queue, fun m hm => hheld (hpc ▸ hm), h.tasks⟩
  | sendAccepted hpc => exact ⟨h.queue, fun m hm => hheld (hpc ▸ hm), h.tasks⟩
  | @sendPosted c entry hpc =>
    have htask : ∀ x, Transport.Task.asyncSendInThread entry = .asyncSendInThread x →
        P x.message := by
      intro x hx
      cases hx
      exact hheld (by rw [hpc]; rfl)
    obtain ⟨connections, heq⟩ := postTo_eq s c (.asyncSendInThread entry)
    refine ⟨?_, nofun, h.tasks_postTo htask⟩
    rw [heq]
    exact h.queue
  | popped hpc hqueue =>
    refine ⟨fun x hx => h.queue x ?_, nofun, h.tasks⟩
    rw [hqueue]
    exact List.mem_cons_of_mem _ hx
  | registered =>
    refine ⟨h.queue, nofun, fun c k hk entry hentry => ?_⟩
    rw [List.getElem?_append] at hk
    split at hk
    · exact h.tasks c k hk entry hentry
    · rw [List.mem_singleton.mp (List.mem_of_getElem? hk)] at hentry
      cases List.mem_singleton.mp hentry
  | @stopClosed c =>
    obtain ⟨connections, heq⟩ := postTo_eq s c (.closeInThread {})
    refine ⟨?_, nofun, h.tasks_postTo nofun⟩
    rw [heq]
    exact h.queue
  | _ => exact ⟨h.queue, nofun, h.tasks⟩

/-- What a client holds after a step has been there before, or has just been given to `send`. -/
theorem HoldsOnly.step {p : MessageParser ω} {a : ClientAction μ} (h : s.HoldsOnly P)
    (hsend : ∀ m id, a = .send m id → P m) (hsteps : Steps p s a s') : s'.HoldsOnly P := by
  cases hsteps with
  | send =>
    refine h.spawn rfl rfl rfl fun m hm => ?_
    cases hm
    exact hsend _ _ rfl
  | stop | connected | connectFailed | retryExpired => exact h.spawn rfl rfl rfl nofun
  | @routine i r t r' hr hadvances =>
    obtain ⟨hqueue, hmessage, htasks⟩ := h.advances (List.mem_of_getElem? hr) hadvances
    refine ⟨hqueue, fun x hx => ?_, htasks⟩
    rcases List.mem_or_eq_of_mem_set hx with hx | rfl
    · exact h.routines x hx
    · exact hmessage
  | @context c e k r _ hk hhandles =>
    have htasks : ∀ (c' : Nat) (k' : Connection (Entry μ)),
        (s.connections.set c r.connection)[c']? = some k' →
        ∀ entry, .asyncSendInThread entry ∈ k'.tasks → P entry.message := by
      intro c' k' hk' entry hentry
      by_cases heq : c = c'
      · rw [← heq, List.getElem?_set_self (List.getElem?_eq_some_iff.mp hk).1,
          Option.some.injEq] at hk'
        rw [← hk'] at hentry
        exact h.tasks c k hk entry (hhandles.tasks_subset hentry)
      · rw [List.getElem?_set_ne heq] at hk'
        exact h.tasks c' k' hk' entry hentry
    have hsilent : ({ s with connections := s.connections.set c r.connection } :
        Client μ).HoldsOnly P := ⟨h.queue, h.routines, htasks⟩
    have hdelivers := delivers s c hhandles
    generalize s.deliver c r = t at hdelivers ⊢
    cases hdelivers with
    | silent => exact ⟨hsilent.queue, hsilent.routines, hsilent.tasks⟩
    | closed | sent =>
      refine hsilent.append rfl rfl rfl fun x hx m hm => ?_
      rw [List.mem_singleton.mp hx] at hm
      cases hm

/-! ## Each message is pushed once -/

/-- What has been pushed, or is about to be. -/
def offered (s : Client μ) : Multiset μ :=
  ↑(s.pushed.map Entry.message) + (s.routines.map fun r => r.pc.pushing).sum

theorem offered_spawn {pc : Pc μ} (hpushed : t.pushed = s.pushed)
    (hroutines : t.routines = s.routines) :
    (t.spawn pc).offered = s.offered + pc.pushing := by
  simp only [offered, spawn, hpushed, hroutines, List.map_append, List.sum_append, List.map_cons,
    List.map_nil, List.sum_singleton, add_assoc]

theorem Advances.offered {i : Nat} {r r' : Routine μ} (h : Advances s r t r')
    (hr : s.routines[i]? = some r) :
    (t.withRoutines (s.routines.set i r')).offered = s.offered := by
  obtain ⟨rest, hbefore, hafter⟩ := List.exists_sum_map_set (fun r : Routine μ => r.pc.pushing) hr
  have hs : s.offered = ↑(s.pushed.map Entry.message) + (r.pc.pushing + rest) := by
    rw [Client.offered, hbefore]
  have ht : (t.withRoutines (s.routines.set i r')).offered =
      ↑(t.pushed.map Entry.message) + (r'.pc.pushing + rest) := by
    rw [← hafter]
    rfl
  rw [hs, ht]
  have kept (hpushed : t.pushed = s.pushed) (hpc : r'.pc.pushing = r.pc.pushing) :
      (↑(t.pushed.map Entry.message) + (r'.pc.pushing + rest) : Multiset μ) =
        ↑(s.pushed.map Entry.message) + (r.pc.pushing + rest) := by
    rw [hpushed, hpc]
  cases h with
  | goes hgoes =>
    generalize r.pc = pc at hgoes kept
    exact kept rfl (by cases hgoes <;> rfl)
  | pushed entry hpc =>
    rw [hpc, List.map_append, ← Multiset.coe_add]
    show _ + ({entry.message} : Multiset μ) + (0 + rest) = _ + ({entry.message} + rest)
    rw [zero_add, add_assoc]
  | @sendPosted c entry hpc =>
    obtain ⟨connections, heq⟩ := postTo_eq s c (.asyncSendInThread entry)
    exact kept (by rw [heq]) (by rw [hpc]; rfl)
  | @stopClosed c hpc =>
    obtain ⟨connections, heq⟩ := postTo_eq s c (.closeInThread {})
    exact kept (by rw [heq]) (by rw [hpc]; rfl)
  | exchangeWon hpc | popped hpc | stopped hpc | sendAccepted hpc | sendDropped hpc =>
    exact kept rfl (by rw [hpc]; rfl)
  | _ =>
    rename_i hpc
    exact kept rfl (by rw [hpc]; rfl)

theorem Steps.offered {p : MessageParser ω} {a : ClientAction μ} (h : Steps p s a s') :
    s'.offered = s.offered + a.offers := by
  cases h with
  | send => exact offered_spawn rfl rfl
  | stop | connected | connectFailed | retryExpired => exact offered_spawn rfl rfl
  | routine hr hadvances => exact (hadvances.offered hr).trans (add_zero _).symm
  | @context c e k r _ hk hhandles =>
    have hdelivers := delivers s c hhandles
    generalize s.deliver c r = t at hdelivers ⊢
    cases hdelivers <;>
      simp only [Client.offered, List.map_append, List.sum_append, List.map_cons, List.map_nil,
        List.sum_singleton, Pc.pushing, ClientAction.offers, add_zero]

/-! ## The connections after a step -/

/-- Outside the handlers, connections are only added and posted to. -/
theorem Advances.connection {r r' : Routine μ} (h : Advances s r t r') {c : Nat}
    {k : Connection (Entry μ)} (hk : t.connections[c]? = some k) :
    (∃ before, s.connections[c]? = some before ∧
      (k = before ∨ ∃ task, task.isReadNext = false ∧ k = before.post task)) ∨
    s.connections[c]? = none ∧ k = startedConnection (Entry μ) := by
  have posted {c' : Nat} {task : Transport.Task (Entry μ)} (htask : task.isReadNext = false)
      (hk : (s.postTo c' task).connections[c]? = some k) :
      ∃ before, s.connections[c]? = some before ∧
        (k = before ∨ ∃ task, task.isReadNext = false ∧ k = before.post task) := by
    rcases getElem?_postTo hk with ⟨-, hk⟩ | ⟨rfl, before, hbefore, rfl⟩
    · exact ⟨k, hk, .inl rfl⟩
    · exact ⟨before, hbefore, .inr ⟨task, htask, rfl⟩⟩
  cases h with
  | sendPosted => exact .inl (posted rfl hk)
  | stopClosed => exact .inl (posted rfl hk)
  | registered =>
    rw [List.getElem?_append] at hk
    split at hk
    · exact .inl ⟨k, hk, .inl rfl⟩
    · rename_i hlt
      refine .inr ⟨List.getElem?_eq_none (Nat.le_of_not_lt hlt), ?_⟩
      exact List.mem_singleton.mp (List.mem_of_getElem? hk)
  | _ => exact .inl ⟨k, hk, .inl rfl⟩

theorem Steps.connection {p : MessageParser ω} {a : ClientAction μ} (h : Steps p s a s')
    (hown : ∀ c e, a ≠ .context c e) {c : Nat} {k : Connection (Entry μ)}
    (hk : s'.connections[c]? = some k) :
    (∃ before, s.connections[c]? = some before ∧
      (k = before ∨ ∃ task, task.isReadNext = false ∧ k = before.post task)) ∨
    s.connections[c]? = none ∧ k = startedConnection (Entry μ) := by
  cases h with
  | routine hr hadvances => exact hadvances.connection hk
  | context => exact absurd rfl (hown _ _)
  | _ => exact .inl ⟨k, hk, .inl rfl⟩

theorem Steps.length_le {p : MessageParser ω} {a : ClientAction μ} (h : Steps p s a s') :
    s.connections.length ≤ s'.connections.length := by
  cases h with
  | routine hr hadvances => exact hadvances.valid.2.2.1
  | context => exact Nat.le_of_eq List.length_set.symm
  | _ => exact Nat.le_refl _

end Client

end MsgpackRpc.Clients
