import Mathlib.Algebra.GroupWithZero.Nat
import Mathlib.Algebra.Order.BigOperators.Group.List
import Mathlib.Algebra.Order.Group.Nat
import MsgpackRpc.Clients.Client
import MsgpackRpc.Lib.Update

/-!
# One attempt at a time

The right to have a connection moves from a connect attempt to a registered connection or to the
retry timer, and from there to the next attempt.  While it moves, one handler of the connector holds
it.
-/

namespace MsgpackRpc.Clients

open MsgpackRpc.Transport

variable {ω μ : Type}

/-- What a routine holds.  The connection that is about to be dropped still holds it, unless `stop`
has dropped it before. -/
def Pc.holds (connection : Option Nat) : Pc μ → Nat
  | .handleDisconnection | .asyncConnect | .connectionLoad | .connectionRegister | .failureLoad
  | .asyncWait => 1
  | .closedReset c => if connection = some c then 0 else 1
  | _ => 0

/-- The routine is inside a handler of the connector. -/
def Pc.isConnector : Pc μ → Bool
  | .closedLoad _ | .closedReset _ | .handleDisconnection | .asyncConnect | .connectionLoad
  | .connectionRegister | .failureLoad | .asyncWait => true
  | _ => false

/-- The first step of a call that no connection has made. -/
def Pc.isStart : Pc μ → Bool
  | .push _ _ | .stopExchange | .connectionLoad | .failureLoad | .asyncConnect => true
  | _ => false

theorem Pc.holds_eq_zero {pc : Pc μ} (h : pc.isConnector = false) (connection : Option Nat) :
    pc.holds connection = 0 := by
  cases pc <;> first | rfl | cases h

theorem Pc.holds_some (pc : Pc μ) (c : Nat) :
    pc.holds none ≤ pc.holds (some c) + (pc.closes c).toNat := by
  cases pc with
  | closedReset c' =>
    by_cases heq : c' = c
    · simp [Pc.holds, Pc.closes, heq]
    · simp [Pc.holds, Ne.symm heq]
  | _ => exact Nat.le_add_right _ _

theorem Pc.holds_none {pc : Pc μ} {c : Nat} (h : pc.closes c = false) :
    pc.holds none = pc.holds (some c) := by
  cases pc with
  | closedReset c' =>
    have hne : c' ≠ c := ne_of_beq_false h
    simp [Pc.holds, Ne.symm hne]
  | _ => rfl

namespace Client

/-- The connect attempts in flight, the armed retry timer and the registered connection. -/
def attempts (s : Client μ) : Nat :=
  s.connecting + s.retryArmed.toNat + s.connection.isSome.toNat

def held (s : Client μ) : Nat := (s.routines.map fun r => r.pc.holds s.connection).sum

/-- How many routines tell that connection `c` is closed. -/
def closing (s : Client μ) (c : Nat) : Nat := (s.routines.map fun r => (r.pc.closes c).toNat).sum

def BetweenHandlers (s : Client μ) : Prop := ∀ r ∈ s.routines, r.pc.isConnector = false

instance (s : Client μ) : Decidable s.BetweenHandlers :=
  inferInstanceAs (Decidable (∀ r ∈ s.routines, r.pc.isConnector = false))

/-- What a run keeps in which every connection tells at most once that it is closed. -/
structure OneToken (s : Client μ) : Prop where
  valid : s.Valid
  atMost : s.attempts + s.held ≤ 1
  exactly : s.isStopped = false → s.attempts + s.held = 1
  resetting : ∀ r ∈ s.routines, ∀ c, r.pc = .closedReset c →
    s.connection = some c ∨ s.isStopped = true
  telling : s.isStopped = false → ∀ r ∈ s.routines, ∀ c, r.pc = .closedLoad c →
    s.connection = some c
  unreported : s.isStopped = false → ∀ c < s.connections.length, c ∉ s.closedBy →
    s.connection = some c
  reported : ∀ c, s.closing c ≤ s.closedBy.count c
  stopping : ∀ r ∈ s.routines, r.pc = .stopClose ∨ r.pc = .stopCancel → s.isStopped = true

theorem oneToken_init : OneToken ({} : Client μ) where
  valid := valid_init
  atMost := Nat.le_refl 1
  exactly _ := rfl
  resetting := nofun
  telling _ := nofun
  unreported _ _ h := absurd h (Nat.not_lt_zero _)
  reported _ := Nat.zero_le _
  stopping := nofun

/-! ## The token in a step of a routine -/

/-- At most one routine tells about a connection that tells once. -/
theorem OneToken.closing_eq_one {s : Client μ} (h : s.OneToken) (honce : s.closedBy.Nodup)
    {r : Routine μ} (hr : r ∈ s.routines) {c : Nat} (hc : r.pc.closes c = true) :
    s.closing c = 1 ∧ c ∈ s.closedBy := by
  obtain ⟨i, hi⟩ := List.getElem?_of_mem hr
  obtain ⟨rest, hsum, -⟩ := List.exists_sum_map_set (fun r : Routine μ => (r.pc.closes c).toNat) hi
  have hone : s.closing c = 1 + rest := by rw [closing, hsum, hc, Bool.toNat_true]
  have hreported := h.reported c
  have hcount : s.closedBy.count c ≤ 1 := List.nodup_iff_count.mp honce c
  exact ⟨by omega, List.count_pos_iff.mp (by omega)⟩

/-- When the routine that tells about `c` goes on, no other one tells about it. -/
theorem OneToken.closes_eq_false {s : Client μ} (h : s.OneToken) (honce : s.closedBy.Nodup)
    {i : Nat} {r r' : Routine μ} (hr : s.routines[i]? = some r) {c : Nat}
    (hc : r.pc.closes c = true) (hc' : r'.pc.closes c = false) :
    ∀ x ∈ s.routines.set i r', x.pc.closes c = false := by
  obtain ⟨rest, hsum, hset⟩ :=
    List.exists_sum_map_set (fun r : Routine μ => (r.pc.closes c).toNat) hr
  have hone := (h.closing_eq_one honce (List.mem_of_getElem? hr) hc).1
  rw [closing, hsum, hc, Bool.toNat_true] at hone
  have hzero : ((s.routines.set i r').map fun r => (r.pc.closes c).toNat).sum = 0 := by
    rw [hset, hc', Bool.toNat_false]
    omega
  intro x hx
  have hx0 := List.sum_eq_zero_iff_forall_eq_nat.mp hzero _ (List.mem_map_of_mem hx)
  exact Bool.toNat_eq_zero.mp hx0

theorem attempts_of_connection {s : Client μ} {c : Nat} (h : s.connection = some c) :
    s.attempts = s.connecting + s.retryArmed.toNat + 1 := by
  rw [attempts, h, Option.isSome_some, Bool.toNat_true]

/-- A routine and a registered connection do not both have a token. -/
theorem OneToken.connection_eq_none {s : Client μ} (h : s.OneToken) {r : Routine μ}
    (hr : r ∈ s.routines) (hholds : r.pc.holds s.connection = 1) : s.connection = none := by
  obtain ⟨i, hi⟩ := List.getElem?_of_mem hr
  obtain ⟨rest, hheld, -⟩ :=
    List.exists_sum_map_set (fun r : Routine μ => r.pc.holds s.connection) hi
  change s.held = r.pc.holds s.connection + rest at hheld
  have hatMost := h.atMost
  cases hsome : s.connection with
  | none => rfl
  | some d =>
    rw [attempts_of_connection hsome] at hatMost
    omega

theorem Goes.holds {s : Client μ} {pc pc' : Pc μ} (h : Goes s pc pc')
    (htelling : s.isStopped = false → ∀ c, pc = .closedLoad c → s.connection = some c) :
    s.isStopped = true ∧ pc'.holds s.connection ≤ pc.holds s.connection ∨
      pc'.holds s.connection = pc.holds s.connection := by
  cases h with
  | closed hrunning => exact .inr (if_pos (htelling hrunning _ rfl))
  | connectionStopped hstopped => exact .inl ⟨hstopped, Nat.zero_le _⟩
  | failureStopped hstopped => exact .inl ⟨hstopped, Nat.zero_le _⟩
  | _ => exact .inr rfl

/-- No routine tells about a connection that does not exist yet. -/
theorem Valid.closes_eq_false {s : Client μ} (h : s.Valid) {r : Routine μ} (hr : r ∈ s.routines) :
    r.pc.closes s.connections.length = false := by
  rw [← Bool.not_eq_true]
  intro hcloses
  have htarget : r.pc.target = some s.connections.length := by
    cases hpc : r.pc <;> rw [hpc] at hcloses <;>
      first | exact congrArg some (eq_of_beq hcloses) | cases hcloses
  exact absurd (h.routines r hr _ htarget) (Nat.lt_irrefl _)

/-- When `stop` drops the connection, its token goes to the routine that tells about it. -/
theorem held_le_of_stopClose {s t : Client μ} {i c : Nat} {r : Routine μ}
    (hr : s.routines[i]? = some r) (hpc : r.pc = .stopClose) (hconnection : s.connection = some c)
    (hnone : t.connection = none) :
    (t.withRoutines (s.routines.set i { r with pc := .stopCancel })).held ≤
      s.held + s.closing c := by
  obtain ⟨rest, hheld, hset⟩ :=
    List.exists_sum_map_set (fun r : Routine μ => r.pc.holds s.connection) hr
  obtain ⟨others, hclosing, hclosing'⟩ :=
    List.exists_sum_map_set (fun r : Routine μ => (r.pc.closes c).toNat) hr
  have hsum : (t.withRoutines (s.routines.set i { r with pc := .stopCancel })).held ≤
      ((s.routines.set i { r with pc := .stopCancel }).map fun x =>
        x.pc.holds s.connection + (x.pc.closes c).toNat).sum := by
    show ((s.routines.set i _).map fun r => r.pc.holds t.connection).sum ≤ _
    rw [hnone, hconnection]
    exact List.sum_le_sum fun x _ => Pc.holds_some x.pc c
  rw [List.sum_map_add, hset, hclosing'] at hsum
  change s.held = r.pc.holds s.connection + rest at hheld
  rw [hheld, closing, hclosing, hpc]
  exact hsum

/-- A routine passes the token on; only after `stop` it may drop it. -/
theorem OneToken.advance {s t : Client μ} {i : Nat} {r r' : Routine μ} (h : s.OneToken)
    (honce : s.closedBy.Nodup) (hr : s.routines[i]? = some r) (hadvances : Advances s r t r')
    {s' : Client μ} (hs' : s' = t.withRoutines (s.routines.set i r')) :
    s'.isStopped = true ∧ s'.attempts + s'.held ≤ s.attempts + s.held ∨
      s'.attempts + s'.held = s.attempts + s.held := by
  have hmem : r ∈ s.routines := List.mem_of_getElem? hr
  have hatMost := h.atMost
  obtain ⟨rest, hheld, hset⟩ :=
    List.exists_sum_map_set (fun r : Routine μ => r.pc.holds s.connection) hr
  change s.held = r.pc.holds s.connection + rest at hheld
  have hheld' {t : Client μ} {r' : Routine μ}
      (hsame : ∀ x ∈ s.routines.set i r', x.pc.holds t.connection = x.pc.holds s.connection) :
      (t.withRoutines (s.routines.set i r')).held = r'.pc.holds s.connection + rest := by
    rw [← hset, ← List.map_congr_left hsame]
    rfl
  have hkeep {t : Client μ} {r' : Routine μ} (hs' : s' = t.withRoutines (s.routines.set i r'))
      (hconnection : t.connection = s.connection)
      (hpass : t.isStopped = true ∧
          t.attempts + r'.pc.holds s.connection ≤ s.attempts + r.pc.holds s.connection ∨
        t.attempts + r'.pc.holds s.connection = s.attempts + r.pc.holds s.connection) :
      s'.isStopped = true ∧ s'.attempts + s'.held ≤ s.attempts + s.held ∨
        s'.attempts + s'.held = s.attempts + s.held := by
    have hafter : s'.held = r'.pc.holds s.connection + rest := by
      rw [hs', hheld' fun x _ => by rw [hconnection]]
    have hattempts : s'.attempts = t.attempts := by rw [hs']; rfl
    have hstopped : s'.isStopped = t.isStopped := by rw [hs']; rfl
    rw [hafter, hattempts, hstopped, hheld]
    exact hpass.imp (fun ⟨hstop, hle⟩ => ⟨hstop, by omega⟩) fun heq => by omega
  cases hadvances with
  | goes hgoes =>
    -- a handler that finds `is_stopped_` set returns with the token
    have hpass := hgoes.holds fun hrunning c => h.telling hrunning r hmem c
    refine hkeep hs' rfl ?_
    rcases hpass with ⟨hstop, hle⟩ | heq
    · exact .inl ⟨hstop, Nat.add_le_add_left hle _⟩
    · exact .inr (congrArg (s.attempts + ·) heq)
  | @sendPosted c entry hpc =>
    obtain ⟨connections, heq⟩ := s.postTo_eq c (.asyncSendInThread entry)
    rw [heq] at hs'
    refine hkeep hs' rfl (.inr ?_)
    rw [hpc]
    rfl
  | connecting hpc =>
    refine hkeep hs' rfl (.inr ?_)
    rw [hpc]
    simp only [attempts, Pc.holds]
    omega
  | waiting hpc =>
    -- the timer is not armed yet: an armed one would hold a second token
    refine hkeep hs' rfl (.inr ?_)
    rw [hpc] at hheld ⊢
    simp only [attempts, Pc.holds] at hatMost hheld ⊢
    have hfree : s.retryArmed.toNat = 0 := by omega
    rw [hfree, Bool.toNat_true]
    omega
  | stopCancelled hpc =>
    refine hkeep hs' rfl (.inl ⟨h.stopping r hmem (.inr hpc), ?_⟩)
    rw [hpc]
    simp only [attempts, Pc.holds, Bool.toNat_false]
    omega
  | @reset c hpc =>
    have hcloses : r.pc.closes c = true := by rw [hpc]; exact beq_self_eq_true c
    -- the connection is `c`, or nothing: another one would hold a second token
    by_cases hconnection : s.connection = some c
    · have hafter : s'.held = 1 + rest := by
        rw [hs', hheld']
        · rfl
        · intro x hx
          rw [hconnection]
          exact Pc.holds_none (h.closes_eq_false honce hr hcloses rfl x hx)
      have hattempts : s'.attempts + 1 = s.attempts := by
        rw [hs', attempts_of_connection hconnection]
        rfl
      rw [hpc, Pc.holds, if_pos hconnection] at hheld
      exact .inr (by omega)
    · have hnone : s.connection = none := by
        apply h.connection_eq_none hmem
        rw [hpc, Pc.holds, if_neg hconnection]
      refine hkeep hs' hnone.symm (.inr ?_)
      rw [hpc, Pc.holds, Pc.holds, if_neg hconnection, attempts, attempts, hnone]
  | registered hpc =>
    -- nobody tells about the new connection, so nobody's token depends on it
    refine .inr ?_
    have hnone : s.connection = none := by
      apply h.connection_eq_none hmem
      rw [hpc, Pc.holds]
    rw [hpc, Pc.holds] at hheld
    have hafter : s'.held = 0 + rest := by
      rw [hs', hheld']
      · rfl
      · intro x hx
        rw [hnone]
        refine (Pc.holds_none ?_).symm
        rcases List.mem_or_eq_of_mem_set hx with hx | rfl
        · exact h.valid.closes_eq_false hx
        · rfl
    have hattempts : s'.attempts = s.attempts + 1 := by
      rw [hs']
      show s.connecting + s.retryArmed.toNat + 1 = s.attempts + 1
      rw [attempts, hnone]
      rfl
    omega
  | @stopClosed c hpc hconnection =>
    obtain ⟨connections, heq⟩ := s.postTo_eq c (.closeInThread {})
    rw [heq] at hs'
    refine .inl ⟨?_, ?_⟩
    · rw [hs']
      exact h.stopping r hmem (.inl hpc)
    · -- the connection gives its token to the routine that tells about it, if there is one
      have hle : s'.held ≤ s.held + s.closing c := by
        rw [hs']
        exact held_le_of_stopClose hr hpc hconnection rfl
      have hone : s.closing c ≤ 1 := (h.reported c).trans (List.nodup_iff_count.mp honce c)
      have hattempts : s'.attempts + 1 = s.attempts := by
        rw [hs', attempts_of_connection hconnection]
        rfl
      omega
  | pushed entry hpc | stopped hpc | exchangeWon hpc | sendAccepted hpc | sendDropped hpc
  | popped hpc | storedSent hpc | disconnected hpc =>
    -- neither the attempts nor what the routine holds changes
    refine hkeep hs' rfl (.inr ?_)
    rw [hpc]
    rfl

/-! ## The handlers of the connector -/

theorem Advances.connector {s t : Client μ} {r r' : Routine μ} (h : Advances s r t r') :
    (s.isStopped = true → t.isStopped = true) ∧
      (∀ c, r'.pc = .closedReset c → r.pc = .closedLoad c ∧ s.isStopped = false) ∧
      (∀ c, r'.pc ≠ .closedLoad c) ∧
      (r'.pc = .stopClose ∨ r'.pc = .stopCancel → t.isStopped = true ∨ r.pc = .stopClose) := by
  cases h with
  | goes hgoes =>
    refine ⟨id, fun c hc => ?_, fun c hc => ?_, fun hc => ?_⟩ <;> simp only at hc <;>
      generalize r.pc = pc at hgoes ⊢
    · cases hgoes <;> cases hc
      exact ⟨rfl, ‹_›⟩
    · cases hgoes <;> cases hc
    · cases hgoes <;> simp at hc
      exact .inr rfl
  | @sendPosted c entry hpc =>
    obtain ⟨connections, heq⟩ := s.postTo_eq c (.asyncSendInThread entry)
    rw [heq]
    exact ⟨id, nofun, nofun, by simp⟩
  | @stopClosed c hpc hconnection =>
    obtain ⟨connections, heq⟩ := s.postTo_eq c (.closeInThread {})
    rw [heq]
    exact ⟨id, nofun, nofun, fun _ => .inr hpc⟩
  | stopped => exact ⟨fun _ => rfl, nofun, nofun, fun _ => .inl rfl⟩
  | _ => exact ⟨id, nofun, nofun, by simp⟩

/-- What can happen to the registered connection. -/
inductive ConnectionChange (s : Client μ) (r r' : Routine μ) (t : Client μ) : Prop where
  | same (hconnection : t.connection = s.connection)
      (hlength : t.connections.length = s.connections.length)
  | reset (c : Nat) (hpc : r.pc = .closedReset c) (hpc' : r'.pc = .handleDisconnection)
      (hlength : t.connections.length = s.connections.length)
  | registered (hpc : r.pc = .connectionRegister) (hpc' : r'.pc = .loadSending)
      (hconnection : t.connection = some s.connections.length)
      (hlength : t.connections.length = s.connections.length + 1)
  | stopClosed (hpc : r.pc = .stopClose)

theorem Advances.connectionChange {s t : Client μ} {r r' : Routine μ} (h : Advances s r t r') :
    ConnectionChange s r r' t := by
  cases h with
  | @sendPosted c entry hpc =>
    refine .same ?_ (length_postTo _ _ _)
    obtain ⟨connections, heq⟩ := s.postTo_eq c (.asyncSendInThread entry)
    rw [heq]
  | reset hpc => exact .reset _ hpc rfl rfl
  | registered hpc =>
    refine .registered hpc rfl rfl ?_
    rw [List.length_append, List.length_singleton]
  | stopClosed hpc => exact .stopClosed hpc
  | _ => exact .same rfl rfl

/-- No step of a routine begins to tell about a connection. -/
theorem Advances.closes {s t : Client μ} {r r' : Routine μ} (h : Advances s r t r') {c : Nat}
    (hcloses : r'.pc.closes c = true) : r.pc.closes c = true := by
  obtain ⟨-, hresets, htells, -⟩ := h.connector
  cases hpc : r'.pc with
  | closedLoad c' => exact absurd hpc (htells c')
  | closedReset c' =>
    rw [hpc] at hcloses
    obtain rfl : c' = c := eq_of_beq hcloses
    rw [(hresets c' hpc).1]
    exact beq_self_eq_true c'
  | _ =>
    rw [hpc] at hcloses
    cases hcloses

/-- While a routine tells about the registered connection, no other one drops it before `stop`. -/
theorem OneToken.connection_kept {s t : Client μ} {i : Nat} {r r' : Routine μ} (h : s.OneToken)
    (honce : s.closedBy.Nodup) (hr : s.routines[i]? = some r) (hadvances : Advances s r t r')
    {c : Nat} (hconnection : s.connection = some c) {x : Routine μ}
    (hx : x ∈ s.routines.set i r') (hcloses : x.pc.closes c = true) :
    t.connection = some c ∨ t.isStopped = true := by
  have hmem : r ∈ s.routines := List.mem_of_getElem? hr
  have hstopped := hadvances.connector.1
  cases hadvances.connectionChange with
  | same hsame => exact .inl (hsame.trans hconnection)
  | reset c' hpc hpc' =>
    rcases h.resetting r hmem c' hpc with hconnection' | hstop
    · -- two routines would tell about `c`
      rw [hconnection, Option.some.injEq] at hconnection'
      subst hconnection'
      have hfalse := h.closes_eq_false honce hr (c := c) (by rw [hpc]; exact beq_self_eq_true c)
        (by rw [hpc']; rfl) x hx
      rw [hcloses] at hfalse
      cases hfalse
    · exact .inr (hstopped hstop)
  | registered hpc =>
    rw [h.connection_eq_none hmem (by rw [hpc]; rfl)] at hconnection
    cases hconnection
  | stopClosed hpc => exact .inr (hstopped (h.stopping r hmem (.inl hpc)))

theorem OneToken.routine {s t : Client μ} {i : Nat} {r r' : Routine μ} (h : s.OneToken)
    (honce : s.closedBy.Nodup) (hr : s.routines[i]? = some r) (hadvances : Advances s r t r')
    (hvalid : (t.withRoutines (s.routines.set i r')).Valid) :
    (t.withRoutines (s.routines.set i r')).OneToken := by
  have hmem : r ∈ s.routines := List.mem_of_getElem? hr
  have htoken := h.advance honce hr hadvances rfl
  have hclosedBy : t.closedBy = s.closedBy := hadvances.valid.2.1
  have hchange := hadvances.connectionChange
  obtain ⟨hstopped, hresets, htells, hstops⟩ := hadvances.connector
  have hrunning (hnow : t.isStopped = false) : s.isStopped = false := by
    cases hbefore : s.isStopped with
    | false => rfl
    | true =>
      rw [hstopped hbefore] at hnow
      cases hnow
  have hmem_set {x : Routine μ} (hx : x ∈ s.routines.set i r') : x ∈ s.routines ∨ x = r' :=
    List.mem_or_eq_of_mem_set hx
  refine ⟨hvalid, ?_, fun hnow => ?_, fun x hx c hpc => ?_, fun hnow x hx c hpc => ?_,
    fun hnow c hc hnot => ?_, fun c => ?_, fun x hx hpc => ?_⟩
  · -- the step passes the token on, or drops it after `stop`
    have hatMost := h.atMost
    rcases htoken with ⟨-, hle⟩ | heq <;> omega
  · have hexactly := h.exactly (hrunning hnow)
    rcases htoken with ⟨hstop, -⟩ | heq
    · rw [show _ = false from hnow] at hstop
      cases hstop
    · omega
  · -- a routine that is about to drop `c`: only the one that tells about `c` could drop it before
    show t.connection = some c ∨ t.isStopped = true
    have hcloses : x.pc.closes c = true := by rw [hpc]; exact beq_self_eq_true c
    rcases hmem_set hx with hx' | rfl
    · rcases h.resetting x hx' c hpc with hconnection | hstop
      · exact h.connection_kept honce hr hadvances hconnection hx hcloses
      · exact .inr (hstopped hstop)
    · -- the routine has just found that the connector is not stopped
      obtain ⟨hload, hrun⟩ := hresets c hpc
      exact h.connection_kept honce hr hadvances (h.telling hrun r hmem c hload) hx hcloses
  · -- a routine that has not looked at `is_stopped_` yet
    show t.connection = some c
    rcases hmem_set hx with hx' | rfl
    · have hconnection := h.telling (hrunning hnow) x hx' c hpc
      have hcloses : x.pc.closes c = true := by rw [hpc]; exact beq_self_eq_true c
      apply (h.connection_kept honce hr hadvances hconnection hx hcloses).resolve_right
      rw [show t.isStopped = false from hnow]
      exact Bool.false_ne_true
    · exact absurd hpc (htells c)
  · -- a connection that has not reported: it is registered from its start on
    show t.connection = some c
    have hrun := hrunning hnow
    have hnot : c ∉ s.closedBy := hclosedBy ▸ hnot
    change c < t.connections.length at hc
    cases hchange with
    | same hsame hlength => exact hsame.trans (h.unreported hrun c (hlength ▸ hc) hnot)
    | reset c' hpc₁ _ hlength =>
      have hconnection := h.unreported hrun c (hlength ▸ hc) hnot
      have hconnection' := (h.resetting r hmem c' hpc₁).resolve_right (by rw [hrun]; nofun)
      rw [hconnection, Option.some.injEq] at hconnection'
      subst hconnection'
      exact absurd (h.closing_eq_one honce hmem (by rw [hpc₁]; exact beq_self_eq_true c)).2 hnot
    | registered hpc₁ _ hnew hlength =>
      have hnone := h.connection_eq_none hmem (by rw [hpc₁]; rfl)
      by_cases hold : c < s.connections.length
      · rw [h.unreported hrun c hold hnot] at hnone
        cases hnone
      · rw [hnew, show s.connections.length = c by omega]
    | stopClosed hpc₁ =>
      rw [h.stopping r hmem (.inl hpc₁)] at hrun
      cases hrun
  · obtain ⟨rest, hclosing, hset⟩ :=
      List.exists_sum_map_set (fun r : Routine μ => (r.pc.closes c).toNat) hr
    have hreported := h.reported c
    rw [closing, hclosing] at hreported
    show ((s.routines.set i r').map fun r => (r.pc.closes c).toNat).sum ≤ t.closedBy.count c
    rw [hset, hclosedBy]
    cases hcloses : r'.pc.closes c with
    | false =>
      rw [Bool.toNat_false]
      omega
    | true =>
      rw [hadvances.closes hcloses] at hreported
      exact hreported
  · show t.isStopped = true
    rcases hmem_set hx with hx' | rfl
    · exact hstopped (h.stopping x hx' hpc)
    · rcases hstops hpc with hnow | hbefore
      · exact hnow
      · exact hstopped (h.stopping r hmem (.inl hbefore))

/-- A new routine brings the token that its start has taken, and tells only about a connection that
has just reported. -/
theorem OneToken.append {s t : Client μ} {x : Routine μ} (h : s.OneToken) (hvalid : t.Valid)
    (hroutines : t.routines = s.routines ++ [x]) (hconnection : t.connection = s.connection)
    (hlength : t.connections.length = s.connections.length) (hstopped : t.isStopped = s.isStopped)
    (hattempts : t.attempts + x.pc.holds s.connection = s.attempts)
    (hreset : ∀ c, x.pc ≠ .closedReset c) (hstop : ¬ (x.pc = .stopClose ∨ x.pc = .stopCancel))
    (htell : s.isStopped = false → ∀ c, x.pc = .closedLoad c → s.connection = some c)
    (hclosedBy : s.closedBy ⊆ t.closedBy)
    (hreported : ∀ c, s.closedBy.count c + (x.pc.closes c).toNat ≤ t.closedBy.count c) :
    t.OneToken := by
  have hheld : t.held = s.held + x.pc.holds s.connection := by
    simp only [held, hroutines, hconnection, List.map_append, List.sum_append, List.map_cons,
      List.map_nil, List.sum_singleton]
  have hclosing (c : Nat) : t.closing c = s.closing c + (x.pc.closes c).toNat := by
    simp only [closing, hroutines, List.map_append, List.sum_append, List.map_cons, List.map_nil,
      List.sum_singleton]
  have hmem {y : Routine μ} (hy : y ∈ t.routines) : y ∈ s.routines ∨ y = x := by
    simpa only [hroutines, List.mem_append, List.mem_singleton] using hy
  refine ⟨hvalid, ?_, fun hnow => ?_, fun y hy c hpc => ?_, fun hnow y hy c hpc => ?_,
    fun hnow c hc hnot => ?_, fun c => ?_, fun y hy hpc => ?_⟩
  · have hatMost := h.atMost
    omega
  · have hexactly := h.exactly (hstopped ▸ hnow)
    omega
  · rw [hconnection, hstopped]
    rcases hmem hy with hy | rfl
    · exact h.resetting y hy c hpc
    · exact absurd hpc (hreset c)
  · rw [hconnection]
    rcases hmem hy with hy | rfl
    · exact h.telling (hstopped ▸ hnow) y hy c hpc
    · exact htell (hstopped ▸ hnow) c hpc
  · rw [hconnection]
    exact h.unreported (hstopped ▸ hnow) c (hlength ▸ hc) fun hmem => hnot (hclosedBy hmem)
  · have hbefore := h.reported c
    have hafter := hreported c
    rw [hclosing]
    omega
  · rw [hstopped]
    rcases hmem hy with hy | rfl
    · exact h.stopping y hy hpc
    · exact absurd hpc hstop

theorem OneToken.context {p : MessageParser ω} {s : Client μ} {c : Nat} {k : Connection (Entry μ)}
    {e : Connection.Event} {r : Handled ω (Entry μ)} (h : s.OneToken)
    (hk : s.connections[c]? = some k) (hhandles : Connection.Handles p k e r)
    (honce : (s.deliver c r).closedBy.Nodup) (hvalid : (s.deliver c r).Valid) :
    (s.deliver c r).OneToken := by
  have hc : c < s.connections.length := (List.getElem?_eq_some_iff.mp hk).1
  have hdelivers := delivers s c hhandles
  generalize s.deliver c r = t at honce hvalid hdelivers ⊢
  cases hdelivers with
  | silent =>
    refine ⟨hvalid, h.atMost, h.exactly, h.resetting, h.telling, fun hnow c' hc' => ?_, h.reported,
      h.stopping⟩
    exact h.unreported hnow c' (List.length_set ▸ hc')
  | closed =>
    have hnot : c ∉ s.closedBy := by
      intro hmem
      exact (List.nodup_append.mp honce).2.2 c hmem c (List.mem_singleton_self c) rfl
    refine h.append hvalid rfl rfl List.length_set rfl rfl nofun (by simp) (fun hnow c' heq => ?_)
      (List.subset_append_left _ _) fun c' => ?_
    · cases heq
      exact h.unreported hnow c hc hnot
    · rw [List.count_append, List.count_singleton]
      show _ + (c == c').toNat ≤ _ + (if c == c' then 1 else 0)
      cases c == c' <;> exact Nat.le_refl _
  | sent entry =>
    exact h.append hvalid rfl rfl List.length_set rfl rfl nofun (by simp) nofun (fun _ => id)
      fun _ => Nat.le_refl _

theorem OneToken.spawn {s t : Client μ} {pc : Pc μ} (h : s.OneToken) (hvalid : (t.spawn pc).Valid)
    (hroutines : t.routines = s.routines) (hconnection : t.connection = s.connection)
    (hconnections : t.connections = s.connections) (hstopped : t.isStopped = s.isStopped)
    (hclosedBy : t.closedBy = s.closedBy)
    (hattempts : t.attempts + pc.holds s.connection = s.attempts) (hstart : pc.isStart = true) :
    (t.spawn pc).OneToken := by
  have hcloses (c : Nat) : pc.closes c = false := by
    cases pc <;> first | rfl | cases hstart
  refine h.append hvalid (congrArg (· ++ _) hroutines) hconnection (congrArg _ hconnections)
    hstopped hattempts (fun c heq => ?_) ?_ (fun _ c heq => ?_) (fun c hc => hclosedBy ▸ hc)
    fun c => ?_
  · rw [show pc = _ from heq] at hstart
    cases hstart
  · rintro (heq | heq)
    · rw [show pc = _ from heq] at hstart
      cases hstart
    · rw [show pc = _ from heq] at hstart
      cases hstart
  · rw [show pc = _ from heq] at hstart
    cases hstart
  · show _ + (pc.closes c).toNat ≤ t.closedBy.count c
    rw [hcloses, hclosedBy]
    exact Nat.le_refl _

theorem OneToken.step {p : MessageParser ω} {s s' : Client μ} {a : ClientAction μ} (h : s.OneToken)
    (honce : s'.closedBy.Nodup) (hsteps : Steps p s a s') : s'.OneToken := by
  have hvalid : s'.Valid := valid_step h.valid hsteps
  cases hsteps with
  | send => exact h.spawn hvalid rfl rfl rfl rfl rfl rfl rfl
  | stop => exact h.spawn hvalid rfl rfl rfl rfl rfl rfl rfl
  | routine hr hadvances =>
    have hbefore : s.closedBy.Nodup := by
      rw [← hadvances.valid.2.1]
      exact honce
    exact h.routine hbefore hr hadvances hvalid
  | connected hconnecting =>
    refine h.spawn hvalid rfl rfl rfl rfl rfl ?_ rfl
    simp only [attempts, Pc.holds]
    omega
  | connectFailed hconnecting =>
    refine h.spawn hvalid rfl rfl rfl rfl rfl ?_ rfl
    simp only [attempts, Pc.holds]
    omega
  | retryExpired harmed =>
    refine h.spawn hvalid rfl rfl rfl rfl rfl ?_ rfl
    simp only [attempts, Pc.holds, harmed, Bool.toNat_false, Bool.toNat_true]
    omega
  | context hthrown hk hhandles => exact h.context hk hhandles honce hvalid

theorem closedBy_isPrefix {p : MessageParser ω} {s s' : Client μ} {a : ClientAction μ}
    (hsteps : Steps p s a s') : s.closedBy <+: s'.closedBy := by
  cases hsteps with
  | routine hr hadvances =>
    show s.closedBy <+: _
    rw [← hadvances.valid.2.1]
    exact List.prefix_rfl
  | context => exact List.prefix_append _ _
  | _ => exact List.prefix_rfl

theorem nodup_closedBy {p : MessageParser ω} {s s' : Client μ} {a : ClientAction μ}
    (h : s'.closedBy.Nodup) (hsteps : Steps p s a s') : s.closedBy.Nodup :=
  h.sublist (closedBy_isPrefix hsteps).sublist

/-- Between the handlers nothing but the attempts holds the token. -/
theorem BetweenHandlers.held {s : Client μ} (h : s.BetweenHandlers) : s.held = 0 := by
  rw [Client.held, List.sum_eq_zero_iff_forall_eq_nat]
  intro n hn
  obtain ⟨r, hr, rfl⟩ := List.mem_map.mp hn
  exact Pc.holds_eq_zero (h r hr) s.connection

end Client

/-- If every connection tells at most once that it is closed, there is at most one connect attempt
in flight, armed retry timer or registered connection, and exactly one between the handlers until
the connector is stopped. -/
theorem one_attempt (p : MessageParser ω) (schedule : List (ClientAction μ)) (s : Client μ)
    (hrun : (clientMachine p μ).run {} schedule = some s) (honce : s.closedBy.Nodup) :
    s.attempts ≤ 1 ∧ (s.isStopped = false → s.BetweenHandlers → s.attempts = 1) := by
  have hback : ∀ s a s', (clientMachine p μ).step s a = some s' → s'.closedBy.Nodup →
      s.closedBy.Nodup :=
    fun _ _ _ hstep hnodup => Client.nodup_closedBy hnodup (Client.steps_of_step hstep)
  have hkeep : ∀ s a s', s.OneToken → s'.closedBy.Nodup → (clientMachine p μ).step s a = some s' →
      s'.OneToken := by
    intro s a s' h hnodup hstep
    exact h.step hnodup (Client.steps_of_step hstep)
  have hmeets := Machine.meets_of_holds_after hback hrun honce
  have h := Machine.run_invariant hkeep Client.oneToken_init hmeets hrun
  have hatMost := h.atMost
  refine ⟨by omega, fun hrunning hbetween => ?_⟩
  have hexactly := h.exactly hrunning
  rw [hbetween.held] at hexactly
  exact hexactly

/-- The first connection reports EOF, the attempt to replace it fails, and the retry succeeds. -/
def reconnectedSchedule : List (ClientAction Nat) :=
  List.flatten [[.connected], List.replicate 5 (.routine 0),
    [.context 0 (.task 0 {}), .context 0 (.read 0 (some .eof) [] {})],
    List.replicate 4 (.routine 1),
    [.connectFailed, .routine 2, .routine 2, .retryExpired, .routine 3],
    [.connected], List.replicate 5 (.routine 4)]

theorem one_attempt_reconnectedSchedule :
    ∃ s, (clientMachine (idleParser Nat) Nat).run {} reconnectedSchedule = some s ∧
      s.closedBy = [0] ∧ s.connection = some 1 ∧
      s.attempts ≤ 1 ∧ (s.isStopped = false → s.BetweenHandlers → s.attempts = 1) := by
  have hrun : ((clientMachine (idleParser Nat) Nat).run {} reconnectedSchedule).map
      (fun s => (s.closedBy, s.connection)) = some ([0], some 1) := by decide
  obtain ⟨s, hs, hobserved⟩ := Option.map_eq_some_iff.mp hrun
  obtain ⟨hclosedBy, hconnection⟩ := Prod.mk.inj hobserved
  have honce : s.closedBy.Nodup := by rw [hclosedBy]; decide
  exact ⟨s, hs, hclosedBy, hconnection,
    one_attempt (idleParser Nat) reconnectedSchedule s hs honce⟩

end MsgpackRpc.Clients
