import MsgpackRpc.Common.Status
import MsgpackRpc.Lib.Machine
import MsgpackRpc.Lib.SignedOverflow
import Mathlib.Algebra.Order.Ring.Int

/-!
# The timer for reconnecting

`ReconnectionTimer` doubles the time between attempts to connect until a maximum, and adds a random
jitter to it.  Durations are 64-bit integers whose operations wrap around; the closed form of a wait
is about the integers that they stand for.
-/

namespace MsgpackRpc.Clients

open SignedOverflow (Fits)

theorem pos_of_not_le {value : Int64} (h : ¬ value ≤ 0) : 0 < value := Int64.not_le.mp h

structure ReconnectionConfig where
  initialWaitingTime : Int64 := 125000000
  maxWaitingTime : Int64 := 32000000000
  maxJitterWaitingTime : Int64 := 125000000
  initial_pos : 0 < initialWaitingTime := by decide
  max_pos : 0 < maxWaitingTime := by decide
  jitter_nonneg : 0 ≤ maxJitterWaitingTime := by decide

namespace ReconnectionConfig

def setInitialWaitingTime (config : ReconnectionConfig) (value : Int64) :
    Except Status ReconnectionConfig :=
  if h : value ≤ 0 then
    .error (.create .invalidArgument (text "Waiting time must be larger than zero."))
  else .ok { config with initialWaitingTime := value, initial_pos := pos_of_not_le h }

def setMaxWaitingTime (config : ReconnectionConfig) (value : Int64) :
    Except Status ReconnectionConfig :=
  if h : value ≤ 0 then
    .error (.create .invalidArgument (text "Waiting time must be larger than zero."))
  else .ok { config with maxWaitingTime := value, max_pos := pos_of_not_le h }

def setMaxJitterWaitingTime (config : ReconnectionConfig) (value : Int64) :
    Except Status ReconnectionConfig :=
  if h : value < 0 then
    .error (.create .invalidArgument (text "Jitter must be larger than or equal to zero."))
  else .ok { config with maxJitterWaitingTime := value, jitter_nonneg := Int64.not_lt.mp h }

/-- Every configuration is what the setters make of the default one. -/
theorem set_default (config : ReconnectionConfig) :
    ((setInitialWaitingTime {} config.initialWaitingTime).bind fun c =>
      (c.setMaxWaitingTime config.maxWaitingTime).bind fun c =>
        c.setMaxJitterWaitingTime config.maxJitterWaitingTime) = .ok config := by
  rw [setInitialWaitingTime, dif_neg (Int64.not_le.mpr config.initial_pos), Except.bind,
    setMaxWaitingTime, dif_neg (Int64.not_le.mpr config.max_pos), Except.bind,
    setMaxJitterWaitingTime, dif_neg (Int64.not_lt.mpr config.jitter_nonneg)]

end ReconnectionConfig

/-- `jitter_time_dist_` draws from 0 to `maxJitterWaitingTime`. -/
structure ReconnectionTimer where
  initialWaitingTime : Int64
  maxWaitingTime : Int64
  maxJitterWaitingTime : Int64
  nextWaitTimeWithoutJitter : Int64
  initial_pos : 0 < initialWaitingTime
  initial_le_max : initialWaitingTime ≤ maxWaitingTime
  jitter_nonneg : 0 ≤ maxJitterWaitingTime

namespace ReconnectionTimer

/-- The constructor. -/
def create (config : ReconnectionConfig) : Except Status ReconnectionTimer :=
  if h : config.maxWaitingTime < config.initialWaitingTime then
    .error (.create .invalidArgument (text
      "The maximum waiting time must be longer than of equal to the initial waiting time."))
  else
    .ok {
      initialWaitingTime := config.initialWaitingTime
      maxWaitingTime := config.maxWaitingTime
      maxJitterWaitingTime := config.maxJitterWaitingTime
      nextWaitTimeWithoutJitter := config.initialWaitingTime
      initial_pos := config.initial_pos
      initial_le_max := Int64.not_lt.mp h
      jitter_nonneg := config.jitter_nonneg }

/-- The waiting time for a draw of the jitter, and the timer afterwards. -/
def computeWaitingTime (timer : ReconnectionTimer) (jitter : Int64) : Int64 × ReconnectionTimer :=
  let waitTime := timer.nextWaitTimeWithoutJitter + jitter
  let doubled := timer.nextWaitTimeWithoutJitter * 2
  let next := if doubled > timer.maxWaitingTime then timer.maxWaitingTime else doubled
  (waitTime, { timer with nextWaitTimeWithoutJitter := next })

def reset (timer : ReconnectionTimer) : ReconnectionTimer :=
  { timer with nextWaitTimeWithoutJitter := timer.initialWaitingTime }

/-- One of the operations of `computeWaitingTime` overflows. -/
def Overflows (timer : ReconnectionTimer) (jitter : Int64) : Prop :=
  ¬ Fits (timer.nextWaitTimeWithoutJitter.toInt + jitter.toInt) ∨
    ¬ Fits (timer.nextWaitTimeWithoutJitter.toInt * 2)

/-- The closed form of the wait after `waited` others. -/
def plainWait (timer : ReconnectionTimer) (waited : Nat) : Int :=
  min (timer.initialWaitingTime.toInt * 2 ^ waited) timer.maxWaitingTime.toInt

end ReconnectionTimer

inductive TimerCall where
  | asyncWait (jitter : Int64)
  | reset
  deriving DecidableEq, Repr

/-- A timer with the durations that it has handed to `async_sleep_for`, and the number of them since
its construction or the last `reset`. -/
structure TimerRun where
  timer : ReconnectionTimer
  waits : List Int64 := []
  waited : Nat := 0

namespace TimerRun

def step (s : TimerRun) : TimerCall → Option TimerRun
  | .asyncWait jitter =>
      if 0 ≤ jitter ∧ jitter ≤ s.timer.maxJitterWaitingTime then
        let (waitTime, timer) := s.timer.computeWaitingTime jitter
        some { timer, waits := s.waits ++ [waitTime], waited := s.waited + 1 }
      else
        none
  | .reset => some { s with timer := s.timer.reset, waited := 0 }

/-- The next wait without its jitter. -/
def plain (s : TimerRun) : Int := s.timer.nextWaitTimeWithoutJitter.toInt

/-- A wait is computed without an overflow, and it is the closed form and the jitter. -/
def WaitsAsConfigured (s : TimerRun) (call : TimerCall) (s' : TimerRun) : Prop :=
  match call with
  | .asyncWait jitter =>
      ¬ s.timer.Overflows jitter ∧
        (∃ waitTime, s'.waits = s.waits ++ [waitTime] ∧
          waitTime.toInt = s.timer.plainWait s.waited + jitter.toInt) ∧
        0 ≤ jitter ∧ jitter ≤ s.timer.maxJitterWaitingTime ∧
        s.timer.initialWaitingTime.toInt ≤ s.plain ∧ s.plain ≤ s.timer.maxWaitingTime.toInt ∧
        s.plain ≤ s'.plain
  | .reset => s'.plain = s.timer.initialWaitingTime.toInt

/-- Twice the closed form, and its sum with the jitter, are less than 2^63. -/
def WaitFits (s : TimerRun) (call : TimerCall) (_ : TimerRun) : Prop :=
  match call with
  | .asyncWait jitter =>
      s.timer.plainWait s.waited * 2 < 2 ^ 63 ∧
        s.timer.plainWait s.waited + jitter.toInt < 2 ^ 63
  | .reset => True

end TimerRun

def timerMachine (timer : ReconnectionTimer) : Machine TimerRun TimerCall where
  init := { timer }
  step := TimerRun.step

namespace ReconnectionTimer

variable (timer : ReconnectionTimer)

theorem initial_toInt_pos : 0 < timer.initialWaitingTime.toInt :=
  Int64.lt_iff_toInt_lt.mp timer.initial_pos

theorem initial_le_max_toInt : timer.initialWaitingTime.toInt ≤ timer.maxWaitingTime.toInt :=
  Int64.le_iff_toInt_le.mp timer.initial_le_max

theorem initial_le_plainWait (waited : Nat) :
    timer.initialWaitingTime.toInt ≤ timer.plainWait waited := by
  apply le_min _ timer.initial_le_max_toInt
  exact le_mul_of_one_le_right timer.initial_toInt_pos.le (one_le_pow₀ (by decide))

theorem plainWait_le_max (waited : Nat) : timer.plainWait waited ≤ timer.maxWaitingTime.toInt :=
  min_le_right ..

theorem plainWait_zero : timer.plainWait 0 = timer.initialWaitingTime.toInt := by
  rw [plainWait, pow_zero, mul_one]
  exact min_eq_left timer.initial_le_max_toInt

/-- Doubling before the clamp gives the next closed form. -/
theorem plainWait_succ (waited : Nat) :
    timer.plainWait (waited + 1) = min (timer.plainWait waited * 2) timer.maxWaitingTime.toInt := by
  have hmax := timer.initial_le_max_toInt
  have hinitial := timer.initial_toInt_pos
  unfold plainWait
  rw [pow_succ, ← mul_assoc]
  omega

theorem plainWait_le_succ (waited : Nat) :
    timer.plainWait waited ≤ timer.plainWait (waited + 1) := by
  have hinitial := timer.initial_toInt_pos
  have hlower := timer.initial_le_plainWait waited
  have hupper := timer.plainWait_le_max waited
  rw [plainWait_succ]
  omega

/-- Without an overflow, the wait is the exact sum, and the next one the exact double, clamped. -/
theorem computeWaitingTime_of_not_overflows {jitter : Int64} (h : ¬ timer.Overflows jitter) :
    (timer.computeWaitingTime jitter).1.toInt =
        timer.nextWaitTimeWithoutJitter.toInt + jitter.toInt ∧
      (timer.computeWaitingTime jitter).2.nextWaitTimeWithoutJitter.toInt =
        min (timer.nextWaitTimeWithoutJitter.toInt * 2) timer.maxWaitingTime.toInt := by
  rw [Overflows, not_or, not_not, not_not] at h
  refine ⟨(SignedOverflow.toInt_add_eq_iff ..).mpr h.1, ?_⟩
  have hdoubled : (timer.nextWaitTimeWithoutJitter * 2).toInt =
      timer.nextWaitTimeWithoutJitter.toInt * 2 := (SignedOverflow.toInt_mul_eq_iff _ 2).mpr h.2
  simp only [computeWaitingTime, gt_iff_lt, Int64.lt_iff_toInt_lt, hdoubled]
  split <;> omega

end ReconnectionTimer

namespace TimerRun

variable {s s' : TimerRun} {call : TimerCall} {jitter : Int64}

/-- The wait that comes next has its closed form. -/
def Settled (s : TimerRun) : Prop := s.plain = s.timer.plainWait s.waited

theorem overflows_iff (hsettled : s.Settled) (hjitter : 0 ≤ jitter) :
    ¬ s.timer.Overflows jitter ↔ s.WaitFits (.asyncWait jitter) s' := by
  have hpos := s.timer.initial_toInt_pos
  have hlower := s.timer.initial_le_plainWait s.waited
  have hjitter : 0 ≤ jitter.toInt := Int64.le_iff_toInt_le.mp hjitter
  rw [Settled, plain] at hsettled
  simp only [ReconnectionTimer.Overflows, WaitFits, Fits, hsettled]
  omega

/-- What a step does in a state whose next wait has its closed form. -/
theorem step_settled (hsettled : s.Settled) (hstep : s.step call = some s')
    (hfits : s.WaitFits call s') : s.WaitsAsConfigured call s' ∧ s'.Settled := by
  cases call with
  | asyncWait jitter =>
    obtain ⟨hjitter, hstep⟩ := Option.ite_none_right_eq_some.mp hstep
    cases hstep
    have hexact := (overflows_iff hsettled hjitter.1).mpr hfits
    obtain ⟨hwait, hnext⟩ := s.timer.computeWaitingTime_of_not_overflows hexact
    rw [Settled, plain] at hsettled
    rw [hsettled] at hwait hnext
    rw [← s.timer.plainWait_succ] at hnext
    refine ⟨⟨hexact, ⟨_, rfl, hwait⟩, hjitter.1, hjitter.2, ?_, ?_, ?_⟩, hnext⟩
    · rw [plain, hsettled]
      exact s.timer.initial_le_plainWait s.waited
    · rw [plain, hsettled]
      exact s.timer.plainWait_le_max s.waited
    · calc s.plain = s.timer.plainWait s.waited := hsettled
        _ ≤ s.timer.plainWait (s.waited + 1) := s.timer.plainWait_le_succ s.waited
        _ = _ := hnext.symm
  | reset =>
    cases hstep
    refine ⟨rfl, ?_⟩
    exact (s.timer.reset.plainWait_zero).symm

theorem waitFits_of_waitsAsConfigured (hsettled : s.Settled)
    (hwaits : s.WaitsAsConfigured call s') : s.WaitFits call s' := by
  cases call with
  | asyncWait jitter => exact (overflows_iff hsettled hwaits.2.2.1).mp hwaits.1
  | reset => trivial

end TimerRun

theorem settled_create {config : ReconnectionConfig} {timer : ReconnectionTimer}
    (h : ReconnectionTimer.create config = .ok timer) : TimerRun.Settled { timer } := by
  rw [ReconnectionTimer.create] at h
  split at h
  · cases h
  · cases h
    rw [TimerRun.Settled, ReconnectionTimer.plainWait_zero]
    rfl

theorem waits_as_configured_iff {config : ReconnectionConfig} {timer : ReconnectionTimer}
    (h : ReconnectionTimer.create config = .ok timer) (calls : List TimerCall) :
    (timerMachine timer).Meets TimerRun.WaitsAsConfigured { timer } calls ↔
      (timerMachine timer).Meets TimerRun.WaitFits { timer } calls := by
  have hkeep : ∀ s call s', s.Settled → s.WaitFits call s' →
      (timerMachine timer).step s call = some s' → s'.Settled :=
    fun _ _ _ hsettled hfits hstep => (TimerRun.step_settled hsettled hstep hfits).2
  refine Machine.meets_congr hkeep ?_ (settled_create h)
  intro s call s' hsettled hstep
  constructor
  · intro hwaits
    exact TimerRun.waitFits_of_waitsAsConfigured hsettled hwaits
  · intro hfits
    exact (TimerRun.step_settled hsettled hstep hfits).1

/-- A timer that waits for 1, 2, 3, 3, ... nanoseconds. -/
def shortWaits : ReconnectionConfig where
  initialWaitingTime := 1
  maxWaitingTime := 3
  maxJitterWaitingTime := 1

theorem shortWaits_as_configured :
    ∃ timer, ReconnectionTimer.create shortWaits = .ok timer ∧
      (timerMachine timer).Meets TimerRun.WaitsAsConfigured { timer }
        [.asyncWait 1, .asyncWait 0, .reset, .asyncWait 1] := by
  refine ⟨_, rfl, (@waits_as_configured_iff shortWaits _ rfl _).mpr ?_⟩
  refine ⟨?_, ?_, trivial, ?_, trivial⟩ <;> exact ⟨by decide, by decide⟩

theorem longest_pos : (0 : Int64) < 9223372036854775807 := by decide

theorem jitter_nonneg : (0 : Int64) ≤ 125000000 := by decide

/-- Both waiting times are the longest that an `Int64` can hold. -/
def longestWait : ReconnectionConfig where
  initialWaitingTime := 9223372036854775807
  maxWaitingTime := 9223372036854775807
  initial_pos := longest_pos
  max_pos := longest_pos
  jitter_nonneg := jitter_nonneg

theorem longest_wait_overflows :
    ¬ ∀ (config : ReconnectionConfig) (timer : ReconnectionTimer),
      ReconnectionTimer.create config = .ok timer → ∀ calls,
        (timerMachine timer).Meets TimerRun.WaitsAsConfigured { timer } calls := by
  intro h
  have hfirst := (h longestWait _ rfl [.asyncWait 0]).1.1
  apply hfirst
  exact .inr (by decide)

/-! ## Configurations whose timers never overflow -/

/-- No call changes what the configuration has set. -/
structure SameSettings (timer timer' : ReconnectionTimer) : Prop where
  initial : timer'.initialWaitingTime = timer.initialWaitingTime
  max : timer'.maxWaitingTime = timer.maxWaitingTime
  jitter : timer'.maxJitterWaitingTime = timer.maxJitterWaitingTime

theorem sameSettings_step {s s' : TimerRun} {call : TimerCall} (h : s.step call = some s') :
    SameSettings s.timer s'.timer := by
  cases call with
  | asyncWait jitter =>
    obtain ⟨-, h⟩ := Option.ite_none_right_eq_some.mp h
    cases h
    exact ⟨rfl, rfl, rfl⟩
  | reset =>
    cases h
    exact ⟨rfl, rfl, rfl⟩

theorem sameSettings_run {timer : ReconnectionTimer} {calls : List TimerCall} {s : TimerRun}
    (h : (timerMachine timer).run { timer } calls = some s) : SameSettings timer s.timer := by
  have hkeep : ∀ s call s', SameSettings timer s.timer →
      (timerMachine timer).step s call = some s' → SameSettings timer s'.timer := by
    intro s call s' hsame hstep
    have hnext := sameSettings_step hstep
    exact ⟨hnext.initial.trans hsame.initial, hnext.max.trans hsame.max,
      hnext.jitter.trans hsame.jitter⟩
  exact Machine.run_keeps hkeep ⟨rfl, rfl, rfl⟩ h

theorem run_waits (timer : ReconnectionTimer) (number : Nat) (s : TimerRun) :
    ∃ t, (timerMachine timer).run s (List.replicate number (.asyncWait 0)) = some t ∧
      t.waited = s.waited + number := by
  induction number generalizing s with
  | zero => exact ⟨s, rfl, rfl⟩
  | succ number ih =>
    have hstep : ∃ t, s.step (.asyncWait 0) = some t ∧ t.waited = s.waited + 1 := by
      rw [TimerRun.step, if_pos ⟨Int64.le_refl 0, s.timer.jitter_nonneg⟩]
      exact ⟨_, rfl, rfl⟩
    obtain ⟨t, hstep, hwaited⟩ := hstep
    obtain ⟨t', hrun, hwaited'⟩ := ih t
    refine ⟨t', ?_, ?_⟩
    · rw [List.replicate_succ, Machine.run]
      simp only [timerMachine, hstep, Option.bind_some]
      exact hrun
    · omega

/-- The maximum is reached, since the initial time is at least one nanosecond. -/
theorem plainWait_sixty_three (timer : ReconnectionTimer) :
    timer.plainWait 63 = timer.maxWaitingTime.toInt := by
  have hinitial := timer.initial_toInt_pos
  have hmax := timer.maxWaitingTime.toInt_lt
  apply min_eq_right
  omega

theorem always_waits_as_configured_iff {config : ReconnectionConfig} {timer : ReconnectionTimer}
    (h : ReconnectionTimer.create config = .ok timer) :
    (∀ calls, (timerMachine timer).Meets TimerRun.WaitsAsConfigured { timer } calls) ↔
      timer.maxWaitingTime.toInt * 2 < 2 ^ 63 ∧
        timer.maxWaitingTime.toInt + timer.maxJitterWaitingTime.toInt < 2 ^ 63 := by
  simp only [waits_as_configured_iff h, Machine.meets_iff_forall]
  constructor
  · intro hfits
    obtain ⟨s, hrun, hwaited⟩ := run_waits timer 63 { timer }
    have hsame := sameSettings_run hrun
    have hjitter : timer.maxJitterWaitingTime ≤ s.timer.maxJitterWaitingTime :=
      hsame.jitter ▸ Int64.le_refl _
    have hstep : ∃ s', s.step (.asyncWait timer.maxJitterWaitingTime) = some s' := by
      rw [TimerRun.step, if_pos ⟨timer.jitter_nonneg, hjitter⟩]
      exact ⟨_, rfl⟩
    obtain ⟨s', hstep⟩ := hstep
    have hlast := hfits _ _ (.asyncWait timer.maxJitterWaitingTime) [] s s' rfl hrun hstep
    rw [TimerRun.WaitFits, hwaited, Nat.zero_add, plainWait_sixty_three, hsame.max] at hlast
    exact hlast
  · intro hfits calls before call after s s' _ hrun hstep
    have hsame := sameSettings_run hrun
    cases call with
    | asyncWait jitter =>
      obtain ⟨hjitter, -⟩ := Option.ite_none_right_eq_some.mp hstep
      have hdraw : jitter.toInt ≤ s.timer.maxJitterWaitingTime.toInt :=
        Int64.le_iff_toInt_le.mp hjitter.2
      have hplain := s.timer.plainWait_le_max s.waited
      rw [hsame.jitter] at hdraw
      rw [hsame.max] at hplain
      simp only [TimerRun.WaitFits]
      omega
    | reset => trivial

end MsgpackRpc.Clients
