import MsgpackRpc.Common.Status
import MsgpackRpc.Lib.SignedOverflow
import Mathlib.Order.Basic

/-!
# Deadlines of calls

`CallList::create` and `CallFutureImpl::wait_for` add a duration to a reading of the steady clock.
Time points and durations are 64-bit integers whose sum wraps around.
-/

namespace MsgpackRpc.Clients

open SignedOverflow (Fits)

/-- What a client is configured with for its calls. -/
structure ClientConfig where
  callTimeout : Int64 := 15000000000
  callTimeout_pos : 0 < callTimeout := by decide

def ClientConfig.setCallTimeout (_ : ClientConfig) (value : Int64) : Except Status ClientConfig :=
  if h : value ≤ 0 then
    .error (.create .invalidArgument (text "Duration of timeout must be longer than zero."))
  else .ok { callTimeout := value, callTimeout_pos := Int64.not_le.mp h }

/-- Every configuration is what the setter makes of the default one. -/
theorem ClientConfig.set_default (config : ClientConfig) :
    setCallTimeout {} config.callTimeout = .ok config := by
  rw [setCallTimeout, dif_neg (Int64.not_le.mpr config.callTimeout_pos)]

/-- The deadline that `CallList::create` gives to the timer and to the future of a call. -/
def callDeadline (config : ClientConfig) (now : Int64) : Int64 :=
  now + config.callTimeout

/-- How the caller waits for the result. -/
inductive Waiting where
  | getResult
  | getResultWithin (now timeout : Int64)
  deriving DecidableEq, Repr

/-- The deadline that is given to `wait_until_impl`. -/
def waitDeadline (deadline : Int64) : Waiting → Int64
  | .getResult => deadline
  | .getResultWithin now timeout =>
      -- `std::min`
      if deadline < now + timeout then deadline else now + timeout

/-- A timer and a waiting thread that are given the deadline at this time end at once. -/
def expired (deadline now : Int64) : Bool := deadline ≤ now

/-! ## What the caller asks for -/

/-- The last time point of the clock. -/
def clockMax : Int := Int64.maxValue.toInt

/-- The sum of a time point and a duration, or the last time point. -/
def saturatedSum (now duration : Int64) : Int := min (now.toInt + duration.toInt) clockMax

/-- The deadline of a call is the saturated sum, and is not reached when the call is made. -/
def CallWaits (config : ClientConfig) (created : Int64) : Prop :=
  (callDeadline config created).toInt = saturatedSum created config.callTimeout ∧
    (created.toInt < clockMax → expired (callDeadline config created) created = false)

/-- The caller waits until the earlier one of the saturated sum and the deadline of the call, which
is not before now unless the call has expired. -/
def CallerWaits (deadline now timeout : Int64) : Prop :=
  let wait := waitDeadline deadline (.getResultWithin now timeout)
  wait.toInt = min (saturatedSum now timeout) deadline.toInt ∧
    min now.toInt deadline.toInt ≤ wait.toInt ∧
    (0 < timeout → now.toInt < clockMax → expired wait now = true → expired deadline now = true)

/-! ## Sums that fit -/

section Sums

variable {now duration deadline timeout : Int64}

theorem clockMax_eq : clockMax = 2 ^ 63 - 1 := by decide

theorem saturatedSum_eq (h : now.toInt + duration.toInt < 2 ^ 63) :
    saturatedSum now duration = now.toInt + duration.toInt := by
  rw [saturatedSum, clockMax_eq]
  omega

/-- A sum that does not fit is a time point before the epoch of the clock. -/
theorem toInt_sum_neg (h : 2 ^ 63 ≤ now.toInt + duration.toInt) : (now + duration).toInt < 0 := by
  have hnow := now.toInt_lt
  have hduration := duration.toInt_lt
  rw [SignedOverflow.toInt_add_of_le h]
  omega

/-- A sum is the saturated one exactly when it fits. -/
theorem toInt_sum_eq_iff (hnow : 0 ≤ now) (hduration : 0 ≤ duration) :
    (now + duration).toInt = saturatedSum now duration ↔ now.toInt + duration.toInt < 2 ^ 63 := by
  have hnow : 0 ≤ now.toInt := Int64.le_iff_toInt_le.mp hnow
  have hduration : 0 ≤ duration.toInt := Int64.le_iff_toInt_le.mp hduration
  constructor
  · intro h
    by_contra hlarge
    have hwrapped := toInt_sum_neg (Int.not_lt.mp hlarge)
    rw [h, saturatedSum, clockMax_eq] at hwrapped
    omega
  · intro h
    rw [saturatedSum_eq h]
    exact (SignedOverflow.toInt_add_eq_iff now duration).mpr ⟨by omega, h⟩

theorem toInt_waitDeadline :
    (waitDeadline deadline (.getResultWithin now timeout)).toInt =
      min (now + timeout).toInt deadline.toInt := by
  simp only [waitDeadline, Int64.lt_iff_toInt_lt]
  split <;> omega

theorem expired_iff : expired deadline now = true ↔ deadline.toInt ≤ now.toInt := by
  rw [expired, decide_eq_true_iff, Int64.le_iff_toInt_le]

end Sums

theorem callWaits_iff (config : ClientConfig) {created : Int64} (hcreated : 0 ≤ created) :
    CallWaits config created ↔ created.toInt + config.callTimeout.toInt < 2 ^ 63 := by
  have hpos : 0 < config.callTimeout.toInt := Int64.lt_iff_toInt_lt.mp config.callTimeout_pos
  have hsum := toInt_sum_eq_iff hcreated (Int64.le_of_lt config.callTimeout_pos)
  constructor
  · intro h
    exact hsum.mp h.1
  · intro h
    refine ⟨hsum.mpr h, ?_⟩
    intro _
    rw [← Bool.not_eq_true, expired_iff, callDeadline, hsum.mpr h, saturatedSum_eq h]
    omega

theorem callerWaits_iff {deadline now timeout : Int64} (hdeadline : 0 ≤ deadline) (hnow : 0 ≤ now)
    (htimeout : 0 ≤ timeout) :
    CallerWaits deadline now timeout ↔ now.toInt + timeout.toInt < 2 ^ 63 := by
  have hsum := toInt_sum_eq_iff hnow htimeout
  have hdeadline : 0 ≤ deadline.toInt := Int64.le_iff_toInt_le.mp hdeadline
  have htimeout : 0 ≤ timeout.toInt := Int64.le_iff_toInt_le.mp htimeout
  simp only [CallerWaits, toInt_waitDeadline, expired_iff]
  constructor
  · intro ⟨hwait, _⟩
    by_contra hlarge
    have hwrapped := toInt_sum_neg (Int.not_lt.mp hlarge)
    rw [saturatedSum, clockMax_eq] at hwait
    omega
  · intro h
    rw [hsum.mpr h, saturatedSum_eq h, Int64.lt_iff_toInt_lt]
    refine ⟨rfl, ?_, ?_⟩
    · omega
    · intro hpos _ hexpired
      have hpos : 0 < timeout.toInt := hpos
      omega

/-- Both deadlines of a call are what is asked for. -/
def DeadlinesAsAsked (config : ClientConfig) (created now timeout : Int64) : Prop :=
  CallWaits config created ∧ CallerWaits (callDeadline config created) now timeout

theorem deadlines_as_asked_iff (config : ClientConfig) (created now timeout : Int64)
    (hcreated : 0 ≤ created) (hnow : 0 ≤ now) (htimeout : 0 ≤ timeout) :
    DeadlinesAsAsked config created now timeout ↔
      created.toInt + config.callTimeout.toInt < 2 ^ 63 ∧ now.toInt + timeout.toInt < 2 ^ 63 := by
  rw [DeadlinesAsAsked, callWaits_iff config hcreated]
  apply and_congr_right
  intro hfits
  have hdeadline : 0 ≤ callDeadline config created := by
    have hcreated' : 0 ≤ created.toInt := Int64.le_iff_toInt_le.mp hcreated
    have hpos : 0 < config.callTimeout.toInt := Int64.lt_iff_toInt_lt.mp config.callTimeout_pos
    have hsum := ((callWaits_iff config hcreated).mpr hfits).1
    rw [Int64.le_iff_toInt_le, hsum, saturatedSum_eq hfits]
    exact Int.le_of_lt (Int.add_pos_of_nonneg_of_pos hcreated' hpos)
  exact callerWaits_iff hdeadline hnow htimeout

theorem deadlines_as_asked_after_a_second :
    DeadlinesAsAsked {} 1000000000 2000000000 5000000000 :=
  (deadlines_as_asked_iff {} 1000000000 2000000000 5000000000 (by decide) (by decide)
    (by decide)).mpr ⟨by decide, by decide⟩

/-- A client that asks for no timeout. -/
def noTimeout : ClientConfig where
  callTimeout := 9223372036854775807

theorem no_timeout_expires_at_once :
    ¬ ∀ (config : ClientConfig) (created now timeout : Int64), 0 ≤ created → 0 ≤ now → 0 ≤ timeout →
      DeadlinesAsAsked config created now timeout := by
  intro h
  have hcall := (h noTimeout 1 1 0 (by decide) (by decide) (by decide)).1
  have hexpired := hcall.2 (by decide)
  revert hexpired
  decide

end MsgpackRpc.Clients
