import Mathlib.Algebra.Group.Nat.Defs
import MsgpackRpc.Common.Status

/-!
# Calls and their request IDs

`RequestIDGenerator`, `CallFutureImpl` and `Call`.  A promise is named by the place of its future in
the list of all the futures that have been made.
-/

namespace MsgpackRpc.Clients

/-- `messages::MessageID`, a `std::uint32_t`. -/
abbrev MessageID := UInt32

/-- The ID that a generator starting from `first` generates after `n` others. -/
def requestID (first : MessageID) (n : Nat) : MessageID := first + UInt32.ofNat n

theorem requestID_zero (first : MessageID) : requestID first 0 = first := by
  apply UInt32.toNat.inj
  have hfirst := first.toNat_lt
  simp only [requestID, UInt32.toNat_add, UInt32.toNat_ofNat']
  omega

/-- `next_id_++`. -/
theorem requestID_succ (first : MessageID) (n : Nat) :
    requestID first n + 1 = requestID first (n + 1) := by
  apply UInt32.toNat.inj
  simp only [requestID, UInt32.toNat_add, UInt32.toNat_ofNat', UInt32.toNat_one]
  omega

/-- An ID comes back only after the counter has wrapped around. -/
theorem requestID_ne (first : MessageID) {n m : Nat} (hlt : n < m) (hwindow : m < n + 2 ^ 32) :
    requestID first n ≠ requestID first m := by
  intro heq
  have hnat := congrArg UInt32.toNat heq
  simp only [requestID, UInt32.toNat_add, UInt32.toNat_ofNat'] at hnat
  omega

/-- A generated ID; `seq` counts the IDs generated before it. -/
structure Request where
  seq : Nat
  id : MessageID
  deriving DecidableEq, Repr

/-- `CallFutureImpl` without its deadline and the waiting. -/
structure CallFutureImpl (ρ : Type) where
  result : Option ρ := none
  status : Status := {}
  isSet : Bool := false
  deriving DecidableEq, Repr

namespace CallFutureImpl

variable {ρ : Type}

/-- `set` with a result. -/
def setResult (f : CallFutureImpl ρ) (result : ρ) : CallFutureImpl ρ :=
  if f.isSet then f else { f with result := some result, isSet := true }

/-- `set` with an error, which throws on a success. -/
def setError (f : CallFutureImpl ρ) (error : Status) : Except Status (CallFutureImpl ρ) :=
  if f.isSet then
    .ok f
  else if error.code = .success then
    .error (.create .invalidArgument (text "Invalid error status."))
  else
    .ok { f with status := error, isSet := true }

end CallFutureImpl

/-- The status that `on_timeout` sets. -/
def timeoutStatus : Status :=
  .create .timeout (text "Result of an RPC couldn't be received within a timeout.")

/-- `Call`: its promise, and whether its timer has been started and has not expired. -/
structure Call where
  promise : Nat
  timerArmed : Bool := false
  deriving DecidableEq, Repr

structure ParsedResponse (ρ : Type) where
  id : MessageID
  result : ρ
  deriving DecidableEq, Repr

/-- Who completes a call: a response, or the timer of the call with a promise. -/
inductive Cause (ρ : Type) where
  | response (r : ParsedResponse ρ)
  | timeout (promise : Nat)
  deriving DecidableEq, Repr

/-- The `set` that `handle` and `on_timeout` call. -/
def Cause.set {ρ : Type} (f : CallFutureImpl ρ) : Cause ρ → Except Status (CallFutureImpl ρ)
  | .response r => .ok (f.setResult r.result)
  | .timeout _ => f.setError timeoutStatus

/-- What a call that is completed for the first time holds. -/
def Cause.outcome {ρ : Type} : Cause ρ → CallFutureImpl ρ
  | .response r => { result := some r.result, isSet := true }
  | .timeout _ => { status := timeoutStatus, isSet := true }

theorem Cause.set_new {ρ : Type} (cause : Cause ρ) : cause.set {} = .ok cause.outcome := by
  cases cause <;> rfl

end MsgpackRpc.Clients
