import MsgpackRpc.Common.Status

/-! The states of the background tasks of connections and acceptors. -/

namespace MsgpackRpc.Transport

/-- The value of the atomic `state_`; each function below is one access to it. -/
inductive State where
  | init
  | starting
  | processing
  | stopped
  deriving DecidableEq, Repr

namespace State

/-- The compare-exchange of `handle_start_request`, which throws in every state but `INIT`. -/
def handleStartRequest : State → Except Status State
  | .init => .ok .starting
  | _ => .error (.create .preconditionNotMet (text "Already started."))

/-- An unconditional store: `STOPPED` is overwritten like any other state. -/
def handleProcessingStarted (_ : State) : State := .processing

/-- The exchange of `handle_stop_requested`: the new state, and whether a stop is required. -/
def handleStopRequested (state : State) : State × Bool := (.stopped, state != .stopped)

def handleProcessingStopped (_ : State) : State := .stopped

def isProcessing (state : State) : Bool := state == .processing

theorem handleStartRequest_eq_ok {state next : State} (h : state.handleStartRequest = .ok next) :
    state = .init ∧ next = .starting := by
  cases state <;> simp only [handleStartRequest, Except.ok.injEq, reduceCtorEq] at h
  exact ⟨rfl, h.symm⟩

@[simp] theorem isProcessing_eq_true {state : State} :
    state.isProcessing = true ↔ state = .processing := by
  simp only [isProcessing, beq_iff_eq]

end State

end MsgpackRpc.Transport
