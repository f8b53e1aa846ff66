import MsgpackRpc.Common.Status
import Mathlib.Data.List.Basic

/-!
# The executor

Two pools of contexts, each context with the thread that runs it.  An exception that leaves a
handler ends its thread, which first records the exception, then interrupts the contexts of both
pools and then calls who registered for exceptions.
-/

namespace MsgpackRpc.Executors

inductive OperationType where
  | transport
  | callback
  deriving DecidableEq, Repr

/-- What a `std::exception_ptr` points to. -/
abbrev ExceptionPtr := Nat

/-- A pool and a position in it. -/
structure ContextId where
  type : OperationType
  index : Nat
  deriving DecidableEq, Repr

/-- Where a thread stands in `run_in_thread`. -/
inductive ThreadPhase where
  | unstarted
  /-- In `context.run()`. -/
  | running
  | caught (exception : ExceptionPtr)
  /-- In `interrupt_threads`, with the contexts that it has still to stop. -/
  | interrupting (exception : ExceptionPtr) (todo : List ContextId)
  /-- Before the loop over the callbacks. -/
  | notifying (exception : ExceptionPtr)
  | finished
  deriving DecidableEq, Repr

structure ContextThreadPair where
  /-- `context.stop()` was called. -/
  stopped : Bool := false
  /-- The work guard is still there. -/
  guarded : Bool := true
  thread : ThreadPhase := .unstarted
  deriving DecidableEq, Repr

/-- The sizes of the pools, which the setters keep positive. -/
structure ExecutorConfig where
  numTransportThreads : Nat := 1
  numCallbackThreads : Nat := 1
  transport_pos : 0 < numTransportThreads := by first | exact Nat.one_pos | decide
  callback_pos : 0 < numCallbackThreads := by first | exact Nat.one_pos | decide

namespace ExecutorConfig

def setNumTransportThreads (config : ExecutorConfig) (value : Nat) :
    Except Status ExecutorConfig :=
  if h : value ≤ 0 then
    .error (.create .invalidArgument (text "Invalid number of transport threads."))
  else .ok { config with numTransportThreads := value, transport_pos := Nat.lt_of_not_le h }

def setNumCallbackThreads (config : ExecutorConfig) (value : Nat) :
    Except Status ExecutorConfig :=
  if h : value ≤ 0 then
    .error (.create .invalidArgument (text "Invalid number of callback threads."))
  else .ok { config with numCallbackThreads := value, callback_pos := Nat.lt_of_not_le h }

/-- Every configuration is what the setters make of the default one. -/
theorem set_default (config : ExecutorConfig) :
    ((setNumTransportThreads {} config.numTransportThreads).bind fun c =>
      c.setNumCallbackThreads config.numCallbackThreads) = .ok config := by
  rw [setNumTransportThreads, dif_neg (Nat.not_le_of_gt config.transport_pos), Except.bind,
    setNumCallbackThreads, dif_neg (Nat.not_le_of_gt config.callback_pos)]

def numThreads (config : ExecutorConfig) : OperationType → Nat
  | .transport => config.numTransportThreads
  | .callback => config.numCallbackThreads

theorem numThreads_pos (config : ExecutorConfig) (type : OperationType) :
    0 < config.numThreads type := by
  cases type with
  | transport => exact config.transport_pos
  | callback => exact config.callback_pos

end ExecutorConfig

structure GeneralExecutor where
  /-- `transport_context_thread_pairs_` and `callbacks_context_thread_pairs_`. -/
  pools : OperationType → List ContextThreadPair
  /-- `transport_context_index_` and `callback_context_index_`. -/
  indexes : OperationType → UInt64 := fun _ => 0
  isStarted : Bool := false
  isStopped : Bool := false
  exceptionInThread : Option ExceptionPtr := none
  /-- How many functions `on_exception` has registered. -/
  exceptionCallbacks : Nat := 0

namespace GeneralExecutor

def create (config : ExecutorConfig) : GeneralExecutor where
  pools type := List.replicate (config.numThreads type) {}

/-! ## Contexts and their threads -/

def pair? (e : GeneralExecutor) (id : ContextId) : Option ContextThreadPair :=
  (e.pools id.type)[id.index]?

def modifyPair (e : GeneralExecutor) (id : ContextId)
    (f : ContextThreadPair → ContextThreadPair) : GeneralExecutor :=
  { e with pools := fun type =>
      if type = id.type then (e.pools type).modify id.index f else e.pools type }

/-- What a loop over both pools does to every element. -/
def mapPairs (e : GeneralExecutor) (f : ContextThreadPair → ContextThreadPair) :
    GeneralExecutor :=
  { e with pools := fun type => (e.pools type).map f }

def setThread (e : GeneralExecutor) (id : ContextId) (phase : ThreadPhase) : GeneralExecutor :=
  e.modifyPair id fun pair => { pair with thread := phase }

/-- `context.stop()` -/
def stopContext (e : GeneralExecutor) (id : ContextId) : GeneralExecutor :=
  e.modifyPair id fun pair => { pair with stopped := true }

def poolIds (e : GeneralExecutor) (type : OperationType) : List ContextId :=
  (List.range (e.pools type).length).map (ContextId.mk type)

/-- The contexts in the order in which the loops visit them. -/
def contexts (e : GeneralExecutor) : List ContextId :=
  e.poolIds .transport ++ e.poolIds .callback

/-! ## What the member functions do, step by step -/

def startThreads (e : GeneralExecutor) : GeneralExecutor :=
  e.mapPairs fun pair => { pair with thread := .running }

def asyncStopThreadsGently (e : GeneralExecutor) : GeneralExecutor :=
  e.mapPairs fun pair => { pair with guarded := false }

/-- Every `join` returns: the thread was not started or has ended. -/
def joined (e : GeneralExecutor) : Bool :=
  [OperationType.transport, .callback].all fun type =>
    (e.pools type).all fun pair => pair.thread = .unstarted ∨ pair.thread = .finished

def clear (e : GeneralExecutor) (type : OperationType) : GeneralExecutor :=
  { e with pools := fun type' => if type' = type then [] else e.pools type' }

def lastException (e : GeneralExecutor) : Option ExceptionPtr := e.exceptionInThread

def onException (e : GeneralExecutor) : GeneralExecutor :=
  { e with exceptionCallbacks := e.exceptionCallbacks + 1 }

def isRunning (e : GeneralExecutor) : Bool :=
  if e.exceptionInThread.isSome then false else e.isStarted && !e.isStopped

/-- `index.fetch_add(1)`, which wraps around. -/
def fetchIndex (e : GeneralExecutor) (type : OperationType) : UInt64 × GeneralExecutor :=
  (e.indexes type,
    { e with indexes := fun type' => if type' = type then e.indexes type + 1 else e.indexes type' })

/-- A handler on the thread throws. -/
def raise (e : GeneralExecutor) (id : ContextId) (exception : ExceptionPtr) :
    Option GeneralExecutor :=
  match e.pair? id with
  | some pair => if pair.thread = .running then some (e.setThread id (.caught exception)) else none
  | none => none

/-- The next step of `run_in_thread`, and the calls of the registered functions that it makes. -/
def runInThread (e : GeneralExecutor) (id : ContextId) :
    Option (GeneralExecutor × List ExceptionPtr) :=
  (e.pair? id).bind fun pair =>
    match pair.thread with
    | .unstarted | .finished => none
    -- a stopped context ends `run`, and so does one without a guard that runs out of work
    | .running =>
        if pair.stopped || !pair.guarded then some (e.setThread id .finished, []) else none
    | .caught exception =>
        some ({ e with exceptionInThread := some exception }.setThread id
          (.interrupting exception e.contexts), [])
    | .interrupting exception (next :: todo) =>
        some ((e.stopContext next).setThread id (.interrupting exception todo), [])
    | .interrupting exception [] => some (e.setThread id (.notifying exception), [])
    | .notifying exception =>
        some (e.setThread id .finished, List.replicate e.exceptionCallbacks exception)

/-! ## Lookups after an update -/

theorem pair?_modifyPair (e : GeneralExecutor) (id id' : ContextId)
    (f : ContextThreadPair → ContextThreadPair) :
    (e.modifyPair id f).pair? id' = if id' = id then (e.pair? id').map f else e.pair? id' := by
  obtain ⟨type, index⟩ := id
  obtain ⟨type', index'⟩ := id'
  simp only [pair?, modifyPair, ContextId.mk.injEq]
  by_cases htype : type' = type
  · rw [if_pos htype, List.getElem?_modify]
    by_cases hindex : index = index'
    · simp [htype, hindex]
    · simp [htype, hindex, Ne.symm hindex]
  · rw [if_neg htype, if_neg fun h => htype h.1]

@[simp] theorem length_pools_modifyPair (e : GeneralExecutor) (id : ContextId)
    (f : ContextThreadPair → ContextThreadPair) (type : OperationType) :
    ((e.modifyPair id f).pools type).length = (e.pools type).length := by
  simp only [modifyPair]
  split
  · exact List.length_modify ..
  · rfl

@[simp] theorem length_pools_mapPairs (e : GeneralExecutor)
    (f : ContextThreadPair → ContextThreadPair) (type : OperationType) :
    ((e.mapPairs f).pools type).length = (e.pools type).length :=
  List.length_map ..

/-- Nothing that a thread does touches the sizes of the pools, the indexes and the flags. -/
structure SameShape (e e' : GeneralExecutor) : Prop where
  pools : ∀ type, (e'.pools type).length = (e.pools type).length
  indexes : e'.indexes = e.indexes
  isStarted : e'.isStarted = e.isStarted
  isStopped : e'.isStopped = e.isStopped
  exceptionCallbacks : e'.exceptionCallbacks = e.exceptionCallbacks

theorem sameShape_modifyPair (e : GeneralExecutor) (id : ContextId)
    (f : ContextThreadPair → ContextThreadPair) : SameShape e (e.modifyPair id f) :=
  ⟨fun type => length_pools_modifyPair e id f type, rfl, rfl, rfl, rfl⟩

theorem SameShape.trans {e e' e'' : GeneralExecutor} (h : SameShape e e')
    (h' : SameShape e' e'') : SameShape e e'' where
  pools type := (h'.pools type).trans (h.pools type)
  indexes := h'.indexes.trans h.indexes
  isStarted := h'.isStarted.trans h.isStarted
  isStopped := h'.isStopped.trans h.isStopped
  exceptionCallbacks := h'.exceptionCallbacks.trans h.exceptionCallbacks

theorem sameShape_raise {e e' : GeneralExecutor} {id : ContextId} {exception : ExceptionPtr}
    (h : e.raise id exception = some e') : SameShape e e' := by
  rw [raise] at h
  split at h
  · obtain ⟨-, h⟩ := Option.ite_none_right_eq_some.mp h
    cases h
    exact sameShape_modifyPair e id _
  · cases h

theorem sameShape_runInThread {e e' : GeneralExecutor} {id : ContextId}
    {calls : List ExceptionPtr} (h : e.runInThread id = some (e', calls)) : SameShape e e' := by
  obtain ⟨pair, -, h⟩ := Option.bind_eq_some_iff.mp h
  split at h
  · cases h
  · cases h
  · obtain ⟨-, h⟩ := Option.ite_none_right_eq_some.mp h
    cases h
    exact sameShape_modifyPair e id _
  · rename_i exception _
    cases h
    have hstored : SameShape e { e with exceptionInThread := some exception } :=
      ⟨fun _ => rfl, rfl, rfl, rfl, rfl⟩
    exact hstored.trans (sameShape_modifyPair _ id _)
  · cases h
    exact (sameShape_modifyPair e _ _).trans (sameShape_modifyPair _ id _)
  · cases h
    exact sameShape_modifyPair e id _
  · cases h
    exact sameShape_modifyPair e id _

end GeneralExecutor

end MsgpackRpc.Executors
