import Mathlib.Logic.Function.Basic
import MsgpackRpc.Clients.Call
import MsgpackRpc.Lib.Machine

/-!
# The list of calls

`CallList` with the threads that are inside `create`.  Every section of `mutex_` is one step, and so
are the increment of the generator and each use of the reference into the map.
-/

namespace MsgpackRpc.Clients

/-- A call of `create`: the step that it takes next.  `call`, the reference into the map, is the key
and the promise of the entry that it has emplaced. -/
inductive Create where
  | generate
  | serialize (request : Request)
  | emplace (request : Request)
  | setTimeout (request : Request) (promise : Nat)
  | future (request : Request) (promise : Nat)
  | returned (request : Request) (future : Nat)
  | thrown
  -- `call` has been used after its entry was erased, which has no defined behaviour
  | dangling
  deriving DecidableEq, Repr

/-- The handler of an expired timer, with the ID that it has captured. -/
structure Timeout where
  id : MessageID
  promise : Nat
  deriving DecidableEq, Repr

structure Completion (ρ : Type) where
  promise : Nat
  cause : Cause ρ
  deriving DecidableEq, Repr

/-- The fields after `futures` only record what has happened. -/
structure CallList (ρ : Type) where
  nextId : MessageID
  list : MessageID → Option Call := fun _ => none
  creates : List Create := []
  /-- The handlers of expired timers that are still to run. -/
  timeouts : List Timeout := []
  futures : List (CallFutureImpl ρ) := []
  generated : Nat := 0
  /-- The request of every call that was emplaced, by its promise. -/
  registered : List Request := []
  completions : List (Completion ρ) := []

inductive CallListAction (ρ : Type) where
  | create
  | step (i : Nat)
  /-- `create_serialized_request` throws. -/
  | serializationFails (i : Nat)
  | handle (response : ParsedResponse ρ)
  /-- The deadline of a timer has passed. -/
  | expire (id : MessageID)
  | onTimeout (j : Nat)
  deriving DecidableEq, Repr

namespace CallList

variable {ρ : Type}

def setCreate (s : CallList ρ) (i : Nat) (create : Create) : CallList ρ :=
  { s with creates := s.creates.set i create }

/-- The entry that a reference taken at its emplacement still refers to. -/
def deref (s : CallList ρ) (request : Request) (promise : Nat) : Option Call :=
  (s.list request.id).filter fun call => call.promise == promise

/-- The next step of `create`. -/
def createStep (s : CallList ρ) (i : Nat) : Create → Option (CallList ρ)
  | .generate =>
      let request : Request := { seq := s.generated, id := s.nextId }
      some ({ s with nextId := s.nextId + 1, generated := s.generated + 1 }.setCreate i
        (.serialize request))
  | .serialize request => some (s.setCreate i (.emplace request))
  | .emplace request =>
      match s.list request.id with
      -- "Duplicate request ID."
      | some _ => some (s.setCreate i .thrown)
      | none =>
          some ({ s with
            list := Function.update s.list request.id (some { promise := s.futures.length })
            futures := s.futures ++ [({} : CallFutureImpl ρ)]
            registered := s.registered ++ [request] }.setCreate i
              (.setTimeout request s.futures.length))
  -- the mutex is released: the entry may be gone
  | .setTimeout request promise =>
      match s.deref request promise with
      | none => some (s.setCreate i .dangling)
      | some call =>
          let list := Function.update s.list request.id (some { call with timerArmed := true })
          some ({ s with list }.setCreate i (.future request promise))
  | .future request promise =>
      match s.deref request promise with
      | none => some (s.setCreate i .dangling)
      | some call => some (s.setCreate i (.returned request call.promise))
  | .returned _ _ | .thrown | .dangling => none

/-- The section of `handle` and `on_timeout`. -/
def complete (s : CallList ρ) (id : MessageID) (cause : Cause ρ) : Option (CallList ρ) :=
  match s.list id with
  | none => some s
  | some call =>
      match s.futures[call.promise]? with
      | none => none
      | some f =>
          match cause.set f with
          | .error _ => none
          | .ok f' =>
              some { s with
                list := Function.update s.list id none
                futures := s.futures.set call.promise f'
                completions := s.completions ++ [{ promise := call.promise, cause }] }

def handle (s : CallList ρ) (response : ParsedResponse ρ) : Option (CallList ρ) :=
  s.complete response.id (.response response)

def onTimeout (s : CallList ρ) (timeout : Timeout) : Option (CallList ρ) :=
  s.complete timeout.id (.timeout timeout.promise)

/-- `~Call` cancels its timer; a handler that is already queued still runs. -/
def step (s : CallList ρ) : CallListAction ρ → Option (CallList ρ)
  | .create => some { s with creates := s.creates ++ [.generate] }
  | .step i => s.creates[i]?.bind (s.createStep i)
  | .serializationFails i =>
      match s.creates[i]? with
      | some (.serialize _) => some (s.setCreate i .thrown)
      | _ => none
  | .handle response => s.handle response
  | .expire id =>
      match s.list id with
      | none => none
      | some call =>
          -- a timer expires once
          if call.timerArmed then
            some { s with
              list := Function.update s.list id (some { call with timerArmed := false })
              timeouts := s.timeouts ++ [{ id, promise := call.promise }] }
          else none
  | .onTimeout j =>
      match s.timeouts[j]? with
      | none => none
      | some timeout => { s with timeouts := s.timeouts.eraseIdx j }.onTimeout timeout

end CallList

/-- The list of calls whose generator starts from `first`. -/
def callListMachine (ρ : Type) (first : MessageID) :
    Machine (CallList ρ) (CallListAction ρ) where
  init := { nextId := first }
  step := CallList.step

/-! ## What a step can do -/

namespace CallList

variable {ρ : Type}

/-- A response or a timer asks for the call with an ID; `t` is the list without the handler. -/
inductive Answers (s : CallList ρ) :
    CallListAction ρ → CallList ρ → MessageID → Cause ρ → Prop where
  | handle (response : ParsedResponse ρ) :
      Answers s (.handle response) s response.id (.response response)
  | onTimeout {j : Nat} {timeout : Timeout} (hj : s.timeouts[j]? = some timeout) :
      Answers s (.onTimeout j) { s with timeouts := s.timeouts.eraseIdx j } timeout.id
        (.timeout timeout.promise)

/-- One constructor for each thing that a step can do. -/
inductive Steps (s : CallList ρ) : CallListAction ρ → CallList ρ → Prop where
  | create : Steps s .create { s with creates := s.creates ++ [.generate] }
  | generated {i} (hi : s.creates[i]? = some .generate) :
      Steps s (.step i)
        ({ s with nextId := s.nextId + 1, generated := s.generated + 1 }.setCreate i
          (.serialize { seq := s.generated, id := s.nextId }))
  | serialized {i request} (hi : s.creates[i]? = some (.serialize request)) :
      Steps s (.step i) (s.setCreate i (.emplace request))
  | serializationFailed {i request} (hi : s.creates[i]? = some (.serialize request)) :
      Steps s (.serializationFails i) (s.setCreate i .thrown)
  | duplicate {i request call} (hi : s.creates[i]? = some (.emplace request))
      (hlist : s.list request.id = some call) : Steps s (.step i) (s.setCreate i .thrown)
  | emplaced {i request} (hi : s.creates[i]? = some (.emplace request))
      (hlist : s.list request.id = none) :
      Steps s (.step i)
        ({ s with
          list := Function.update s.list request.id (some { promise := s.futures.length })
          futures := s.futures ++ [({} : CallFutureImpl ρ)]
          registered := s.registered ++ [request] }.setCreate i
            (.setTimeout request s.futures.length))
  | timerStarted {i request call} (hi : s.creates[i]? = some (.setTimeout request call.promise))
      (hlist : s.list request.id = some call) :
      Steps s (.step i)
        ({ s with
          list := Function.update s.list request.id
            (some { call with timerArmed := true }) }.setCreate i (.future request call.promise))
  | returned {i request call} (hi : s.creates[i]? = some (.future request call.promise))
      (hlist : s.list request.id = some call) :
      Steps s (.step i) (s.setCreate i (.returned request call.promise))
  | dangling {i request promise}
      (hi : s.creates[i]? = some (.setTimeout request promise) ∨
        s.creates[i]? = some (.future request promise))
      (hlist : ∀ call, s.list request.id = some call → call.promise ≠ promise) :
      Steps s (.step i) (s.setCreate i .dangling)
  | ignored {a t id cause} (ha : Answers s a t id cause) (hlist : s.list id = none) : Steps s a t
  | completed {a t id cause call f f'} (ha : Answers s a t id cause)
      (hlist : s.list id = some call) (hf : s.futures[call.promise]? = some f)
      (hset : cause.set f = .ok f') :
      Steps s a { t with
        list := Function.update s.list id none
        futures := s.futures.set call.promise f'
        completions := s.completions ++ [{ promise := call.promise, cause }] }
  | expired {id call} (hlist : s.list id = some call) (harmed : call.timerArmed = true) :
      Steps s (.expire id) { s with
        list := Function.update s.list id (some { call with timerArmed := false })
        timeouts := s.timeouts ++ [{ id, promise := call.promise }] }

theorem deref_eq_some {s : CallList ρ} {request : Request} {promise : Nat} {call : Call} :
    s.deref request promise = some call ↔
      s.list request.id = some call ∧ call.promise = promise := by
  rw [deref, Option.filter_eq_some_iff, beq_iff_eq]

theorem ne_of_deref_eq_none {s : CallList ρ} {request : Request} {promise : Nat}
    (h : s.deref request promise = none) :
    ∀ call, s.list request.id = some call → call.promise ≠ promise := by
  intro call hlist hpromise
  rw [deref_eq_some.mpr ⟨hlist, hpromise⟩] at h
  cases h

theorem steps_of_complete {s t s' : CallList ρ} {a : CallListAction ρ} {id : MessageID}
    {cause : Cause ρ} (ha : Answers s a t id cause) (h : t.complete id cause = some s') :
    Steps s a s' := by
  have hsame : t.list = s.list ∧ t.futures = s.futures ∧ t.completions = s.completions := by
    cases ha <;> exact ⟨rfl, rfl, rfl⟩
  rw [complete, hsame.1, hsame.2.1, hsame.2.2] at h
  cases hlist : s.list id with
  | none =>
    simp only [hlist] at h
    cases h
    exact .ignored ha hlist
  | some call =>
    cases hf : s.futures[call.promise]? with
    | none => simp only [hlist, hf] at h; cases h
    | some f =>
      cases hset : cause.set f with
      | error status => simp only [hlist, hf, hset] at h; cases h
      | ok f' =>
        simp only [hlist, hf, hset] at h
        cases h
        exact .completed ha hlist hf hset

theorem steps_of_createStep {s s' : CallList ρ} {i : Nat} {create : Create}
    (hi : s.creates[i]? = some create) (h : s.createStep i create = some s') :
    Steps s (.step i) s' := by
  cases create with
  | generate =>
    cases h
    exact .generated hi
  | serialize request =>
    cases h
    exact .serialized hi
  | emplace request =>
    rw [createStep] at h
    cases hlist : s.list request.id with
    | none =>
      simp only [hlist] at h
      cases h
      exact .emplaced hi hlist
    | some call =>
      simp only [hlist] at h
      cases h
      exact .duplicate hi hlist
  | setTimeout request promise =>
    rw [createStep] at h
    cases hderef : s.deref request promise with
    | none =>
      simp only [hderef] at h
      cases h
      exact .dangling (.inl hi) (ne_of_deref_eq_none hderef)
    | some call =>
      simp only [hderef] at h
      cases h
      obtain ⟨hlist, rfl⟩ := deref_eq_some.mp hderef
      exact .timerStarted hi hlist
  | future request promise =>
    rw [createStep] at h
    cases hderef : s.deref request promise with
    | none =>
      simp only [hderef] at h
      cases h
      exact .dangling (.inr hi) (ne_of_deref_eq_none hderef)
    | some call =>
      simp only [hderef] at h
      cases h
      obtain ⟨hlist, rfl⟩ := deref_eq_some.mp hderef
      exact .returned hi hlist
  | returned => cases h
  | thrown => cases h
  | dangling => cases h

theorem steps_of_step {s s' : CallList ρ} {a : CallListAction ρ} (h : s.step a = some s') :
    Steps s a s' := by
  cases a with
  | create =>
    cases h
    exact .create
  | step i =>
    obtain ⟨create, hi, h⟩ := Option.bind_eq_some_iff.mp h
    exact steps_of_createStep hi h
  | serializationFails i =>
    rw [step] at h
    split at h
    · cases h
      exact .serializationFailed ‹_›
    · cases h
  | handle response => exact steps_of_complete (.handle response) h
  | expire id =>
    rw [step] at h
    cases hlist : s.list id with
    | none => simp only [hlist] at h; cases h
    | some call =>
      simp only [hlist] at h
      split at h
      · cases h
        exact .expired hlist ‹_›
      · cases h
  | onTimeout j =>
    rw [step] at h
    cases hj : s.timeouts[j]? with
    | none => simp only [hj] at h; cases h
    | some timeout =>
      simp only [hj] at h
      exact steps_of_complete (.onTimeout hj) h

end CallList

end MsgpackRpc.Clients
