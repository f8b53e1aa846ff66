import MsgpackRpc.Lib.Machine
import MsgpackRpc.Lib.Update
import MsgpackRpc.Executors.GeneralExecutor

/-!
# Which context a call of `context` gets

Any number of threads call `start`, `stop`, `is_running` and `context` of one executor, in any
order.  `stop` empties the pools at its end, and `context` looks at nothing but the pools.
-/

namespace MsgpackRpc.Executors

inductive ExecutorRoutine where
  | start
  | stop
  | isRunning
  | context (type : OperationType)
  deriving DecidableEq, Repr

/-- Where a call stands: what it does next, or how it has ended. -/
inductive ExecutorCall where
  | start
  | startThreads
  | stop
  | asyncStopThreadsGently
  | join
  | clearTransport
  | clearCallbacks
  | isRunning
  /-- Before the index is taken modulo the size of the pool. -/
  | context (type : OperationType)
  /-- Before the element at this index is accessed. -/
  | element (type : OperationType) (index : Nat)
  | returned
  /-- `stop` has run to its end. -/
  | stopped
  | answered (running : Bool)
  | selected (id : ContextId)
  | threw (status : Status)
  /-- A remainder by zero, or an element that the pool does not have. -/
  | faulted
  deriving DecidableEq, Repr

namespace ExecutorCall

def enter : ExecutorRoutine → ExecutorCall
  | .start => .start
  | .stop => .stop
  | .isRunning => .isRunning
  | .context type => .context type

/-- The call is a `stop` that has cleared this pool. -/
def hasCleared (type : OperationType) : ExecutorCall → Bool
  | .clearCallbacks => type = .transport
  | .stopped => true
  | _ => false

end ExecutorCall

structure ExecutorSystem where
  executor : GeneralExecutor
  calls : List ExecutorCall := []
  /-- The indexes that were computed for each pool, the oldest first. -/
  selections : OperationType → List Nat := fun _ => []

inductive ExecutorAction where
  | call (routine : ExecutorRoutine)
  | advance (i : Nat)
  | thread (id : ContextId)
  | raise (id : ContextId) (exception : ExceptionPtr)
  deriving DecidableEq, Repr

namespace ExecutorSystem

/-- `get_context_index`; `none` is a remainder by zero. -/
def getContextIndex (index : UInt64) (size : Nat) : Option Nat :=
  if size = 0 then none else some (index.toNat % size)

def answer (s : ExecutorSystem) (i : Nat) (call : ExecutorCall) : ExecutorSystem :=
  { s with calls := s.calls.set i call }

def alreadyStarted : Status :=
  .create .preconditionNotMet (text "An executor must not be run multiple times.")

/-- The index for a call of `context`.  The size is read into a local variable, so that nothing
that happens before the index is fetched can change it. -/
def select (s : ExecutorSystem) (i : Nat) (type : OperationType) : ExecutorSystem :=
  let (index, executor) := s.executor.fetchIndex type
  match getContextIndex index (s.executor.pools type).length with
  | some k =>
      { executor
        calls := s.calls.set i (.element type k)
        selections := fun type' =>
          if type' = type then s.selections type ++ [k] else s.selections type' }
  | none => s.answer i .faulted

def advance (s : ExecutorSystem) (i : Nat) : ExecutorCall → Option ExecutorSystem
  | .start =>
      if s.executor.isStarted then some (s.answer i (.threw alreadyStarted))
      else some { s.answer i .startThreads with executor := { s.executor with isStarted := true } }
  | .startThreads => some { s.answer i .returned with executor := s.executor.startThreads }
  | .stop =>
      if s.executor.isStopped then some (s.answer i .returned)
      else some { s.answer i .asyncStopThreadsGently with
        executor := { s.executor with isStopped := true } }
  | .asyncStopThreadsGently =>
      some { s.answer i .join with executor := s.executor.asyncStopThreadsGently }
  | .join => if s.executor.joined then some (s.answer i .clearTransport) else none
  | .clearTransport =>
      some { s.answer i .clearCallbacks with executor := s.executor.clear .transport }
  | .clearCallbacks => some { s.answer i .stopped with executor := s.executor.clear .callback }
  | .isRunning => some (s.answer i (.answered s.executor.isRunning))
  | .context type => some (s.select i type)
  | .element type index =>
      if index < (s.executor.pools type).length then some (s.answer i (.selected ⟨type, index⟩))
      else some (s.answer i .faulted)
  | _ => none

def step (s : ExecutorSystem) : ExecutorAction → Option ExecutorSystem
  | .call routine => some { s with calls := s.calls ++ [.enter routine] }
  | .advance i => (s.calls[i]?).bind (s.advance i)
  | .thread id => (s.executor.runInThread id).map fun (executor, _) => { s with executor }
  | .raise id exception => (s.executor.raise id exception).map fun executor => { s with executor }

end ExecutorSystem

def executorMachine : Machine ExecutorSystem ExecutorAction where
  init := { executor := .create {} }
  step := ExecutorSystem.step

namespace ExecutorSystem

/-- The executor was created with this configuration, and nobody has called it. -/
def created (config : ExecutorConfig) : ExecutorSystem := { executor := .create config }

/-- A `stop` has cleared this pool. -/
def cleared (s : ExecutorSystem) (type : OperationType) : Bool :=
  s.calls.any (ExecutorCall.hasCleared type)

def poolSize (s : ExecutorSystem) (type : OperationType) : Nat := (s.executor.pools type).length

/-- The next step of the call has nothing to do with the selection of a context. -/
structure PlainStep (c c' : ExecutorCall) : Prop where
  not_context : ∀ type, c ≠ .context type
  not_element : ∀ type index, c ≠ .element type index
  not_element' : ∀ type index, c' ≠ .element type index
  not_faulted : c' ≠ .faulted

/-- What each action does, with what it needs. -/
inductive Steps (s : ExecutorSystem) : ExecutorAction → ExecutorSystem → Prop where
  | called (routine : ExecutorRoutine) :
      Steps s (.call routine) { s with calls := s.calls ++ [.enter routine] }
  | ran {a executor} (hother : ∀ i, a ≠ .advance i) (hshape : s.executor.SameShape executor) :
      Steps s a { s with executor }
  | moved {i c c' executor} (hcall : s.calls[i]? = some c) (hplain : PlainStep c c')
      (hclears : ∀ type, c'.hasCleared type = c.hasCleared type)
      (hsize : ∀ type, (executor.pools type).length = s.poolSize type)
      (hindexes : executor.indexes = s.executor.indexes) :
      Steps s (.advance i) { s.answer i c' with executor }
  | clearedPool {i c c'} (type : OperationType) (hcall : s.calls[i]? = some c)
      (hplain : PlainStep c c')
      (hclears : ∀ type', c'.hasCleared type' = (decide (type' = type) || c.hasCleared type')) :
      Steps s (.advance i) { s.answer i c' with executor := s.executor.clear type }
  | indexed {i type} (hcall : s.calls[i]? = some (.context type)) (hsize : s.poolSize type ≠ 0) :
      Steps s (.advance i)
        { executor := (s.executor.fetchIndex type).2
          calls := s.calls.set i
            (.element type ((s.executor.indexes type).toNat % s.poolSize type))
          selections := fun type' =>
            if type' = type then
              s.selections type ++ [(s.executor.indexes type).toNat % s.poolSize type]
            else s.selections type' }
  | noPool {i type} (hcall : s.calls[i]? = some (.context type)) (hsize : s.poolSize type = 0) :
      Steps s (.advance i) (s.answer i .faulted)
  | accessed {i type index} (hcall : s.calls[i]? = some (.element type index))
      (hindex : index < s.poolSize type) :
      Steps s (.advance i) (s.answer i (.selected ⟨type, index⟩))
  | outside {i type index} (hcall : s.calls[i]? = some (.element type index))
      (hindex : s.poolSize type ≤ index) : Steps s (.advance i) (s.answer i .faulted)

theorem steps_advance {s s' : ExecutorSystem} {i : Nat} {c : ExecutorCall}
    (hcall : s.calls[i]? = some c) (h : s.advance i c = some s') : Steps s (.advance i) s' := by
  cases c with
  | start =>
    simp only [advance] at h
    split at h <;> cases h <;>
      exact .moved hcall ⟨nofun, nofun, nofun, nofun⟩ (fun _ => rfl) (fun _ => rfl) rfl
  | startThreads =>
    cases h
    exact .moved hcall ⟨nofun, nofun, nofun, nofun⟩ (fun _ => rfl)
      (GeneralExecutor.length_pools_mapPairs _ _) rfl
  | stop =>
    simp only [advance] at h
    split at h <;> cases h <;>
      exact .moved hcall ⟨nofun, nofun, nofun, nofun⟩ (fun _ => rfl) (fun _ => rfl) rfl
  | asyncStopThreadsGently =>
    cases h
    exact .moved hcall ⟨nofun, nofun, nofun, nofun⟩ (fun _ => rfl)
      (GeneralExecutor.length_pools_mapPairs _ _) rfl
  | join =>
    obtain ⟨-, h⟩ := Option.ite_none_right_eq_some.mp h
    cases h
    exact .moved hcall ⟨nofun, nofun, nofun, nofun⟩ (fun _ => rfl) (fun _ => rfl) rfl
  | clearTransport =>
    cases h
    exact .clearedPool .transport hcall ⟨nofun, nofun, nofun, nofun⟩ fun type => by
      cases type <;> rfl
  | clearCallbacks =>
    cases h
    exact .clearedPool .callback hcall ⟨nofun, nofun, nofun, nofun⟩ fun type => by
      cases type <;> rfl
  | isRunning =>
    cases h
    exact .moved hcall ⟨nofun, nofun, nofun, nofun⟩ (fun _ => rfl) (fun _ => rfl) rfl
  | context type =>
    simp only [advance, select, getContextIndex, GeneralExecutor.fetchIndex] at h
    by_cases hsize : (s.executor.pools type).length = 0
    · rw [if_pos hsize] at h
      cases h
      exact .noPool hcall hsize
    · rw [if_neg hsize] at h
      cases h
      exact .indexed hcall hsize
  | element type index =>
    simp only [advance] at h
    split at h <;> cases h
    · exact .accessed hcall ‹_›
    · exact .outside hcall (Nat.le_of_not_lt ‹_›)
  | _ => cases h

theorem steps_of_step {s s' : ExecutorSystem} {a : ExecutorAction}
    (h : executorMachine.step s a = some s') : Steps s a s' := by
  have h : s.step a = some s' := h
  cases a with
  | call routine =>
    cases h
    exact .called routine
  | advance i =>
    obtain ⟨c, hcall, h⟩ := Option.bind_eq_some_iff.mp h
    exact steps_advance hcall h
  | thread id =>
    obtain ⟨⟨executor, calls⟩, hrun, heq⟩ := Option.map_eq_some_iff.mp h
    cases heq
    exact .ran nofun (GeneralExecutor.sameShape_runInThread hrun)
  | raise id exception =>
    obtain ⟨executor, hraise, rfl⟩ := Option.map_eq_some_iff.mp h
    exact .ran nofun (GeneralExecutor.sameShape_raise hraise)

/-! ## What every run keeps -/

/-- A pool has its configured size until it is cleared, and the indexes that were computed for it
follow the counter. -/
structure Selects (config : ExecutorConfig) (s : ExecutorSystem) : Prop where
  size : ∀ type, s.poolSize type = if s.cleared type then 0 else config.numThreads type
  elements : ∀ type index, .element type index ∈ s.calls → index < config.numThreads type
  counted : ∀ type, s.executor.indexes type = UInt64.ofNat (s.selections type).length
  rotated : ∀ type k j, (s.selections type)[k]? = some j →
    j = k % 2 ^ 64 % config.numThreads type

theorem selects_created (config : ExecutorConfig) : (created config).Selects config where
  size type := List.length_replicate ..
  elements type index h := by cases h
  counted type := rfl
  rotated type k j h := by cases h

theorem size_set {config : ExecutorConfig} {s s' : ExecutorSystem} {i : Nat}
    {c c' : ExecutorCall} {type : OperationType} (h : s.Selects config)
    (hcall : s.calls[i]? = some c) (hcalls : s'.calls = s.calls.set i c')
    (hclears : c'.hasCleared type = c.hasCleared type)
    (hsize : s'.poolSize type = s.poolSize type) :
    s'.poolSize type = if s'.cleared type then 0 else config.numThreads type := by
  rw [hsize, h.size type, cleared, cleared, hcalls, List.any_set _ hcall,
    List.any_eq_of_getElem? _ hcall, hclears]

theorem element_of_mem_set {s : ExecutorSystem} {i : Nat} {c' : ExecutorCall}
    {type : OperationType} {index : Nat} (hnot : c' ≠ .element type index)
    (hmem : .element type index ∈ s.calls.set i c') : .element type index ∈ s.calls := by
  obtain hmem | heq := List.mem_or_eq_of_mem_set hmem
  · exact hmem
  · exact absurd heq.symm hnot

/-- The counter after one more index. -/
theorem ofNat_length_append (l : List Nat) (k : Nat) :
    UInt64.ofNat (l ++ [k]).length = UInt64.ofNat l.length + 1 := by
  rw [List.length_append, List.length_singleton, UInt64.ofNat_add]
  rfl

theorem Selects.size_of_ne_zero {config : ExecutorConfig} {s : ExecutorSystem}
    {type : OperationType} (h : s.Selects config) (hsize : s.poolSize type ≠ 0) :
    s.poolSize type = config.numThreads type := by
  rw [h.size type] at hsize ⊢
  split at hsize
  · exact absurd rfl hsize
  · rw [if_neg ‹_›]

theorem selects_indexed {config : ExecutorConfig} {s : ExecutorSystem} {i : Nat}
    {type : OperationType} (h : s.Selects config) (hcall : s.calls[i]? = some (.context type))
    (hsize : s.poolSize type ≠ 0) :
    Selects config
      { executor := (s.executor.fetchIndex type).2
        calls := s.calls.set i
          (.element type ((s.executor.indexes type).toNat % s.poolSize type))
        selections := fun type' =>
          if type' = type then
            s.selections type ++ [(s.executor.indexes type).toNat % s.poolSize type]
          else s.selections type' } where
  size type' := size_set h hcall rfl rfl rfl
  elements type' index hmem := by
    obtain hmem | heq := List.mem_or_eq_of_mem_set hmem
    · exact h.elements type' index hmem
    · have hpos : 0 < config.numThreads type := config.numThreads_pos type
      have hfull : s.poolSize type = config.numThreads type := h.size_of_ne_zero hsize
      cases heq
      rw [hfull]
      exact Nat.mod_lt _ hpos
  counted type' := by
    by_cases htype : type' = type
    · subst htype
      simp only [GeneralExecutor.fetchIndex, if_pos, ofNat_length_append, h.counted]
    · simp only [GeneralExecutor.fetchIndex, if_neg htype]
      exact h.counted type'
  rotated type' k j hj := by
    by_cases htype : type' = type
    · subst htype
      simp only [if_pos, List.getElem?_append] at hj
      split at hj
      · exact h.rotated type' k j hj
      · rename_i hk
        rw [List.getElem?_singleton] at hj
        obtain ⟨hlast, heq⟩ := Option.ite_none_right_eq_some.mp hj
        cases heq
        have hlen : k = (s.selections type').length := by omega
        rw [h.size_of_ne_zero hsize, h.counted, hlen]
        rfl
    · simp only [if_neg htype] at hj
      exact h.rotated type' k j hj

theorem selects_step {config : ExecutorConfig} {s s' : ExecutorSystem} {a : ExecutorAction}
    (h : s.Selects config) (hstep : executorMachine.step s a = some s') : s'.Selects config := by
  cases steps_of_step hstep with
  | called routine =>
    refine ⟨fun type => ?_, fun type index hmem => ?_, h.counted, h.rotated⟩
    · have hclears : (ExecutorCall.enter routine).hasCleared type = false := by
        cases routine <;> rfl
      rw [cleared, List.any_append, List.any_cons, List.any_nil, hclears, Bool.or_false,
        Bool.or_false]
      exact h.size type
    · apply h.elements type index
      obtain hmem | heq := List.mem_append.mp hmem
      · exact hmem
      · cases routine <;> simp [ExecutorCall.enter] at heq
  | ran _ hshape =>
    refine ⟨fun type => ?_, h.elements, fun type => ?_, h.rotated⟩
    · exact (hshape.pools type).trans (h.size type)
    · exact (congrFun hshape.indexes type).trans (h.counted type)
  | moved hcall hplain hclears hsize hindexes =>
    refine ⟨fun type => ?_, fun type index hmem => ?_, fun type => ?_, h.rotated⟩
    · exact size_set h hcall rfl (hclears type) (hsize type)
    · exact h.elements type index (element_of_mem_set (hplain.not_element' type index) hmem)
    · exact (congrFun hindexes type).trans (h.counted type)
  | @clearedPool i c c' type hcall hplain hclears =>
    refine ⟨fun type' => ?_, fun type' index hmem => ?_, h.counted, h.rotated⟩
    · by_cases htype : type' = type
      · subst htype
        have hcleared : (s.calls.set i c').any (ExecutorCall.hasCleared type') = true := by
          rw [List.any_set _ hcall, hclears]
          simp
        apply Eq.trans _ (if_pos hcleared).symm
        simp [poolSize, GeneralExecutor.clear]
      · have hsame : c'.hasCleared type' = c.hasCleared type' := by simp [hclears, htype]
        apply size_set h hcall rfl hsame
        simp only [poolSize, GeneralExecutor.clear, if_neg htype]
    · exact h.elements type' index (element_of_mem_set (hplain.not_element' type' index) hmem)
  | indexed hcall hsize => exact selects_indexed h hcall hsize
  | noPool hcall | accessed hcall | outside hcall =>
    refine ⟨fun type => ?_, fun type index hmem => ?_, h.counted, h.rotated⟩
    · exact size_set h hcall rfl rfl rfl
    · exact h.elements type index (element_of_mem_set (by simp) hmem)

/-! ## Faults -/

/-- A call of `context` has divided by zero or accessed an element that is not there. -/
def NoFault (s : ExecutorSystem) : Prop := .faulted ∉ s.calls

instance NoFault.decidable (s : ExecutorSystem) : Decidable s.NoFault :=
  inferInstanceAs (Decidable (¬ ExecutorCall.faulted ∈ s.calls))

/-- A call of `context` takes the size of its pool, and later its element, while no `stop` has
cleared the pool. -/
def BeforeClear (s : ExecutorSystem) (a : ExecutorAction) : Prop :=
  ∀ i type, a = .advance i →
    (s.calls[i]? = some (.context type) ∨ ∃ index, s.calls[i]? = some (.element type index)) →
    s.cleared type = false

theorem Selects.poolSize_eq_zero_iff {config : ExecutorConfig} {s : ExecutorSystem}
    (h : s.Selects config) (type : OperationType) :
    s.poolSize type = 0 ↔ s.cleared type = true := by
  have hpos : 0 < config.numThreads type := config.numThreads_pos type
  rw [h.size type]
  split
  · exact iff_of_true rfl ‹_›
  · exact iff_of_false (by omega) ‹_›

theorem noFault_set_iff {s : ExecutorSystem} {i : Nat} {c c' : ExecutorCall} (hsafe : s.NoFault)
    (hcall : s.calls[i]? = some c) : .faulted ∉ s.calls.set i c' ↔ c' ≠ .faulted := by
  constructor
  · rintro h rfl
    exact h (List.mem_set (List.getElem?_eq_some_iff.mp hcall).1 _)
  · intro hne hmem
    obtain hmem | heq := List.mem_or_eq_of_mem_set hmem
    · exact hsafe hmem
    · exact hne heq.symm

theorem beforeClear_iff {s : ExecutorSystem} {i : Nat} {type : OperationType}
    (hcall : s.calls[i]? = some (.context type) ∨
      ∃ index, s.calls[i]? = some (.element type index)) :
    s.BeforeClear (.advance i) ↔ s.cleared type = false := by
  constructor
  · intro h
    exact h i type rfl hcall
  · rintro h j type' heq hcall'
    cases heq
    obtain hcall | ⟨index, hcall⟩ := hcall <;> rw [hcall] at hcall' <;>
      obtain hcall' | ⟨index', hcall'⟩ := hcall' <;> cases hcall' <;> exact h

theorem beforeClear_of_plain {s : ExecutorSystem} {i : Nat} {c c' : ExecutorCall}
    (hcall : s.calls[i]? = some c) (hplain : PlainStep c c') : s.BeforeClear (.advance i) := by
  intro j type heq hcall'
  cases heq
  rw [hcall] at hcall'
  obtain hcall' | ⟨index, hcall'⟩ := hcall'
  · exact absurd (Option.some.inj hcall') (hplain.not_context type)
  · exact absurd (Option.some.inj hcall') (hplain.not_element type index)

theorem noFault_step_iff {config : ExecutorConfig} {s s' : ExecutorSystem} {a : ExecutorAction}
    (h : s.Selects config) (hsafe : s.NoFault) (hstep : executorMachine.step s a = some s') :
    s'.NoFault ↔ s.BeforeClear a := by
  cases steps_of_step hstep with
  | called routine =>
    refine iff_of_true (fun hmem => ?_) nofun
    obtain hmem | heq := List.mem_append.mp hmem
    · exact hsafe hmem
    · cases routine <;> simp [ExecutorCall.enter] at heq
  | ran hother => exact iff_of_true hsafe fun i _ heq => absurd heq (hother i)
  | moved hcall hplain | clearedPool _ hcall hplain =>
    exact iff_of_true ((noFault_set_iff hsafe hcall).mpr hplain.not_faulted)
      (beforeClear_of_plain hcall hplain)
  | @indexed i type hcall hsize =>
    refine iff_of_true ((noFault_set_iff hsafe hcall).mpr nofun)
      ((beforeClear_iff (.inl hcall)).mpr ?_)
    rw [Ne, h.poolSize_eq_zero_iff] at hsize
    exact Bool.eq_false_iff.mpr hsize
  | @noPool i type hcall hsize =>
    refine iff_of_false (fun hnot => (noFault_set_iff hsafe hcall).mp hnot rfl) fun hok => ?_
    rw [beforeClear_iff (.inl hcall), ← Bool.not_eq_true, ← h.poolSize_eq_zero_iff] at hok
    exact hok hsize
  | @accessed i type index hcall hindex =>
    refine iff_of_true ((noFault_set_iff hsafe hcall).mpr nofun)
      ((beforeClear_iff (.inr ⟨index, hcall⟩)).mpr ?_)
    rw [← Bool.not_eq_true, ← h.poolSize_eq_zero_iff]
    omega
  | @outside i type index hcall hindex =>
    refine iff_of_false (fun hnot => (noFault_set_iff hsafe hcall).mp hnot rfl) fun hok => ?_
    rw [beforeClear_iff (.inr ⟨index, hcall⟩), ← Bool.not_eq_true, ← h.poolSize_eq_zero_iff] at hok
    have hin : index < config.numThreads type := h.elements type index (List.mem_of_getElem? hcall)
    rw [← h.size_of_ne_zero hok] at hin
    omega

/-! ## The rotation -/

/-- Among `n` consecutive numbers each remainder modulo `n` appears. -/
theorem exists_offset_mod {n j : Nat} (c : Nat) (hj : j < n) : ∃ i < n, (c + i) % n = j := by
  refine ⟨(j + (n - c % n)) % n, Nat.mod_lt _ (Nat.zero_lt_of_lt hj), ?_⟩
  have hc : c % n < n := Nat.mod_lt _ (Nat.zero_lt_of_lt hj)
  calc (c + (j + (n - c % n)) % n) % n
      = (c % n + (j + (n - c % n))) % n := by rw [Nat.add_mod, Nat.mod_mod, ← Nat.add_mod]; simp
    _ = (j + n) % n := by congr 1; omega
    _ = j := by rw [Nat.add_mod_right, Nat.mod_eq_of_lt hj]

/-- Between two wraps of the counter, `n` consecutive selections visit the `n` contexts. -/
def Rotates (s : ExecutorSystem) (type : OperationType) (n : Nat) : Prop :=
  ∀ k, k % 2 ^ 64 + n ≤ 2 ^ 64 → k + n ≤ (s.selections type).length →
    ∀ j < n, ∃ i < n, (s.selections type)[k + i]? = some j

theorem Selects.rotates {config : ExecutorConfig} {s : ExecutorSystem} (h : s.Selects config)
    (type : OperationType) : s.Rotates type (config.numThreads type) := by
  intro k hwrap hlen j hj
  obtain ⟨i, hi, hmod⟩ := exists_offset_mod (k % 2 ^ 64) hj
  have hlt : k + i < (s.selections type).length := by omega
  refine ⟨i, hi, ?_⟩
  rw [List.getElem?_eq_getElem hlt]
  have hindex := h.rotated type (k + i) _ (List.getElem?_eq_getElem hlt)
  have hcounter : (k + i) % 2 ^ 64 = k % 2 ^ 64 + i := by omega
  rw [hindex, hcounter, hmod]

end ExecutorSystem

open ExecutorSystem

/-- Calls of `context` never fault exactly if each of them takes the size of its pool and its
element before a `stop` clears the pool, and what they select rotates over the pool. -/
theorem context_selects_iff (config : ExecutorConfig) (schedule : List ExecutorAction) :
    (executorMachine.Meets (fun _ _ s => s.NoFault) (created config) schedule ↔
      executorMachine.Meets (fun s a _ => s.BeforeClear a) (created config) schedule) ∧
    ∀ s, executorMachine.run (created config) schedule = some s →
      ∀ type, s.Rotates type (config.numThreads type) := by
  constructor
  · have hiff : ∀ s a s', Selects config s → NoFault s → True →
        executorMachine.step s a = some s' → (NoFault s' ↔ BeforeClear s a) :=
      fun _ _ _ h hsafe _ hstep => noFault_step_iff h hsafe hstep
    exact Machine.meets_iff (fun _ _ _ h _ hstep => selects_step h hstep) hiff
      (selects_created config) (by simp [NoFault, created]) fun _ _ => trivial
  · intro s hrun type
    have hselects : s.Selects config :=
      Machine.run_keeps (fun _ _ _ h hstep => selects_step h hstep) (selects_created config) hrun
    exact hselects.rotates type

/-- An executor was started and stopped, and somebody who still holds it calls `context`. -/
theorem context_faults :
    ¬ ∀ (config : ExecutorConfig) (schedule : List ExecutorAction),
      executorMachine.Meets (fun _ _ s => s.NoFault) (created config) schedule := by
  intro h
  have hfault := h {} [.call .start, .advance 0, .advance 0, .call .stop, .advance 1, .advance 1,
    .thread ⟨.transport, 0⟩, .thread ⟨.callback, 0⟩, .advance 1, .advance 1, .advance 1,
    .call (.context .callback), .advance 2]
  revert hfault
  decide

end MsgpackRpc.Executors
