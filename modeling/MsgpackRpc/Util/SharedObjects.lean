import MsgpackRpc.Lib.CircularScan
import MsgpackRpc.Lib.Machine
import MsgpackRpc.Lib.RefCount
import MsgpackRpc.Lib.SignedOverflow
import MsgpackRpc.Lib.Update

/-!
# Shared objects

`SharedObjectMemoryPool` has a fixed number of buffers and looks for an unused one in a circle.  The
handles that it gives away count themselves in their buffer.  Objects are numbered in the order of
their construction.
-/

namespace MsgpackRpc.Util

open RefCount
open SignedOverflow (maxCount)

structure SharedObjectBuffer where
  /-- -1 for an unused buffer. -/
  referenceCount : Int32 := -1
  object : Option Nat := none
  deriving DecidableEq, Inhabited, Repr

structure SharedObjectMemoryPool where
  buffers : List SharedObjectBuffer
  nextBufferIndex : Nat := 0
  /-- How many objects have been constructed, and the number of the next one. -/
  constructed : Nat := 0
  /-- The objects that have been destroyed, in this order. -/
  destroyed : List Nat := []
  deriving DecidableEq, Repr

inductive CreateResult where
  | handle (bufferIndex : Nat)
  /-- `std::bad_alloc` -/
  | badAlloc
  /-- What the constructor of the object has thrown. -/
  | thrown
  deriving DecidableEq, Repr

namespace SharedObjectMemoryPool

def ofSize (numBuffers : Nat) : SharedObjectMemoryPool where
  buffers := List.replicate numBuffers {}

/-! ## Buffers -/

def tryStartUse (p : SharedObjectMemoryPool) (index : Nat) :
    Option (Bool × SharedObjectMemoryPool) := do
  let buffer ← p.buffers[index]?
  if buffer.referenceCount = -1 then
    return (true, { p with buffers := p.buffers.set index { buffer with referenceCount := 1 } })
  else
    return (false, p)

/-- `std::optional::emplace` destroys the object that is there before it constructs another one. -/
def emplace (p : SharedObjectMemoryPool) (index : Nat) (constructs : Bool) :
    Option SharedObjectMemoryPool := do
  let buffer ← p.buffers[index]?
  let destroyed := p.destroyed ++ buffer.object.toList
  if constructs then
    return { p with
      buffers := p.buffers.set index { buffer with object := some p.constructed }
      constructed := p.constructed + 1
      destroyed }
  else
    return { p with buffers := p.buffers.set index { buffer with object := none }, destroyed }

def addReference (p : SharedObjectMemoryPool) (index : Nat) : Option SharedObjectMemoryPool := do
  let buffer ← p.buffers[index]?
  let count := buffer.referenceCount + 1
  return { p with buffers := p.buffers.set index { buffer with referenceCount := count } }

def release (p : SharedObjectMemoryPool) (index : Nat) : Option SharedObjectMemoryPool := do
  let buffer ← p.buffers[index]?
  let referenceCount := buffer.referenceCount
  if referenceCount = 1 then
    return { p with
      buffers := p.buffers.set index { referenceCount := -1, object := none }
      destroyed := p.destroyed ++ buffer.object.toList }
  else
    return { p with
      buffers := p.buffers.set index { buffer with referenceCount := referenceCount - 1 } }

/-! ## The pool -/

/-- The loop of `create`, until a buffer has been taken or every buffer was in use. -/
def takeBuffer : Nat → SharedObjectMemoryPool → Nat → Option (Option Nat × SharedObjectMemoryPool)
  | 0, _, _ => none
  | fuel + 1, p, initialBufferIndex =>
      let bufferIndex := p.nextBufferIndex
      -- the remainder by zero is not defined
      if p.buffers.length = 0 then none
      else
        let p := { p with nextBufferIndex := (p.nextBufferIndex + 1) % p.buffers.length }
        match p.tryStartUse bufferIndex with
        | none => none
        | some (true, p) => some (some bufferIndex, p)
        | some (false, p) =>
            if p.nextBufferIndex = initialBufferIndex then some (none, p)
            else takeBuffer fuel p initialBufferIndex

/-- `constructs` says whether the constructor of the object returns.  The loop has one round more
than there are buffers. -/
def create (p : SharedObjectMemoryPool) (constructs : Bool) :
    Option (CreateResult × SharedObjectMemoryPool) := do
  let (found, p) ← takeBuffer (p.buffers.length + 1) p p.nextBufferIndex
  match found with
  | none => return (.badAlloc, p)
  | some bufferIndex =>
      let p ← p.emplace bufferIndex constructs
      if constructs then return (.handle bufferIndex, p)
      else
        let p ← p.release bufferIndex
        return (.thrown, p)

end SharedObjectMemoryPool

/-! ## Handles -/

namespace SharedObject

open SharedObjectMemoryPool

def copyConstruct (p : SharedObjectMemoryPool) :
    Option Nat → Option (SharedObjectMemoryPool × Option Nat)
  | none => some (p, none)
  | some other => (p.addReference other).map fun p => (p, some other)

/-- The new pointer and that of the other object. -/
def moveConstruct (other : Option Nat) : Option Nat × Option Nat := (other, none)

def reset (p : SharedObjectMemoryPool) :
    Option Nat → Option (SharedObjectMemoryPool × Option Nat)
  | none => some (p, none)
  | some buffer => (p.release buffer).map fun p => (p, none)

/-- `same` is `this == &other`. -/
def copyAssign (p : SharedObjectMemoryPool) (same : Bool) (buffer other : Option Nat) :
    Option (SharedObjectMemoryPool × Option Nat) :=
  if same then some (p, buffer)
  else do
    let (p, _) ← reset p buffer
    copyConstruct p other

/-- The new pointer and that of the other object, which `reset` has emptied when it is the same. -/
def moveAssign (p : SharedObjectMemoryPool) (same : Bool) (buffer other : Option Nat) :
    Option (SharedObjectMemoryPool × Option Nat × Option Nat) := do
  let (p, buffer) ← reset p buffer
  return (p, if same then buffer else other, none)

end SharedObject

/-- A pool and handles; `undefined` is set by an operation that has no defined behaviour. -/
structure PoolHandles where
  pool : SharedObjectMemoryPool
  handles : Handles Nat := []
  undefined : Bool := false

inductive PoolOperation where
  | create (constructs : Bool)
  /-- `SharedObject()` -/
  | construct
  | copyConstruct (other : Nat)
  | moveConstruct (other : Nat)
  | copyAssign (this other : Nat)
  | moveAssign (this other : Nat)
  | reset (this : Nat)
  | destruct (this : Nat)
  deriving DecidableEq, Repr

namespace PoolHandles

def orUndefined (s : PoolHandles) : Option PoolHandles → PoolHandles
  | some s => s
  | none => { s with undefined := true }

open SharedObject in
/-- The operation of the handles that it names, which must be there. -/
def apply (s : PoolHandles) : PoolOperation → Option PoolHandles
  | .create constructs =>
      some <| s.orUndefined do
        let (result, pool) ← s.pool.create constructs
        match result with
        | .handle bufferIndex =>
            return { s with pool, handles := s.handles ++ [some (some bufferIndex)] }
        | _ => return { s with pool }
  | .construct => some { s with handles := s.handles ++ [some none] }
  | .copyConstruct other => do
      let otherBuffer ← pointerAt s.handles other
      return s.orUndefined do
        let (pool, buffer) ← copyConstruct s.pool otherBuffer
        return { s with pool, handles := s.handles ++ [some buffer] }
  | .moveConstruct other => do
      let otherBuffer ← pointerAt s.handles other
      let (buffer, otherBuffer) := moveConstruct otherBuffer
      return { s with handles := s.handles.set other (some otherBuffer) ++ [some buffer] }
  | .copyAssign this other => do
      let buffer ← pointerAt s.handles this
      let otherBuffer ← pointerAt s.handles other
      return s.orUndefined do
        let (pool, buffer) ← copyAssign s.pool (this == other) buffer otherBuffer
        return { s with pool, handles := s.handles.set this (some buffer) }
  | .moveAssign this other => do
      let buffer ← pointerAt s.handles this
      let otherBuffer ← pointerAt s.handles other
      return s.orUndefined do
        let (pool, buffer, otherBuffer) ← moveAssign s.pool (this == other) buffer otherBuffer
        return { s with
          pool
          handles := (s.handles.set other (some otherBuffer)).set this (some buffer) }
  | .reset this => do
      let buffer ← pointerAt s.handles this
      return s.orUndefined do
        let (pool, buffer) ← reset s.pool buffer
        return { s with pool, handles := s.handles.set this (some buffer) }
  | .destruct this => do
      let buffer ← pointerAt s.handles this
      return s.orUndefined do
        let (pool, _) ← reset s.pool buffer
        return { s with pool, handles := s.handles.set this none }

def step (s : PoolHandles) (op : PoolOperation) : Option PoolHandles :=
  if s.undefined then none else s.apply op

def machine (numBuffers : Nat) : Machine PoolHandles PoolOperation where
  init := { pool := .ofSize numBuffers }
  step := step

end PoolHandles

/-! ## Objects and counts -/

namespace SharedObjectMemoryPool

/-- The objects that are there. -/
def live (p : SharedObjectMemoryPool) : List Nat := p.buffers.filterMap SharedObjectBuffer.object

def Used (p : SharedObjectMemoryPool) (index : Nat) : Prop :=
  ∃ buffer, p.buffers[index]? = some buffer ∧ buffer.referenceCount ≠ -1

/-- An unused buffer has no object, and one that is used has one. -/
def Occupied (buffers : List SharedObjectBuffer) : Prop :=
  ∀ buffer ∈ buffers, buffer.referenceCount = -1 ↔ buffer.object = none

/-- Every object that has been constructed is in one buffer or has been destroyed once. -/
def Once (p : SharedObjectMemoryPool) : Prop :=
  (p.destroyed ++ p.live).Perm (List.range p.constructed)

/-- The counts of the used buffers. -/
def refCount (p : SharedObjectMemoryPool) (index : Nat) : Option Int :=
  p.buffers[index]?.bind fun buffer =>
    if buffer.referenceCount = -1 then none else some buffer.referenceCount.toInt

def object (p : SharedObjectMemoryPool) (index : Nat) : Option Nat :=
  p.buffers[index]?.bind SharedObjectBuffer.object

/-- What the operations keep. -/
structure WellFormed (numBuffers : Nat) (p : SharedObjectMemoryPool) : Prop where
  length_eq : p.buffers.length = numBuffers
  next_lt : numBuffers ≠ 0 → p.nextBufferIndex < numBuffers
  occupied : Occupied p.buffers
  once : p.Once

variable {p p' : SharedObjectMemoryPool} {numBuffers index : Nat} {buffer new : SharedObjectBuffer}

theorem refCount_of_buffer (h : p.buffers[index]? = some buffer)
    (hused : buffer.referenceCount ≠ -1) :
    p.refCount index = some buffer.referenceCount.toInt := by
  rw [refCount, h, Option.bind_some, if_neg hused]

theorem exists_buffer_of_refCount {n : Int} (h : p.refCount index = some n) :
    ∃ buffer, p.buffers[index]? = some buffer ∧ buffer.referenceCount ≠ -1 ∧
      buffer.referenceCount.toInt = n := by
  obtain ⟨buffer, hbuffer, hcount⟩ := Option.bind_eq_some_iff.mp h
  split at hcount
  · cases hcount
  · rename_i hused
    exact ⟨buffer, hbuffer, hused, Option.some.inj hcount⟩

theorem used_iff : p.Used index ↔ p.refCount index ≠ none := by
  constructor
  · rintro ⟨buffer, hbuffer, hused⟩ hnone
    rw [refCount_of_buffer hbuffer hused] at hnone
    cases hnone
  · intro hsome
    obtain ⟨n, hn⟩ := Option.ne_none_iff_exists'.mp hsome
    obtain ⟨buffer, hbuffer, hused, -⟩ := exists_buffer_of_refCount hn
    exact ⟨buffer, hbuffer, hused⟩

/-! ### A buffer that is replaced -/

theorem getElem?_set_buffer (h : p.buffers[index]? = some buffer) (new : SharedObjectBuffer)
    (index' : Nat) :
    (p.buffers.set index new)[index']? =
      if index' = index then some new else p.buffers[index']? := by
  by_cases heq : index' = index
  · rw [if_pos heq, heq, List.getElem?_set_self (List.getElem?_eq_some_iff.mp h).1]
  · rw [if_neg heq, List.getElem?_set_ne (Ne.symm heq)]

theorem refCount_set (h : p.buffers[index]? = some buffer)
    (hbuffers : p'.buffers = p.buffers.set index new) :
    p'.refCount = Function.update p.refCount index
      (if new.referenceCount = -1 then none else some new.referenceCount.toInt) := by
  funext index'
  rw [refCount, hbuffers, getElem?_set_buffer h]
  by_cases heq : index' = index
  · rw [if_pos heq, heq, Function.update_self, Option.bind_some]
  · rw [if_neg heq, Function.update_of_ne heq, refCount]

theorem object_set (h : p.buffers[index]? = some buffer)
    (hbuffers : p'.buffers = p.buffers.set index new) (index' : Nat) :
    p'.object index' = if index' = index then new.object else p.object index' := by
  rw [object, hbuffers, getElem?_set_buffer h]
  split
  · rw [Option.bind_some]
  · rfl

theorem WellFormed.of_set (h : p.WellFormed numBuffers)
    (hbuffers : p'.buffers = p.buffers.set index new)
    (hnext : p'.nextBufferIndex = p.nextBufferIndex)
    (hnew : new.referenceCount = -1 ↔ new.object = none) (honce : p'.Once) :
    p'.WellFormed numBuffers where
  length_eq := by rw [hbuffers, List.length_set, h.length_eq]
  next_lt := hnext ▸ h.next_lt
  occupied := by
    rw [hbuffers]
    intro buffer hmem
    rcases List.mem_or_eq_of_mem_set hmem with hold | rfl
    · exact h.occupied buffer hold
    · exact hnew
  once := honce

/-- The objects that are there, with the object of one buffer in front. -/
theorem exists_live (h : p.buffers[index]? = some buffer) :
    ∃ rest, p.live.Perm (buffer.object.toList ++ rest) ∧
      ∀ (new : SharedObjectBuffer) (p' : SharedObjectMemoryPool),
        p'.buffers = p.buffers.set index new → p'.live.Perm (new.object.toList ++ rest) := by
  have hcons : ∀ (b : SharedObjectBuffer) (l : List SharedObjectBuffer),
      (b :: l).filterMap SharedObjectBuffer.object =
        b.object.toList ++ l.filterMap SharedObjectBuffer.object := by
    intro b l
    rw [List.filterMap_cons]
    cases b.object with
    | none => rfl
    | some object => rfl
  refine ⟨(p.buffers.eraseIdx index).filterMap SharedObjectBuffer.object, ?_, ?_⟩
  · rw [← hcons]
    exact (List.perm_cons_eraseIdx h).filterMap _
  · intro new p' hbuffers
    have hset : (p.buffers.set index new)[index]? = some new := by
      rw [getElem?_set_buffer h, if_pos rfl]
    rw [← hcons, live, hbuffers, ← List.eraseIdx_set_eq]
    exact (List.perm_cons_eraseIdx hset).filterMap _

/-- The object of a buffer stays. -/
theorem once_of_same (h : p.Once) (hbuffer : p.buffers[index]? = some buffer)
    (hbuffers : p'.buffers = p.buffers.set index new) (hobject : new.object = buffer.object)
    (hdestroyed : p'.destroyed = p.destroyed)
    (hconstructed : p'.constructed = p.constructed) : p'.Once := by
  obtain ⟨rest, hlive, hset⟩ := exists_live hbuffer
  have hlive' := hset new p' hbuffers
  rw [hobject] at hlive'
  rw [Once, hdestroyed, hconstructed]
  exact ((hlive'.trans hlive.symm).append_left _).trans h

/-- The object of a buffer is destroyed. -/
theorem once_of_destroyed (h : p.Once) (hbuffer : p.buffers[index]? = some buffer)
    (hbuffers : p'.buffers = p.buffers.set index new) (hobject : new.object = none)
    (hdestroyed : p'.destroyed = p.destroyed ++ buffer.object.toList)
    (hconstructed : p'.constructed = p.constructed) : p'.Once := by
  obtain ⟨rest, hlive, hset⟩ := exists_live hbuffer
  have hlive' := hset new p' hbuffers
  rw [hobject, Option.toList_none, List.nil_append] at hlive'
  rw [Once, hdestroyed, hconstructed, List.append_assoc]
  exact (((hlive'.append_left _).trans hlive.symm).append_left _).trans h

/-- An object is constructed in a buffer that has none. -/
theorem once_of_constructed (h : p.Once) (hbuffer : p.buffers[index]? = some buffer)
    (hempty : buffer.object = none) (hbuffers : p'.buffers = p.buffers.set index new)
    (hobject : new.object = some p.constructed) (hdestroyed : p'.destroyed = p.destroyed)
    (hconstructed : p'.constructed = p.constructed + 1) : p'.Once := by
  obtain ⟨rest, hlive, hset⟩ := exists_live hbuffer
  have hlive' := hset new p' hbuffers
  rw [hobject, Option.toList_some] at hlive'
  rw [hempty, Option.toList_none, List.nil_append] at hlive
  rw [Once, hdestroyed, hconstructed, List.range_succ]
  have hback : p'.live.Perm (p.live ++ [p.constructed]) :=
    hlive'.trans (List.perm_append_comm.trans (hlive.symm.append_right _))
  have hlast := hback.append_left p.destroyed
  rw [← List.append_assoc] at hlast
  exact hlast.trans (h.append_right [p.constructed])

theorem ne_neg_one_of_pos {c : Int32} (h : 0 < c.toInt) : c ≠ -1 := by
  rintro rfl
  exact absurd h (by decide)

theorem addReference_eq (h : p.buffers[index]? = some buffer) :
    p.addReference index = some { p with
      buffers := p.buffers.set index
        { buffer with referenceCount := buffer.referenceCount + 1 } } := by
  rw [addReference, h]
  rfl

theorem addReference_of_lt (hwell : p.WellFormed numBuffers) (h : p.buffers[index]? = some buffer)
    (hpos : 0 < buffer.referenceCount.toInt) (hlt : buffer.referenceCount.toInt < maxCount) :
    ∃ p', p.addReference index = some p' ∧ p'.WellFormed numBuffers ∧
      p'.refCount = acquire p.refCount (some index) ∧
      ∀ index', p'.object index' = p.object index' := by
  have hsum := SignedOverflow.toInt_add_one hlt
  have hused : buffer.referenceCount + 1 ≠ -1 := ne_neg_one_of_pos (by omega)
  have hobject : buffer.object ≠ none := by
    rw [Ne, ← hwell.occupied buffer (List.mem_of_getElem? h)]
    exact ne_neg_one_of_pos hpos
  refine ⟨_, addReference_eq h, ?_, ?_, ?_⟩
  · refine hwell.of_set rfl rfl (iff_of_false hused hobject) ?_
    exact once_of_same hwell.once h rfl rfl rfl rfl
  · rw [refCount_set h rfl, if_neg hused, hsum, acquire,
      refCount_of_buffer h (ne_neg_one_of_pos hpos), Option.getD_some]
  · intro index'
    rw [object_set h rfl]
    split
    · rename_i heq
      rw [heq, object, h, Option.bind_some]
    · rfl

/-- The last handle destroys the object and leaves the buffer unused. -/
theorem release_of_one (hwell : p.WellFormed numBuffers) (h : p.buffers[index]? = some buffer)
    (hone : buffer.referenceCount = 1) :
    ∃ p', p.release index = some p' ∧ p'.WellFormed numBuffers ∧
      p'.refCount = Function.update p.refCount index none ∧
      ∀ index', index' ≠ index → p'.object index' = p.object index' := by
  refine ⟨{ p with
    buffers := p.buffers.set index { referenceCount := -1, object := none }
    destroyed := p.destroyed ++ buffer.object.toList }, ?_, ?_, ?_, ?_⟩
  · simp only [release, h, Option.bind_eq_bind, Option.bind_some, if_pos hone, Option.pure_def]
  · refine hwell.of_set rfl rfl (iff_of_true rfl rfl) ?_
    exact once_of_destroyed hwell.once h rfl rfl rfl rfl
  · rw [refCount_set h rfl, if_pos rfl]
  · intro index' hne
    rw [object_set h rfl, if_neg hne]

theorem release_of_pos (hwell : p.WellFormed numBuffers) (h : p.buffers[index]? = some buffer)
    (hpos : 0 < buffer.referenceCount.toInt) :
    ∃ p', p.release index = some p' ∧ p'.WellFormed numBuffers ∧
      p'.refCount = RefCount.release p.refCount (some index) ∧
      ∀ index', p'.refCount index' ≠ none → p'.object index' = p.object index' := by
  have hcount := refCount_of_buffer h (ne_neg_one_of_pos hpos)
  by_cases hone : buffer.referenceCount = 1
  · obtain ⟨p', hreleased, hwell', hcounts, hobjects⟩ := release_of_one hwell h hone
    refine ⟨p', hreleased, hwell', ?_, fun index' hlive => hobjects index' ?_⟩
    · rw [hcounts, RefCount.release, hcount, hone]
      rfl
    · rintro rfl
      rw [hcounts, Function.update_self] at hlive
      exact hlive rfl
  · have hne : buffer.referenceCount.toInt ≠ 1 := fun heq => hone (Int32.toInt_inj.mp heq)
    have hdifference := SignedOverflow.toInt_sub_one hpos
    have hused : buffer.referenceCount - 1 ≠ -1 := ne_neg_one_of_pos (by omega)
    have hobject : buffer.object ≠ none := by
      rw [Ne, ← hwell.occupied buffer (List.mem_of_getElem? h)]
      exact ne_neg_one_of_pos hpos
    refine ⟨{ p with
      buffers := p.buffers.set index
        { buffer with referenceCount := buffer.referenceCount - 1 } }, ?_, ?_, ?_, ?_⟩
    · simp only [release, h, Option.bind_eq_bind, Option.bind_some, if_neg hone, Option.pure_def]
    · refine hwell.of_set rfl rfl (iff_of_false hused hobject) ?_
      exact once_of_same hwell.once h rfl rfl rfl rfl
    · rw [refCount_set h rfl, if_neg hused, hdifference, RefCount.release, hcount,
        Option.bind_some, if_neg hne]
    · intro index' _
      rw [object_set h rfl]
      split
      · rename_i heq
        rw [heq, object, h, Option.bind_some]
      · rfl

/-! ### The search for an unused buffer -/

def unused (p : SharedObjectMemoryPool) (index : Nat) : Bool :=
  p.buffers[index]?.any fun buffer => buffer.referenceCount = -1

/-- The pool after the search has found a buffer or none. -/
def afterScan (p : SharedObjectMemoryPool) : Option Nat → Nat → SharedObjectMemoryPool
  | none, next => { p with nextBufferIndex := next }
  | some index, next => { p with
      buffers := p.buffers.modify index fun buffer => { buffer with referenceCount := 1 }
      nextBufferIndex := next }

theorem not_used_iff (h : index < p.buffers.length) : ¬ p.Used index ↔ p.unused index = true := by
  rw [unused, List.getElem?_eq_getElem h, Option.any_some, decide_eq_true_iff]
  constructor
  · intro hnot
    by_contra hcount
    exact hnot ⟨_, List.getElem?_eq_getElem h, hcount⟩
  · rintro hcount ⟨buffer, hbuffer, hused⟩
    rw [List.getElem?_eq_getElem h, Option.some.injEq] at hbuffer
    exact hused (hbuffer ▸ hcount)

theorem tryStartUse_of_unused (h : p.buffers[index]? = some buffer)
    (hunused : buffer.referenceCount = -1) :
    p.tryStartUse index = some (true, { p with
      buffers := p.buffers.set index { buffer with referenceCount := 1 } }) := by
  simp only [tryStartUse, h, Option.bind_eq_bind, Option.bind_some, if_pos hunused, Option.pure_def]

theorem tryStartUse_of_used (h : p.buffers[index]? = some buffer)
    (hused : buffer.referenceCount ≠ -1) : p.tryStartUse index = some (false, p) := by
  simp only [tryStartUse, h, Option.bind_eq_bind, Option.bind_some, if_neg hused, Option.pure_def]

/-- The loop of `create` is a circular scan for a buffer that is not used. -/
theorem takeBuffer_of_scan {initial : Nat} {found : Option Nat} {next : Nat} (fuel : Nat)
    (index : Nat) (hindex : index < p.buffers.length)
    (hscan : CircularScan.scan p.buffers.length p.unused fuel initial index = some (found, next)) :
    takeBuffer fuel { p with nextBufferIndex := index } initial =
      some (found, p.afterScan found next) := by
  induction fuel generalizing index with
  | zero => cases hscan
  | succ fuel ih =>
    have hbuffer := List.getElem?_eq_getElem hindex
    have hpos : p.buffers.length ≠ 0 := by omega
    rw [CircularScan.scan] at hscan
    simp only [takeBuffer, if_neg hpos]
    by_cases hunused : p.buffers[index].referenceCount = -1
    · have hfree : p.unused index = true := by
        rw [unused, hbuffer, Option.any_some, decide_eq_true hunused]
      rw [if_pos hfree] at hscan
      cases hscan
      have hstarted := tryStartUse_of_unused
        (p := { p with nextBufferIndex := (index + 1) % p.buffers.length }) hbuffer hunused
      simp only [hstarted, afterScan, List.modify_eq_set, hbuffer, Option.getD_some]
    · have hfree : p.unused index ≠ true := by
        rw [unused, hbuffer, Option.any_some, decide_eq_false hunused]
        exact Bool.false_ne_true
      rw [if_neg hfree] at hscan
      have hfailed := tryStartUse_of_used
        (p := { p with nextBufferIndex := (index + 1) % p.buffers.length }) hbuffer hunused
      simp only [hfailed]
      by_cases hround : (index + 1) % p.buffers.length = initial
      · rw [if_pos hround] at hscan
        cases hscan
        rw [afterScan]
        simp only [if_pos hround]
      · rw [if_neg hround] at hscan
        simp only [if_neg hround]
        exact ih _ (Nat.mod_lt _ (Nat.pos_of_ne_zero hpos)) hscan

/-- A new object in a buffer that was not used. -/
def place (p : SharedObjectMemoryPool) (index next : Nat) : SharedObjectMemoryPool where
  buffers := p.buffers.set index { referenceCount := 1, object := some p.constructed }
  nextBufferIndex := next
  constructed := p.constructed + 1
  destroyed := p.destroyed

/-- `create` uses a buffer that was not used, which a constructor that throws leaves so, or every
buffer is used. -/
theorem create_spec (hwell : p.WellFormed numBuffers) (hpos : numBuffers ≠ 0) (constructs : Bool) :
    (∃ index < numBuffers, ¬ p.Used index ∧ ∃ next < numBuffers,
      p.create constructs = some (if constructs then (.handle index, p.place index next)
        else (.thrown, { p with nextBufferIndex := next }))) ∨
    ((∀ index < numBuffers, p.Used index) ∧ p.create constructs = some (.badAlloc, p)) := by
  have hlength := hwell.length_eq
  have hnext := hwell.next_lt hpos
  rw [← hlength] at hnext ⊢
  rcases CircularScan.scan_spec hnext (Nat.le_succ _) with
    ⟨index, hindex, hfree, next, hlt, hscan⟩ | ⟨hnone, hscan⟩
  · have htaken := takeBuffer_of_scan _ _ hnext hscan
    have hbuffer := List.getElem?_eq_getElem hindex
    refine .inl ⟨index, hindex, (not_used_iff hindex).mpr hfree, next, hlt, ?_⟩
    have hunused : p.buffers[index].referenceCount = -1 := by
      rw [unused, hbuffer, Option.any_some, decide_eq_true_iff] at hfree
      exact hfree
    have hempty := (hwell.occupied _ (List.getElem_mem hindex)).mp hunused
    -- the buffer has no object that `emplace` would destroy
    rw [create, show takeBuffer _ p p.nextBufferIndex = _ from htaken]
    cases constructs with
    | true =>
      simp [afterScan, emplace, place, List.modify_eq_set, hempty, hindex]
    | false =>
      -- `release` gives the buffer back as it was
      have hsame : p.buffers.set index { referenceCount := -1, object := none } = p.buffers := by
        rw [← hunused, ← hempty, List.set_getElem_self]
      simp [afterScan, emplace, SharedObjectMemoryPool.release, List.modify_eq_set, hempty, hindex,
        hsame]
  · have htaken := takeBuffer_of_scan _ _ hnext hscan
    refine .inr ⟨fun index hindex => ?_, ?_⟩
    · by_contra hnot
      rw [not_used_iff hindex, hnone index hindex] at hnot
      cases hnot
    · rw [create, show takeBuffer _ p p.nextBufferIndex = _ from htaken]
      rfl

theorem WellFormed.of_next (h : p.WellFormed numBuffers) {next : Nat} (hnext : next < numBuffers) :
    WellFormed numBuffers { p with nextBufferIndex := next } where
  length_eq := h.length_eq
  next_lt _ := hnext
  occupied := h.occupied
  once := h.once

/-- The new object has a buffer of its own with one handle. -/
theorem place_of_unused (hwell : p.WellFormed numBuffers) (hindex : index < numBuffers)
    (hnot : ¬ p.Used index) {next : Nat} (hnext : next < numBuffers) :
    (p.place index next).WellFormed numBuffers ∧
      (p.place index next).refCount = acquire p.refCount (some index) ∧
      ∀ index', (p.place index next).object index' =
        if index' = index then some p.constructed else p.object index' := by
  rw [← hwell.length_eq] at hindex
  have hbuffer := List.getElem?_eq_getElem hindex
  have hunused : p.buffers[index].referenceCount = -1 := by
    by_contra hused
    exact hnot ⟨_, hbuffer, hused⟩
  have hempty := (hwell.occupied _ (List.getElem_mem hindex)).mp hunused
  have hfree : p.refCount index = none := by
    by_contra hsome
    exact hnot (used_iff.mpr hsome)
  have hone : (1 : Int32) ≠ -1 := by decide
  refine ⟨?_, ?_, fun index' => ?_⟩
  · -- counted from the pool that goes on at `next`, whose buffers are the same
    refine (hwell.of_next hnext).of_set rfl rfl (iff_of_false hone (Option.some_ne_none _)) ?_
    exact once_of_constructed hwell.once hbuffer hempty rfl rfl rfl rfl
  · rw [refCount_set hbuffer rfl, if_neg hone, acquire, hfree]
    rfl
  · rw [object_set hbuffer rfl]

end SharedObjectMemoryPool

open SharedObjectMemoryPool in
/-- The pool as a store of counted buffers. -/
def poolStore (numBuffers : Nat) : Store SharedObjectMemoryPool Nat Nat where
  count := refCount
  value := object
  add := addReference
  drop := SharedObjectMemoryPool.release
  maxCount := maxCount
  Valid := WellFormed numBuffers
  count_le p index n h := by
    obtain ⟨buffer, -, -, rfl⟩ := exists_buffer_of_refCount h
    exact SignedOverflow.toInt_le_maxCount buffer.referenceCount
  add_of_lt p index n hwell h hpos hlt := by
    obtain ⟨buffer, hbuffer, -, rfl⟩ := exists_buffer_of_refCount h
    exact addReference_of_lt hwell hbuffer hpos hlt
  add_of_max p p' index hwell h hadded := by
    obtain ⟨buffer, hbuffer, -, hmax⟩ := exists_buffer_of_refCount h
    rw [addReference_eq hbuffer] at hadded
    cases hadded
    have hsum := SignedOverflow.toInt_add_one_of_max hmax
    have hused : buffer.referenceCount + 1 ≠ -1 := by
      intro heq
      rw [heq] at hsum
      cases hsum
    refine ⟨-2 ^ 31, ?_, by decide⟩
    rw [refCount_set hbuffer rfl, Function.update_self, if_neg hused, hsum]
  drop_of_pos p index n hwell h hpos := by
    obtain ⟨buffer, hbuffer, -, rfl⟩ := exists_buffer_of_refCount h
    exact release_of_pos hwell hbuffer hpos

/-! ## Values of handles -/

/-- The object of every handle; a handle that is empty has none. -/
abbrev SharedValues := List (Option (Option Nat))

namespace SharedValues

/-- `new` is the object that `create` has constructed, if it has not thrown. -/
def apply (v : SharedValues) (new : Option Nat) : PoolOperation → SharedValues
  | .create _ => v ++ (new.map fun object => some (some object)).toList
  | .construct => v ++ [some none]
  | .copyConstruct other => v ++ [v[other]?.join]
  | .moveConstruct other => v.set other (some none) ++ [v[other]?.join]
  | .copyAssign this other => v.set this v[other]?.join
  | .moveAssign this other =>
      if this = other then v.set this (some none)
      else (v.set other (some none)).set this v[other]?.join
  | .reset this => v.set this (some none)
  | .destruct this => v.set this none

end SharedValues

namespace PoolHandles

open SharedObjectMemoryPool

def values (numBuffers : Nat) (s : PoolHandles) : SharedValues :=
  s.handles.map ((poolStore numBuffers).valueOf s.pool)

def newObject (s : PoolHandles) : PoolOperation → Option Nat
  | .create constructs =>
      match s.pool.create constructs with
      | some (.handle _, _) => some s.pool.constructed
      | _ => none
  | _ => none

/-- The handle of a buffer that was not used, or nothing has been taken. -/
def CreateSound (s : PoolHandles) (constructs : Bool) (t : PoolHandles) : CreateResult → Prop
  | .handle index => constructs = true ∧ ¬ s.pool.Used index ∧
      t.handles = s.handles ++ [some (some index)]
  | .badAlloc => t.handles = s.handles ∧ t.pool.Used = s.pool.Used
  | .thrown => constructs = false ∧ t.handles = s.handles ∧ t.pool.Used = s.pool.Used

/-- What a step has to give: nothing undefined has happened, each buffer is unused or has one object
and counts the handles that point to it, every object is in one buffer or has been destroyed once,
which is when no handle has it any more, the handles have the objects that the operation says, and
`create` fails only for the reasons that it has. -/
structure StepSound (numBuffers : Nat) (s : PoolHandles) (op : PoolOperation) (t : PoolHandles) :
    Prop where
  defined : t.undefined = false
  wellFormed : t.pool.WellFormed numBuffers
  counted : Counted t.pool.refCount t.handles
  destroyed : ∀ object, object ∈ t.pool.destroyed ↔
    object < t.pool.constructed ∧ some (some object) ∉ t.values numBuffers
  values : t.values numBuffers = (s.values numBuffers).apply (s.newObject op) op
  creates : ∀ constructs, op = .create constructs →
    ∃ result p, s.pool.create constructs = some (result, p) ∧
      (result = .badAlloc ↔ ∀ index < numBuffers, s.pool.Used index) ∧
      CreateSound s constructs t result

/-- One more handle of what the other one has does not make the number of its handles too large. -/
def MayCopy (s : PoolHandles) (other : Nat) (replaced : Option Nat) : Prop :=
  ∀ index, pointerAt s.handles other = some (some index) →
    replaced = some index ∨ (pointing s.handles index : Int) < maxCount

/-- Nothing is created in a pool without buffers, and no buffer gets more handles than an `int`
counts. -/
def Admissible (numBuffers : Nat) (s : PoolHandles) : PoolOperation → Prop
  | .create _ => numBuffers ≠ 0
  | .copyConstruct other => s.MayCopy other none
  | .copyAssign this other => this = other ∨ s.MayCopy other (pointerAt s.handles this).join
  | _ => True

/-! ## Steps -/

variable {s t : PoolHandles} {op : PoolOperation} {numBuffers : Nat}

theorem reset_eq (numBuffers : Nat) (p : SharedObjectMemoryPool) (pointer : Option Nat) :
    SharedObject.reset p pointer =
      ((poolStore numBuffers).dropPointer p pointer).map fun p => (p, none) := by
  cases pointer with
  | none => rfl
  | some index => rfl

theorem copyConstruct_eq (numBuffers : Nat) (p : SharedObjectMemoryPool) (pointer : Option Nat) :
    SharedObject.copyConstruct p pointer =
      ((poolStore numBuffers).addPointer p pointer).map fun p => (p, pointer) := by
  cases pointer with
  | none => rfl
  | some index => rfl

theorem values_of_pointer {handle : Nat} {pointer : Option Nat}
    (h : pointerAt s.handles handle = some pointer) :
    (s.values numBuffers)[handle]?.join =
      (poolStore numBuffers).valueOf s.pool (some pointer) := by
  exact Store.join_map_valueOf h

/-- What every step keeps. -/
structure Inv (numBuffers : Nat) (s : PoolHandles) : Prop where
  defined : s.undefined = false
  consistent : (poolStore numBuffers).Consistent s.pool s.handles

theorem inv_init (numBuffers : Nat) : (machine numBuffers).init.Inv numBuffers where
  defined := rfl
  consistent := {
    valid := {
      length_eq := List.length_replicate
      next_lt := Nat.pos_of_ne_zero
      occupied := by
        intro buffer hmem
        rw [List.eq_of_mem_replicate hmem]
        exact iff_of_true rfl rfl
      once := by
        have hlive : (SharedObjectMemoryPool.ofSize numBuffers).live = [] := by
          rw [live, List.filterMap_eq_nil_iff]
          intro buffer hmem
          rw [List.eq_of_mem_replicate hmem]
        change List.Perm ([] ++ (SharedObjectMemoryPool.ofSize numBuffers).live) []
        rw [hlive, List.append_nil] }
    counted := by
      intro index
      change SharedObjectMemoryPool.refCount (.ofSize numBuffers) index = none
      rw [SharedObjectMemoryPool.refCount, Option.bind_eq_none_iff]
      intro buffer hbuffer
      rw [List.eq_of_mem_replicate (List.mem_of_getElem? hbuffer)]
      rfl }

/-- An object is there as long as a handle has it. -/
theorem Inv.mem_live_iff (h : s.Inv numBuffers) (object : Nat) :
    object ∈ s.pool.live ↔ some (some object) ∈ s.values numBuffers := by
  rw [live, values, List.mem_filterMap, List.mem_map]
  constructor
  · rintro ⟨buffer, hmem, hobject⟩
    obtain ⟨index, hbuffer⟩ := List.getElem?_of_mem hmem
    have hused : buffer.referenceCount ≠ -1 := by
      rw [Ne, h.consistent.valid.occupied buffer hmem, hobject]
      exact Option.some_ne_none object
    have hpos : 0 < pointing s.handles index := by
      rw [Nat.pos_iff_ne_zero, Ne, ← h.consistent.counted.eq_none_iff]
      exact used_iff.mp ⟨buffer, hbuffer, hused⟩
    refine ⟨some (some index), List.count_pos_iff.mp hpos, ?_⟩
    change some (s.pool.object index) = some (some object)
    rw [SharedObjectMemoryPool.object, hbuffer, Option.bind_some, hobject]
  · rintro ⟨handle, -, hvalue⟩
    obtain ⟨pointer, -, hpointer⟩ := Option.map_eq_some_iff.mp hvalue
    obtain ⟨index, -, hobject⟩ := Option.bind_eq_some_iff.mp hpointer
    obtain ⟨buffer, hbuffer, hobject⟩ := Option.bind_eq_some_iff.mp hobject
    exact ⟨buffer, List.mem_of_getElem? hbuffer, hobject⟩

/-- An object has been destroyed when no handle has it any more. -/
theorem Inv.mem_destroyed_iff (h : s.Inv numBuffers) (object : Nat) :
    object ∈ s.pool.destroyed ↔
      object < s.pool.constructed ∧ some (some object) ∉ s.values numBuffers := by
  have honce : (s.pool.destroyed ++ s.pool.live).Perm (List.range s.pool.constructed) :=
    h.consistent.valid.once
  have hdisjoint := (List.nodup_append.mp (honce.nodup_iff.mpr List.nodup_range)).2.2
  rw [← h.mem_live_iff, ← List.mem_range, ← honce.mem_iff, List.mem_append]
  constructor
  · intro hmem
    exact ⟨.inl hmem, fun hlive => hdisjoint object hmem object hlive rfl⟩
  · rintro ⟨hmem, hnot⟩
    exact hmem.resolve_right hnot

/-- A step that has defined behaviour, with what it keeps and the values that it gives. -/
def Correct (numBuffers : Nat) (s : PoolHandles) (op : PoolOperation) (t : PoolHandles) : Prop :=
  t.Inv numBuffers ∧ t.values numBuffers = (s.values numBuffers).apply (s.newObject op) op

/-! ### `create` -/

theorem used_congr {p p' : SharedObjectMemoryPool} (h : p'.buffers = p.buffers) :
    p'.Used = p.Used := by
  funext index
  rw [Used, Used, h]

/-- A handle for an object in a buffer to which no handle has pointed. -/
theorem correct_place (h : s.Inv numBuffers) {index next : Nat} (hindex : index < numBuffers)
    (hnot : ¬ s.pool.Used index) (hnext : next < numBuffers) :
    (poolStore numBuffers).Consistent (s.pool.place index next) (s.handles ++ [some (some index)]) ∧
      (s.handles ++ [some (some index)]).map
          ((poolStore numBuffers).valueOf (s.pool.place index next)) =
        s.values numBuffers ++ [some (some s.pool.constructed)] := by
  obtain ⟨hwell, hcounts, hobjects⟩ := place_of_unused h.consistent.valid hindex hnot hnext
  have hfree : pointing s.handles index = 0 := by
    rw [← h.consistent.counted.eq_none_iff]
    by_contra hsome
    exact hnot (used_iff.mpr hsome)
  refine ⟨⟨hwell, ?_⟩, ?_⟩
  · change Counted (s.pool.place index next).refCount _
    rw [hcounts]
    exact h.consistent.counted.acquire_append
  · rw [List.map_append, List.map_singleton, values]
    congr 1
    · apply Store.map_valueOf_congr
      intro index' hpos
      have hne : index' ≠ index := by
        rintro rfl
        omega
      exact (hobjects index').trans (if_neg hne)
    · have hobject := (hobjects index).trans (if_pos rfl)
      exact congrArg (fun object => [some object]) hobject

theorem create_correct (h : s.Inv numBuffers) {constructs : Bool} (hpos : numBuffers ≠ 0)
    (hstep : s.apply (.create constructs) = some t) :
    s.Correct numBuffers (.create constructs) t ∧
      ∃ result p, s.pool.create constructs = some (result, p) ∧
        (result = .badAlloc ↔ ∀ index < numBuffers, s.pool.Used index) ∧
        CreateSound s constructs t result := by
  have hwell := h.consistent.valid
  rcases create_spec hwell hpos constructs with
    ⟨index, hindex, hnot, next, hnext, hcreated⟩ | ⟨hused, hcreated⟩
  · have hnotAll : ¬ ∀ index < numBuffers, s.pool.Used index := fun hall => hnot (hall index hindex)
    cases constructs with
    | true =>
      rw [if_pos rfl] at hcreated
      simp only [apply, hcreated, Option.bind_eq_bind, Option.bind_some, orUndefined,
        Option.pure_def, Option.some.injEq] at hstep
      subst hstep
      obtain ⟨hconsistent, hvalues⟩ := correct_place h hindex hnot hnext
      refine ⟨⟨⟨h.defined, hconsistent⟩, ?_⟩, _, _, hcreated, ?_, rfl, hnot, rfl⟩
      · rw [values, hvalues, SharedValues.apply, newObject, hcreated]
        rfl
      · exact iff_of_false (fun heq => nomatch heq) hnotAll
    | false =>
      rw [if_neg Bool.false_ne_true] at hcreated
      simp only [apply, hcreated, Option.bind_eq_bind, Option.bind_some, orUndefined,
        Option.pure_def, Option.some.injEq] at hstep
      subst hstep
      refine ⟨⟨⟨h.defined, ⟨hwell.of_next hnext, h.consistent.counted⟩⟩, ?_⟩, _, _, hcreated, ?_,
        rfl, rfl, used_congr rfl⟩
      · rw [SharedValues.apply, newObject, hcreated]
        exact (List.append_nil _).symm
      · exact iff_of_false (fun heq => nomatch heq) hnotAll
  · simp only [apply, hcreated, Option.bind_eq_bind, Option.bind_some, orUndefined,
      Option.pure_def, Option.some.injEq] at hstep
    subst hstep
    refine ⟨⟨h, ?_⟩, _, _, hcreated, iff_of_true rfl hused, rfl, rfl⟩
    rw [SharedValues.apply, newObject, hcreated]
    exact (List.append_nil _).symm

/-- The remainder by zero. -/
theorem create_of_no_buffers (h : s.Inv 0) (constructs : Bool) :
    s.pool.create constructs = none := by
  rw [SharedObjectMemoryPool.create, takeBuffer, if_pos h.consistent.valid.length_eq]
  rfl

/-! ### Handles -/

theorem correct_copyConstruct (h : s.Inv numBuffers) {other : Nat} (hmay : s.MayCopy other none)
    (hstep : s.apply (.copyConstruct other) = some t) :
    s.Correct numBuffers (.copyConstruct other) t := by
  obtain ⟨pointer, hother, hstep⟩ := Option.bind_eq_some_iff.mp hstep
  have hlt : ∀ index, pointer = some index → (pointing s.handles index : Int) < maxCount := by
    rintro index rfl
    exact (hmay index hother).resolve_left (fun hnone => nomatch hnone)
  obtain ⟨p, hadded, hconsistent, hobjects⟩ :=
    h.consistent.exists_addPointer (pointerAt_eq_some.mp hother) hlt (pointing_append s.handles _)
  simp only [copyConstruct_eq numBuffers, hadded, Option.map_some,
    Option.bind_eq_bind, Option.bind_some, Option.pure_def, orUndefined, Option.some.injEq] at hstep
  subst hstep
  refine ⟨⟨h.defined, hconsistent⟩, ?_⟩
  rw [values, Store.map_valueOf_congr fun index _ => hobjects index, List.map_append,
    SharedValues.apply, values_of_pointer hother]
  rfl

theorem correct_moveConstruct (h : s.Inv numBuffers) {other : Nat}
    (hstep : s.apply (.moveConstruct other) = some t) :
    s.Correct numBuffers (.moveConstruct other) t := by
  obtain ⟨pointer, hother, hstep⟩ := Option.bind_eq_some_iff.mp hstep
  cases hstep
  refine ⟨⟨h.defined, ⟨h.consistent.valid, ?_⟩⟩, ?_⟩
  · exact h.consistent.counted.congr (pointing_move (pointerAt_eq_some.mp hother))
  · rw [SharedValues.apply, values_of_pointer hother, values, List.map_append, List.map_set]
    rfl

theorem correct_copyAssign (h : s.Inv numBuffers) {this other : Nat}
    (hadm : this = other ∨ s.MayCopy other (pointerAt s.handles this).join)
    (hstep : s.apply (.copyAssign this other) = some t) :
    s.Correct numBuffers (.copyAssign this other) t := by
  obtain ⟨buffer, hthis, hstep⟩ := Option.bind_eq_some_iff.mp hstep
  have hi := pointerAt_eq_some.mp hthis
  by_cases hsame : this = other
  · subst hsame
    simp only [hthis, Option.bind_eq_bind, Option.bind_some, SharedObject.copyAssign,
      beq_self_eq_true, if_true, Option.pure_def, orUndefined, set_self hi,
      Option.some.injEq] at hstep
    subst hstep
    refine ⟨h, ?_⟩
    rw [SharedValues.apply, values_of_pointer hthis, values, ← List.map_set, set_self hi]
  · obtain ⟨pointer, hother, hstep⟩ := Option.bind_eq_some_iff.mp hstep
    have hlt : ∀ index, pointer = some index →
        buffer = some index ∨ (pointing s.handles index : Int) < maxCount := by
      rintro index rfl
      have hmay := hadm.resolve_left hsame index hother
      rw [hthis, Option.join_some] at hmay
      exact hmay
    obtain ⟨p₁, p₂, hdropped, hadded, hconsistent, hobjects⟩ :=
      h.consistent.exists_reassignPointer hsame hi (pointerAt_eq_some.mp hother) hlt
    simp only [Option.bind_eq_bind, SharedObject.copyAssign, beq_eq_false_iff_ne.mpr hsame,
      Bool.false_eq_true, if_false, reset_eq numBuffers, hdropped, Option.map_some,
      Option.bind_some, copyConstruct_eq numBuffers, hadded, Option.pure_def,
      orUndefined, Option.some.injEq] at hstep
    subst hstep
    refine ⟨⟨h.defined, hconsistent⟩, ?_⟩
    rw [values, Store.map_valueOf_congr hobjects, List.map_set, SharedValues.apply,
      values_of_pointer hother]
    rfl

/-- A handle lets go of its buffer and is then empty or destroyed. -/
theorem Inv.exists_reset (h : s.Inv numBuffers) {this : Nat} {buffer : Option Nat}
    (hthis : pointerAt s.handles this = some buffer) (rest : Option (Option Nat))
    (hrest : ∀ index, points rest index = 0) :
    ∃ p, SharedObject.reset s.pool buffer = some (p, none) ∧
      Inv numBuffers { s with pool := p, handles := s.handles.set this rest } ∧
      values numBuffers { s with pool := p, handles := s.handles.set this rest } =
        (s.values numBuffers).set this ((poolStore numBuffers).valueOf s.pool rest) := by
  obtain ⟨p, hdropped, hconsistent, hobjects⟩ :=
    h.consistent.exists_drop (pointerAt_eq_some.mp hthis) rest hrest
  refine ⟨p, ?_, ⟨h.defined, hconsistent⟩, ?_⟩
  · rw [reset_eq numBuffers, hdropped, Option.map_some]
  · rw [values, Store.map_valueOf_congr hobjects, List.map_set, values]

theorem correct_reset (h : s.Inv numBuffers) {this : Nat} (hstep : s.apply (.reset this) = some t) :
    s.Correct numBuffers (.reset this) t := by
  obtain ⟨buffer, hthis, hstep⟩ := Option.bind_eq_some_iff.mp hstep
  obtain ⟨p, hreset, hinv, hvalues⟩ := h.exists_reset hthis (some none) fun _ => rfl
  simp only [hreset, Option.bind_eq_bind, Option.bind_some, Option.pure_def, orUndefined,
    Option.some.injEq] at hstep
  subst hstep
  exact ⟨hinv, hvalues⟩

theorem correct_destruct (h : s.Inv numBuffers) {this : Nat}
    (hstep : s.apply (.destruct this) = some t) : s.Correct numBuffers (.destruct this) t := by
  obtain ⟨buffer, hthis, hstep⟩ := Option.bind_eq_some_iff.mp hstep
  obtain ⟨p, hreset, hinv, hvalues⟩ := h.exists_reset hthis none fun _ => rfl
  simp only [hreset, Option.bind_eq_bind, Option.bind_some, Option.pure_def, orUndefined,
    Option.some.injEq] at hstep
  subst hstep
  exact ⟨hinv, hvalues⟩

/-- The handle lets go of its buffer, and then the buffer of the other one moves. -/
theorem correct_moveAssign (h : s.Inv numBuffers) {this other : Nat}
    (hstep : s.apply (.moveAssign this other) = some t) :
    s.Correct numBuffers (.moveAssign this other) t := by
  obtain ⟨buffer, hthis, hstep⟩ := Option.bind_eq_some_iff.mp hstep
  obtain ⟨pointer, hother, hstep⟩ := Option.bind_eq_some_iff.mp hstep
  have hi := pointerAt_eq_some.mp hthis
  obtain ⟨p, hdropped, hconsistent, hobjects⟩ :=
    h.consistent.exists_drop hi (some none) fun _ => rfl
  simp only [SharedObject.moveAssign, reset_eq numBuffers, hdropped,
    Option.map_some, Option.bind_eq_bind, Option.bind_some, Option.pure_def, orUndefined,
    Option.some.injEq] at hstep
  subst hstep
  by_cases hsame : this = other
  · -- the object has let go of its buffer before it takes its own pointer
    subst hsame
    simp only [beq_self_eq_true, if_true, List.set_set]
    refine ⟨⟨h.defined, hconsistent⟩, ?_⟩
    rw [values, Store.map_valueOf_congr hobjects, List.map_set, SharedValues.apply, if_pos rfl]
    rfl
  · have hj : (s.handles.set this (some none))[other]? = some (some pointer) := by
      rw [List.getElem?_set_ne hsame, pointerAt_eq_some.mp hother]
    have hempty : (s.handles.set this (some none))[this]? = some (some none) :=
      List.getElem?_set_self (List.getElem?_eq_some_iff.mp hi).1
    -- after `reset` the two handles exchange a pointer and none
    have htable : ((s.handles.set this (some none)).set other (some none)).set this (some pointer) =
        (s.handles.set other (some none)).set this (some pointer) := by
      rw [List.set_comm _ _ hsame, List.set_set]
    have hmoved := pointing_swap hj hempty
    rw [htable] at hmoved
    simp only [beq_eq_false_iff_ne.mpr hsame, Bool.false_eq_true, if_false]
    refine ⟨⟨h.defined, ⟨hconsistent.valid, hconsistent.counted.congr hmoved⟩⟩, ?_⟩
    have hvalues : ∀ index,
        0 < pointing ((s.handles.set other (some none)).set this (some pointer)) index →
        (poolStore numBuffers).value p index = (poolStore numBuffers).value s.pool index := by
      intro index hpos
      rw [hmoved] at hpos
      exact hobjects index hpos
    rw [values, Store.map_valueOf_congr hvalues, List.map_set, List.map_set, SharedValues.apply,
      if_neg hsame, values_of_pointer hother]
    rfl

theorem stepSound_of_correct (hcorrect : s.Correct numBuffers op t)
    (hcreate : ∀ constructs, op ≠ .create constructs) : s.StepSound numBuffers op t where
  defined := hcorrect.1.defined
  wellFormed := hcorrect.1.consistent.valid
  counted := hcorrect.1.consistent.counted
  destroyed := hcorrect.1.mem_destroyed_iff
  values := hcorrect.2
  creates constructs heq := absurd heq (hcreate constructs)

theorem stepSound_of_admissible (h : s.Inv numBuffers) (hadm : s.Admissible numBuffers op)
    (hstep : (machine numBuffers).step s op = some t) :
    t.Inv numBuffers ∧ s.StepSound numBuffers op t := by
  have hstep : s.apply op = some t := (Option.ite_none_left_eq_some.mp hstep).2
  cases op with
  | create constructs =>
    obtain ⟨hcorrect, hcreates⟩ := create_correct h hadm hstep
    refine ⟨hcorrect.1, hcorrect.1.defined, hcorrect.1.consistent.valid,
      hcorrect.1.consistent.counted, hcorrect.1.mem_destroyed_iff, hcorrect.2, ?_⟩
    rintro _ ⟨⟩
    exact hcreates
  | construct =>
    cases hstep
    have hinv : Inv numBuffers { s with handles := s.handles ++ [some none] } :=
      ⟨h.defined, h.consistent.valid, h.consistent.counted.congr (pointing_append s.handles _)⟩
    refine ⟨hinv, stepSound_of_correct ⟨hinv, ?_⟩ nofun⟩
    rw [values, List.map_append]
    rfl
  | copyConstruct other =>
    have hcorrect := correct_copyConstruct h hadm hstep
    exact ⟨hcorrect.1, stepSound_of_correct hcorrect nofun⟩
  | moveConstruct other =>
    have hcorrect := correct_moveConstruct h hstep
    exact ⟨hcorrect.1, stepSound_of_correct hcorrect nofun⟩
  | copyAssign this other =>
    have hcorrect := correct_copyAssign h hadm hstep
    exact ⟨hcorrect.1, stepSound_of_correct hcorrect nofun⟩
  | moveAssign this other =>
    have hcorrect := correct_moveAssign h hstep
    exact ⟨hcorrect.1, stepSound_of_correct hcorrect nofun⟩
  | reset this =>
    have hcorrect := correct_reset h hstep
    exact ⟨hcorrect.1, stepSound_of_correct hcorrect nofun⟩
  | destruct this =>
    have hcorrect := correct_destruct h hstep
    exact ⟨hcorrect.1, stepSound_of_correct hcorrect nofun⟩

/-! ### Where an operation goes wrong -/

theorem mayCopy_of_copyConstruct (h : s.Inv numBuffers) {other : Nat}
    (hstep : s.apply (.copyConstruct other) = some t) (hdefined : t.undefined = false)
    (hcounted : Counted t.pool.refCount t.handles) : s.MayCopy other none := by
  intro index hother
  refine .inr ?_
  by_contra hmax
  have hi := pointerAt_eq_some.mp hother
  cases hadded : s.pool.addReference index with
  | none =>
    simp only [apply, hother, SharedObject.copyConstruct, hadded, Option.map_none,
      Option.bind_eq_bind, Option.bind_none, Option.bind_some, orUndefined, Option.pure_def,
      Option.some.injEq] at hstep
    subst hstep
    cases hdefined
  | some p =>
    simp only [apply, hother, SharedObject.copyConstruct, hadded, Option.map_some,
      Option.bind_eq_bind, Option.bind_some, orUndefined, Option.pure_def,
      Option.some.injEq] at hstep
    subst hstep
    exact h.consistent.not_counted_of_add hi hmax hadded _ hcounted

theorem mayCopy_of_copyAssign (h : s.Inv numBuffers) {this other : Nat} (hne : this ≠ other)
    (hstep : s.apply (.copyAssign this other) = some t) (hdefined : t.undefined = false)
    (hcounted : Counted t.pool.refCount t.handles) :
    s.MayCopy other (pointerAt s.handles this).join := by
  obtain ⟨buffer, hthis, hstep⟩ := Option.bind_eq_some_iff.mp hstep
  intro index hother
  rw [hthis, Option.join_some]
  by_contra hmax
  have hi := pointerAt_eq_some.mp hthis
  obtain ⟨p₁, hdropped, -, -⟩ := h.consistent.exists_drop hi (some none) fun _ => rfl
  simp only [hother, SharedObject.copyAssign, beq_eq_false_iff_ne.mpr hne, Bool.false_eq_true,
    if_false, reset_eq numBuffers, hdropped, SharedObject.copyConstruct, Option.map_some,
    Option.bind_eq_bind, Option.bind_some] at hstep
  cases hadded : p₁.addReference index with
  | none =>
    simp only [hadded, Option.map_none, Option.bind_none, orUndefined, Option.pure_def,
      Option.some.injEq] at hstep
    subst hstep
    cases hdefined
  | some p₂ =>
    simp only [hadded, Option.map_some, Option.bind_some, orUndefined, Option.pure_def,
      Option.some.injEq] at hstep
    subst hstep
    exact h.consistent.not_counted_of_reassign hne hi (pointerAt_eq_some.mp hother) hmax hdropped
      hadded _ hcounted

theorem admissible_of_sound (h : s.Inv numBuffers) (hsound : s.StepSound numBuffers op t)
    (hstep : (machine numBuffers).step s op = some t) : s.Admissible numBuffers op := by
  have hstep : s.apply op = some t := (Option.ite_none_left_eq_some.mp hstep).2
  cases op with
  | create constructs =>
    rintro rfl
    obtain ⟨result, p, hcreated, -⟩ := hsound.creates constructs rfl
    rw [create_of_no_buffers h] at hcreated
    cases hcreated
  | copyConstruct other =>
    exact mayCopy_of_copyConstruct h hstep hsound.defined hsound.counted
  | copyAssign this other =>
    by_cases hsame : this = other
    · exact .inl hsame
    · exact .inr (mayCopy_of_copyAssign h hsame hstep hsound.defined hsound.counted)
  | construct => trivial
  | moveConstruct other => trivial
  | moveAssign this other => trivial
  | reset this => trivial
  | destruct this => trivial

/-- The pool and the handles of a run are sound at every step exactly when nothing is created in a
pool without buffers and no buffer gets too many handles. -/
theorem pool_sound_iff (numBuffers : Nat) (ops : List PoolOperation) :
    (machine numBuffers).Meets (StepSound numBuffers) (machine numBuffers).init ops ↔
      (machine numBuffers).Meets (fun s op _ => s.Admissible numBuffers op)
        (machine numBuffers).init ops := by
  have hkeep : ∀ s op t, Inv numBuffers s → s.Admissible numBuffers op →
      (machine numBuffers).step s op = some t → Inv numBuffers t :=
    fun s op t h hadm hstep => (stepSound_of_admissible h hadm hstep).1
  refine Machine.meets_congr hkeep ?_ (inv_init numBuffers)
  intro s op t h hstep
  constructor
  · intro hsound
    exact admissible_of_sound h hsound hstep
  · intro hadm
    exact (stepSound_of_admissible h hadm hstep).2

/-- A pool without buffers divides by zero. -/
theorem create_without_buffers_is_undefined :
    ¬ ∀ (numBuffers : Nat) (ops : List PoolOperation),
      (machine numBuffers).Meets (StepSound numBuffers) (machine numBuffers).init ops := by
  intro h
  have hrun := h 0 [.create true]
  obtain ⟨hsound, -⟩ := hrun
  cases hsound.defined

end PoolHandles

end MsgpackRpc.Util
