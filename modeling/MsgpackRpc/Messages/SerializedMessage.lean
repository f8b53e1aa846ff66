import MsgpackRpc.Lib.Machine
import MsgpackRpc.Messages.SharableBinary

/-!
# Handles of serialized messages

A `SerializedMessage` is a pointer to a buffer that counts its handles.  The special members run
here over a table of handles that share a heap, in any order.  What they are for is said without a
heap: a handle has a value of its own, or none after it has been moved from.
-/

namespace MsgpackRpc.Messages

open RefCount
open SignedOverflow (maxCount)

/-- A buffer that `SerializationBuffer::release` gives away: it has one handle and can be read. -/
structure ReleasedBuffer where
  buffer : SharableBinary
  bytes : List UInt8
  enabled : buffer.header.isReferenceCountEnabled = true
  count_one : buffer.header.referenceCount = 1
  read_eq : buffer.read = some bytes

namespace SerializedMessage

/-! ## The special members -/

/-- `SerializedMessage(data, size)`, where memory is available. -/
def ofData (data : Bytes) : Option SharableBinary := do
  let buffer ← allocateSharableBinary data.size
  let buffer ← enableReferenceCount buffer
  let binary ← buffer.binary.copy 0 data.data
  return { buffer with binary }

def copyConstruct (heap : Heap) (other : Option Nat) : Option (Heap × Option Nat) := do
  let heap ← heap.addReferenceCount other
  return (heap, other)

/-- The new pointer and that of the other object. -/
def moveConstruct (other : Option Nat) : Option Nat × Option Nat := (other, none)

/-- `same` is `this == &other`. -/
def copyAssign (heap : Heap) (same : Bool) (buffer other : Option Nat) :
    Option (Heap × Option Nat) :=
  if same then some (heap, buffer)
  else do
    let heap ← heap.releaseUnlessNull buffer
    -- the other pointer is not tested
    let heap ← heap.addReferenceCount other
    return (heap, other)

/-- `std::swap` -/
def moveAssign (buffer other : Option Nat) : Option Nat × Option Nat := (other, buffer)

def destruct (heap : Heap) (buffer : Option Nat) : Option Heap := heap.releaseUnlessNull buffer

/-- The constructor makes a buffer with one handle, from which the data is read. -/
theorem exists_ofData (data : Bytes) :
    ∃ released : ReleasedBuffer, ofData data = some released.buffer ∧
      released.bytes = data.data := by
  have hlt := data.size_lt
  have hsize := data.toNat_size
  have hheader : headerSize.toNat = 32 := rfl
  have htotal : (headerSize + data.size).toNat = 32 + data.data.length := by
    rw [UInt64.toNat_add, hheader, hsize]
    omega
  have hle : headerSize ≤ headerSize + data.size := by
    rw [UInt64.le_iff_toNat_le, htotal, hheader]
    omega
  have hcopy : Memory.copy (.fresh ((headerSize + data.size).toNat - headerSize.toNat)) 0
      data.data = some (data.data.map some) := by
    rw [htotal, hheader, Nat.add_sub_cancel_left, Memory.copy_of_le (by simp)]
    simp [Memory.fresh]
  refine ⟨{
    buffer := {
      header := {
        totalMemorySize := headerSize + data.size
        binarySize := data.size
        binaryCapacity := data.size
        referenceCount := 1
        isReferenceCountEnabled := true }
      binary := data.data.map some }
    bytes := data.data
    enabled := rfl
    count_one := rfl
    read_eq := ?_ }, ?_, rfl⟩
  · refine SharableBinary.read_of_take hsize ?_ ?_
    · exact Nat.le_of_eq (List.length_map some).symm
    · rw [← List.length_map (f := some), List.take_length]
  · simp only [ofData, allocateSharableBinary, SharableBinary.allocate, if_pos hle,
      Option.bind_eq_bind, Option.bind_some, enableReferenceCount, Bool.false_eq_true, if_false,
      hcopy, Option.pure_def]

end SerializedMessage

/-! ## Any number of handles -/

/-- `undefined` is set by an operation that has no defined behaviour. -/
structure MessageHandles where
  heap : Heap := []
  handles : Handles Nat := []
  undefined : Bool := false

inductive HandleOperation where
  /-- The environment says whether memory is available. -/
  | construct (data : Bytes) (available : Bool)
  | wrap (released : ReleasedBuffer)
  | copyConstruct (other : Nat)
  | moveConstruct (other : Nat)
  | copyAssign (this other : Nat)
  | moveAssign (this other : Nat)
  | destruct (this : Nat)

namespace MessageHandles

def orUndefined (s : MessageHandles) : Option MessageHandles → MessageHandles
  | some s => s
  | none => { s with undefined := true }

/-- A handle for a new buffer. -/
def push (s : MessageHandles) (buffer : SharableBinary) : MessageHandles :=
  { s with
    heap := s.heap ++ [some buffer]
    handles := s.handles ++ [some (some s.heap.length)] }

open SerializedMessage in
/-- The operation of the handles that it names, which must be there. -/
def apply (s : MessageHandles) : HandleOperation → Option MessageHandles
  | .construct data available =>
      -- otherwise `std::bad_alloc` is thrown
      some (if available then s.orUndefined ((ofData data).map s.push) else s)
  | .wrap released => some (s.push released.buffer)
  | .copyConstruct other => do
      let otherBuffer ← pointerAt s.handles other
      return s.orUndefined do
        let (heap, buffer) ← copyConstruct s.heap otherBuffer
        return { s with heap, handles := s.handles ++ [some buffer] }
  | .moveConstruct other => do
      let otherBuffer ← pointerAt s.handles other
      let (buffer, otherBuffer) := moveConstruct otherBuffer
      return { s with handles := s.handles.set other (some otherBuffer) ++ [some buffer] }
  | .copyAssign this other => do
      let buffer ← pointerAt s.handles this
      let otherBuffer ← pointerAt s.handles other
      return s.orUndefined do
        let (heap, buffer) ← copyAssign s.heap (this == other) buffer otherBuffer
        return { s with heap, handles := s.handles.set this (some buffer) }
  | .moveAssign this other => do
      let buffer ← pointerAt s.handles this
      let otherBuffer ← pointerAt s.handles other
      let (buffer, otherBuffer) := moveAssign buffer otherBuffer
      return { s with handles := (s.handles.set this (some buffer)).set other (some otherBuffer) }
  | .destruct this => do
      let buffer ← pointerAt s.handles this
      return s.orUndefined do
        let heap ← destruct s.heap buffer
        return { s with heap, handles := s.handles.set this none }

def step (s : MessageHandles) (op : HandleOperation) : Option MessageHandles :=
  if s.undefined then none else s.apply op

def machine : Machine MessageHandles HandleOperation where
  init := {}
  step := step

end MessageHandles

/-! ## Values of handles -/

/-- The bytes of every handle; a handle that has been moved from has none. -/
abbrev HandleValues := List (Option (Option (List UInt8)))

namespace HandleValues

def apply (v : HandleValues) : HandleOperation → HandleValues
  | .construct data available => if available then v ++ [some (some data.data)] else v
  | .wrap released => v ++ [some (some released.bytes)]
  | .copyConstruct other => v ++ [v[other]?.join]
  | .moveConstruct other => v.set other (some none) ++ [v[other]?.join]
  | .copyAssign this other => v.set this v[other]?.join
  | .moveAssign this other => (v.set this v[other]?.join).set other v[this]?.join
  | .destruct this => v.set this none

end HandleValues

namespace MessageHandles

def values (s : MessageHandles) : HandleValues := s.handles.map (heapStore.valueOf s.heap)

/-- What a step has to give: nothing undefined has happened, each buffer that is there counts the
handles that point to it, those without a handle are deallocated, and the handles have the values
that the operation says. -/
structure StepSound (s : MessageHandles) (op : HandleOperation) (t : MessageHandles) : Prop where
  defined : t.undefined = false
  counted : Counted t.heap.refCount t.handles
  values : t.values = s.values.apply op

/-- The handle that is copied points to a buffer, and the number of handles of this buffer does not
become too large. -/
def MayCopy (s : MessageHandles) (other : Nat) (replaced : Option Nat) : Prop :=
  ∃ address, pointerAt s.handles other = some (some address) ∧
    (replaced = some address ∨ (pointing s.handles address : Int) < maxCount)

/-- No handle is copied that was moved from, and no buffer gets more handles than an `int`
counts. -/
def Admissible (s : MessageHandles) : HandleOperation → Prop
  | .copyConstruct other => s.MayCopy other none
  | .copyAssign this other => this = other ∨ s.MayCopy other (pointerAt s.handles this).join
  | _ => True

/-! ## Steps -/

variable {s t : MessageHandles} {op : HandleOperation}

theorem releaseUnlessNull_eq (heap : Heap) (pointer : Option Nat) :
    heap.releaseUnlessNull pointer = heapStore.dropPointer heap pointer := by
  cases pointer with
  | none => rfl
  | some address => rfl

theorem values_of_pointer {handle : Nat} {pointer : Option Nat}
    (h : pointerAt s.handles handle = some pointer) :
    s.values[handle]?.join = heapStore.valueOf s.heap (some pointer) := by
  exact Store.join_map_valueOf h

/-- What every step keeps. -/
structure Inv (s : MessageHandles) : Prop where
  defined : s.undefined = false
  consistent : heapStore.Consistent s.heap s.handles

theorem inv_init : machine.init.Inv where
  defined := rfl
  consistent := {
    valid := fun _ _ h => by cases h
    counted := Counted.nil }

/-- A step that has defined behaviour, with what it keeps and the values that it gives. -/
def Correct (s : MessageHandles) (op : HandleOperation) (t : MessageHandles) : Prop :=
  t.Inv ∧ t.values = s.values.apply op

/-- A new buffer has one handle, with the value that is read from it. -/
theorem push_sound (h : s.Inv) (released : ReleasedBuffer) :
    (s.push released.buffer).Inv ∧
      (s.push released.buffer).values = s.values ++ [some (some released.bytes)] := by
  have hload := Heap.load_append s.heap released.buffer
  have hfresh : s.heap.refCount s.heap.length = none := by
    rw [Heap.refCount, Heap.load_length, Option.map_none]
  have hcounts : Heap.refCount (s.heap ++ [some released.buffer]) =
      acquire s.heap.refCount (some s.heap.length) := by
    funext address
    rw [Heap.refCount, hload, acquire, hfresh]
    by_cases heq : address = s.heap.length
    · rw [if_pos heq, heq, Function.update_self, Option.map_some, released.count_one]
      rfl
    · rw [if_neg heq, Function.update_of_ne heq, Heap.refCount]
  have hread : Heap.read (s.heap ++ [some released.buffer]) s.heap.length =
      some released.bytes := by
    rw [Heap.read, hload, if_pos rfl, Option.bind_some, released.read_eq]
  refine ⟨⟨h.defined, ⟨?_, ?_⟩⟩, ?_⟩
  · intro address buffer hbuffer
    rw [push, hload] at hbuffer
    split at hbuffer
    · cases hbuffer
      refine ⟨released.enabled, ?_⟩
      rw [released.read_eq, Option.isSome_some]
    · exact h.consistent.valid address buffer hbuffer
  · change Counted (Heap.refCount (s.heap ++ [some released.buffer])) _
    rw [hcounts]
    exact h.consistent.counted.acquire_append
  · rw [values, push, List.map_append, List.map_singleton, ← hread, values]
    congr 1
    apply Store.map_valueOf_congr
    intro address hpos
    have hne : address ≠ s.heap.length := by
      intro heq
      rw [heq] at hpos
      have hzero := (h.consistent.counted.eq_none_iff s.heap.length).mp hfresh
      omega
    change Heap.read (s.heap ++ [some released.buffer]) address = s.heap.read address
    rw [Heap.read, hload, if_neg hne, Heap.read]

theorem correct_construct (h : s.Inv) (data : Bytes) (available : Bool)
    (hstep : s.apply (.construct data available) = some t) :
    s.Correct (.construct data available) t := by
  cases available with
  | false =>
    cases hstep
    exact ⟨h, rfl⟩
  | true =>
    obtain ⟨released, hbuffer, hbytes⟩ := SerializedMessage.exists_ofData data
    rw [apply, if_pos rfl, hbuffer] at hstep
    cases hstep
    rw [Correct, HandleValues.apply, if_pos rfl, ← hbytes]
    exact push_sound h released

theorem correct_copyConstruct (h : s.Inv) {other : Nat} (hmay : s.MayCopy other none)
    (hstep : s.apply (.copyConstruct other) = some t) : s.Correct (.copyConstruct other) t := by
  obtain ⟨address, hother, hlt⟩ := hmay
  have hlt := hlt.resolve_left (fun hnone => nomatch hnone)
  obtain ⟨heap', hadded, hconsistent, hreads⟩ :=
    h.consistent.exists_add (pointerAt_eq_some.mp hother) hlt (pointing_append s.handles _)
  have hadded : s.heap.addReferenceCount (some address) = some heap' := hadded
  simp only [apply, hother, Option.bind_eq_bind, Option.bind_some, SerializedMessage.copyConstruct,
    hadded, Option.pure_def, orUndefined, Option.some.injEq] at hstep
  subst hstep
  refine ⟨⟨h.defined, hconsistent⟩, ?_⟩
  rw [values, Store.map_valueOf_congr fun address _ => hreads address, List.map_append,
    HandleValues.apply, values_of_pointer hother]
  rfl

theorem correct_moveConstruct (h : s.Inv) {other : Nat}
    (hstep : s.apply (.moveConstruct other) = some t) : s.Correct (.moveConstruct other) t := by
  obtain ⟨pointer, hother, hstep⟩ := Option.bind_eq_some_iff.mp hstep
  cases hstep
  refine ⟨⟨h.defined, ⟨h.consistent.valid, ?_⟩⟩, ?_⟩
  · exact h.consistent.counted.congr (pointing_move (pointerAt_eq_some.mp hother))
  · rw [HandleValues.apply, values_of_pointer hother, values, List.map_append, List.map_set]
    rfl

theorem correct_copyAssign (h : s.Inv) {this other : Nat}
    (hadm : this = other ∨ s.MayCopy other (pointerAt s.handles this).join)
    (hstep : s.apply (.copyAssign this other) = some t) : s.Correct (.copyAssign this other) t := by
  obtain ⟨buffer, hthis, hstep⟩ := Option.bind_eq_some_iff.mp hstep
  have hi := pointerAt_eq_some.mp hthis
  by_cases hsame : this = other
  · subst hsame
    have hself := set_self hi
    simp only [hthis, Option.bind_eq_bind, Option.bind_some, SerializedMessage.copyAssign,
      beq_self_eq_true, if_true, Option.pure_def, orUndefined, hself, Option.some.injEq] at hstep
    subst hstep
    refine ⟨h, ?_⟩
    rw [HandleValues.apply, values_of_pointer hthis, values, ← List.map_set, hself]
  · obtain ⟨address, hother, hlt⟩ := hadm.resolve_left hsame
    rw [hthis, Option.join_some] at hlt
    obtain ⟨heap₁, heap₂, hreleased, hadded, hconsistent, hreads⟩ :=
      h.consistent.exists_reassign hsame hi (pointerAt_eq_some.mp hother) hlt
    rw [← releaseUnlessNull_eq] at hreleased
    have hadded : heap₁.addReferenceCount (some address) = some heap₂ := hadded
    simp only [hother, Option.bind_eq_bind, Option.bind_some, SerializedMessage.copyAssign,
      beq_eq_false_iff_ne.mpr hsame, Bool.false_eq_true, if_false, hreleased, hadded,
      Option.pure_def, orUndefined, Option.some.injEq] at hstep
    subst hstep
    refine ⟨⟨h.defined, hconsistent⟩, ?_⟩
    rw [values, Store.map_valueOf_congr hreads, List.map_set, HandleValues.apply,
      values_of_pointer hother]
    rfl

theorem correct_moveAssign (h : s.Inv) {this other : Nat}
    (hstep : s.apply (.moveAssign this other) = some t) : s.Correct (.moveAssign this other) t := by
  obtain ⟨buffer, hthis, hstep⟩ := Option.bind_eq_some_iff.mp hstep
  obtain ⟨otherBuffer, hother, hstep⟩ := Option.bind_eq_some_iff.mp hstep
  cases hstep
  refine ⟨⟨h.defined, ⟨h.consistent.valid, ?_⟩⟩, ?_⟩
  · exact h.consistent.counted.congr
      (pointing_swap (pointerAt_eq_some.mp hthis) (pointerAt_eq_some.mp hother))
  · rw [HandleValues.apply, values_of_pointer hthis, values_of_pointer hother, values,
      List.map_set, List.map_set]
    rfl

theorem correct_destruct (h : s.Inv) {this : Nat} (hstep : s.apply (.destruct this) = some t) :
    s.Correct (.destruct this) t := by
  obtain ⟨buffer, hthis, hstep⟩ := Option.bind_eq_some_iff.mp hstep
  obtain ⟨heap', hreleased, hconsistent, hreads⟩ :=
    h.consistent.exists_drop (pointerAt_eq_some.mp hthis) none fun _ => rfl
  rw [← releaseUnlessNull_eq] at hreleased
  simp only [SerializedMessage.destruct, hreleased, Option.bind_eq_bind, Option.bind_some,
    Option.pure_def, orUndefined, Option.some.injEq] at hstep
  subst hstep
  refine ⟨⟨h.defined, hconsistent⟩, ?_⟩
  rw [values, Store.map_valueOf_congr hreads, List.map_set]
  rfl

theorem correct_of_admissible (h : s.Inv) (hadm : s.Admissible op)
    (hstep : machine.step s op = some t) : s.Correct op t := by
  have hstep : s.apply op = some t := (Option.ite_none_left_eq_some.mp hstep).2
  cases op with
  | construct data available => exact correct_construct h data available hstep
  | wrap released =>
    cases hstep
    exact push_sound h released
  | copyConstruct other => exact correct_copyConstruct h hadm hstep
  | moveConstruct other => exact correct_moveConstruct h hstep
  | copyAssign this other => exact correct_copyAssign h hadm hstep
  | moveAssign this other => exact correct_moveAssign h hstep
  | destruct this => exact correct_destruct h hstep

/-! ## Where a copy goes wrong -/

theorem mayCopy_of_copyConstruct (h : s.Inv) {other : Nat}
    (hstep : s.apply (.copyConstruct other) = some t) (hdefined : t.undefined = false)
    (hcounted : Counted t.heap.refCount t.handles) : s.MayCopy other none := by
  obtain ⟨pointer, hother, hstep⟩ := Option.bind_eq_some_iff.mp hstep
  cases pointer with
  | none =>
    cases hstep
    cases hdefined
  | some address =>
    refine ⟨address, hother, .inr ?_⟩
    by_contra hmax
    have hi := pointerAt_eq_some.mp hother
    cases hadded : s.heap.addReferenceCount (some address) with
    | none =>
      simp only [SerializedMessage.copyConstruct, hadded, Option.bind_eq_bind, Option.bind_none,
        orUndefined, Option.pure_def, Option.some.injEq] at hstep
      subst hstep
      cases hdefined
    | some heap' =>
      simp only [SerializedMessage.copyConstruct, hadded, Option.bind_eq_bind, Option.bind_some,
        orUndefined, Option.pure_def, Option.some.injEq] at hstep
      subst hstep
      exact h.consistent.not_counted_of_add hi hmax hadded _ hcounted

theorem mayCopy_of_copyAssign (h : s.Inv) {this other : Nat} (hne : this ≠ other)
    (hstep : s.apply (.copyAssign this other) = some t) (hdefined : t.undefined = false)
    (hcounted : Counted t.heap.refCount t.handles) :
    s.MayCopy other (pointerAt s.handles this).join := by
  obtain ⟨buffer, hthis, hstep⟩ := Option.bind_eq_some_iff.mp hstep
  obtain ⟨pointer, hother, hstep⟩ := Option.bind_eq_some_iff.mp hstep
  have hi := pointerAt_eq_some.mp hthis
  obtain ⟨heap₁, hdropped, -, -⟩ := h.consistent.exists_drop hi (some none) fun _ => rfl
  have hreleased := (releaseUnlessNull_eq s.heap buffer).trans hdropped
  simp only [SerializedMessage.copyAssign, beq_eq_false_iff_ne.mpr hne, Bool.false_eq_true,
    if_false, hreleased, Option.bind_eq_bind, Option.bind_some] at hstep
  cases pointer with
  | none =>
    cases hstep
    cases hdefined
  | some address =>
    refine ⟨address, hother, ?_⟩
    rw [hthis, Option.join_some]
    by_contra hmax
    cases hadded : heap₁.addReferenceCount (some address) with
    | none =>
      simp only [hadded, Option.bind_none, orUndefined, Option.pure_def, Option.some.injEq] at hstep
      subst hstep
      cases hdefined
    | some heap₂ =>
      simp only [hadded, Option.bind_some, orUndefined, Option.pure_def, Option.some.injEq] at hstep
      subst hstep
      exact h.consistent.not_counted_of_reassign hne hi (pointerAt_eq_some.mp hother) hmax hdropped
        hadded _ hcounted

theorem admissible_of_sound (h : s.Inv) (hsound : s.StepSound op t)
    (hstep : machine.step s op = some t) : s.Admissible op := by
  have hstep : s.apply op = some t := (Option.ite_none_left_eq_some.mp hstep).2
  cases op with
  | copyConstruct other =>
    exact mayCopy_of_copyConstruct h hstep hsound.defined hsound.counted
  | copyAssign this other =>
    by_cases hsame : this = other
    · exact .inl hsame
    · exact .inr (mayCopy_of_copyAssign h hsame hstep hsound.defined hsound.counted)
  | construct data available => trivial
  | wrap released => trivial
  | moveConstruct other => trivial
  | moveAssign this other => trivial
  | destruct this => trivial

theorem stepSound_iff (h : s.Inv) (hstep : machine.step s op = some t) :
    s.StepSound op t ↔ s.Admissible op := by
  constructor
  · intro hsound
    exact admissible_of_sound h hsound hstep
  · intro hadm
    obtain ⟨hinv, hvalues⟩ := correct_of_admissible h hadm hstep
    exact {
      defined := hinv.defined
      counted := hinv.consistent.counted
      values := hvalues }

/-- The handles of a run are sound at every step exactly when every copy is one that may be made. -/
theorem handles_sound_iff (ops : List HandleOperation) :
    machine.Meets StepSound machine.init ops ↔
      machine.Meets (fun s op _ => s.Admissible op) machine.init ops := by
  have hkeep : ∀ s op t, Inv s → s.Admissible op → machine.step s op = some t → Inv t :=
    fun s op t h hadm hstep => (correct_of_admissible h hadm hstep).1
  exact Machine.meets_congr hkeep (fun s op t h hstep => stepSound_iff h hstep) inv_init

/-- After a run the handles have the values that the operations say, one after the other. -/
theorem values_of_run {ops : List HandleOperation} (h : s.Inv)
    (hadm : machine.Meets (fun s op _ => s.Admissible op) s ops)
    (hrun : machine.run s ops = some t) : t.values = ops.foldl HandleValues.apply s.values := by
  induction ops generalizing s with
  | nil =>
    cases hrun
    rfl
  | cons op ops ih =>
    obtain ⟨next, hstep, hrest⟩ := Machine.run_cons hrun
    rw [Machine.meets_cons hstep] at hadm
    obtain ⟨hinv, hvalues⟩ := correct_of_admissible h hadm.1 hstep
    rw [List.foldl_cons, ← hvalues]
    exact ih hinv hadm.2 hrest

/-- A message is moved away and its empty handle is copied. -/
theorem copy_of_moved_is_undefined :
    ¬ ∀ ops : List HandleOperation, machine.Meets StepSound machine.init ops := by
  intro h
  have hrun := h [.construct { data := [1, 2, 3] } true, .moveConstruct 0, .copyConstruct 0]
  obtain ⟨-, -, hsound, -⟩ := hrun
  cases hsound.defined

end MessageHandles

end MsgpackRpc.Messages
