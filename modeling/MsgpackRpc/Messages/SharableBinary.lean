import MsgpackRpc.Lib.RefCount
import MsgpackRpc.Lib.SignedOverflow
import Mathlib.Data.List.Basic

/-!
# Sharable binary data

A block of memory with a `SharableBinaryHeader` and the bytes behind it.  A function that gives
`none` has no defined behaviour: an assertion fails, or it uses memory that is not there.
-/

namespace MsgpackRpc.Messages

structure SharableBinaryHeader where
  totalMemorySize : UInt64
  binarySize : UInt64
  binaryCapacity : UInt64
  /-- The object in `reference_count_buffer`, which is not there before the count is enabled. -/
  referenceCount : Int32 := 0
  isReferenceCountEnabled : Bool := false
  deriving DecidableEq, Repr

/-- `sizeof(SharableBinaryHeader)` -/
def headerSize : UInt64 := 32

/-- The bytes of an array, whose size a `std::ptrdiff_t` has to hold. -/
structure Bytes where
  data : List UInt8
  size_lt : data.length < 2 ^ 63 := by decide
  deriving DecidableEq, Repr

def Bytes.size (bytes : Bytes) : UInt64 := UInt64.ofNat bytes.data.length

theorem Bytes.toNat_size (bytes : Bytes) : bytes.size.toNat = bytes.data.length := by
  have hlt := bytes.size_lt
  exact UInt64.toNat_ofNat_of_lt' (Nat.lt_trans hlt (by decide))

/-! ## Memory -/

/-- Memory of which nothing is known where nothing was written. -/
abbrev Memory := List (Option UInt8)

namespace Memory

/-- What `malloc` gives. -/
def fresh (size : Nat) : Memory := List.replicate size none

/-- `realloc`: the beginning stays. -/
def resize (memory : Memory) (size : Nat) : Memory :=
  memory.take size ++ fresh (size - memory.length)

/-- `memcpy` -/
def copy (memory : Memory) (offset : Nat) (data : List UInt8) : Option Memory :=
  if offset + data.length ≤ memory.length then
    some (memory.take offset ++ data.map some ++ memory.drop (offset + data.length))
  else
    none

/-- The bytes of memory that was written everywhere. -/
def written : Memory → Option (List UInt8)
  | [] => some []
  | none :: _ => none
  | some byte :: memory => (written memory).map (byte :: ·)

@[simp] theorem length_fresh (size : Nat) : (fresh size).length = size := List.length_replicate

@[simp] theorem length_resize (memory : Memory) (size : Nat) :
    (memory.resize size).length = size := by
  rw [resize, List.length_append, length_fresh, List.length_take]
  omega

theorem take_resize (memory : Memory) {n size : Nat} (hn : n ≤ memory.length) (hsize : n ≤ size) :
    (memory.resize size).take n = memory.take n := by
  rw [resize, List.take_append_of_le_length (by rw [List.length_take]; omega), List.take_take,
    Nat.min_eq_left hsize]

theorem copy_of_le {memory : Memory} {offset : Nat} {data : List UInt8}
    (h : offset + data.length ≤ memory.length) :
    memory.copy offset data =
      some (memory.take offset ++ data.map some ++ memory.drop (offset + data.length)) :=
  if_pos h

@[simp] theorem written_map_some (data : List UInt8) : written (data.map some) = some data := by
  induction data with
  | nil => rfl
  | cons byte data ih => rw [List.map_cons, written, ih, Option.map_some]

end Memory

structure SharableBinary where
  header : SharableBinaryHeader
  /-- The memory behind the header. -/
  binary : Memory
  deriving DecidableEq, Repr

namespace SharableBinary

/-- What can be read through `data()` and `size()`. -/
def read (buffer : SharableBinary) : Option (List UInt8) :=
  if buffer.header.binarySize.toNat ≤ buffer.binary.length then
    Memory.written (buffer.binary.take buffer.header.binarySize.toNat)
  else
    none

theorem read_of_take {buffer : SharableBinary} {data : List UInt8}
    (hsize : buffer.header.binarySize.toNat = data.length)
    (hle : data.length ≤ buffer.binary.length)
    (htake : buffer.binary.take data.length = data.map some) : buffer.read = some data := by
  rw [read, hsize, if_pos hle, htake, Memory.written_map_some]

/-- The memory that `malloc` gives for a header and the bytes behind it. -/
def allocate (totalMemorySize binarySize binaryCapacity : UInt64) : Option SharableBinary :=
  if headerSize ≤ totalMemorySize then
    some {
      header := { totalMemorySize, binarySize, binaryCapacity }
      binary := .fresh (totalMemorySize.toNat - headerSize.toNat) }
  else
    none

end SharableBinary

open SharableBinary

/-- `allocate_sharable_binary` -/
def allocateSharableBinary (binarySize : UInt64) : Option SharableBinary :=
  let totalMemorySize := headerSize + binarySize
  allocate totalMemorySize binarySize binarySize

/-- `allocate_shared_binary` -/
def allocateSharedBinary : Option SharableBinary :=
  let totalMemorySize : UInt64 := 128
  allocate totalMemorySize 0 (totalMemorySize - headerSize)

/-- `enable_reference_count_of_sharable_binary` -/
def enableReferenceCount (buffer : SharableBinary) : Option SharableBinary :=
  if buffer.header.isReferenceCountEnabled then none
  else
    some { buffer with
      header := { buffer.header with referenceCount := 1, isReferenceCountEnabled := true } }

/-! ## The heap -/

/-- Where a buffer is; a buffer that was deallocated is `none`. -/
abbrev Heap := List (Option SharableBinary)

namespace Heap

def load (heap : Heap) (address : Nat) : Option SharableBinary := heap[address]?.join

/-- `reference_count_of`, with the buffer that has the count. -/
def referenceCountOf (heap : Heap) (pointer : Option Nat) : Option (Nat × SharableBinary) := do
  let address ← pointer
  let buffer ← heap.load address
  if buffer.header.isReferenceCountEnabled then some (address, buffer) else none

def store (heap : Heap) (address : Nat) (buffer : SharableBinary) (count : Int32) : Heap :=
  heap.set address (some { buffer with header := { buffer.header with referenceCount := count } })

/-- `add_reference_count_of_sharable_binary` -/
def addReferenceCount (heap : Heap) (pointer : Option Nat) : Option Heap := do
  let (address, buffer) ← heap.referenceCountOf pointer
  return heap.store address buffer (buffer.header.referenceCount + 1)

/-- `deallocate_sharable_binary` -/
def deallocate (heap : Heap) : Option Nat → Option Heap
  | none => some heap
  | some address => (heap.load address).map fun _ => heap.set address none

/-- `decrease_reference_count_of_sharable_binary` -/
def decreaseReferenceCount (heap : Heap) (pointer : Option Nat) : Option Heap := do
  let (address, buffer) ← heap.referenceCountOf pointer
  let before := buffer.header.referenceCount
  let heap := heap.store address buffer (before - 1)
  if before = 1 then heap.deallocate pointer else return heap

/-- `if (buffer_ != nullptr) { decrease_reference_count_of_sharable_binary(buffer_); }` -/
def releaseUnlessNull (heap : Heap) : Option Nat → Option Heap
  | none => some heap
  | some address => heap.decreaseReferenceCount (some address)

/-! ### What the functions do to the heap -/

/-- The counts of the buffers that are there. -/
def refCount (heap : Heap) (address : Nat) : Option Int :=
  (heap.load address).map fun buffer => buffer.header.referenceCount.toInt

def read (heap : Heap) (address : Nat) : Option (List UInt8) :=
  (heap.load address).bind SharableBinary.read

/-- Every buffer has a count and bytes to read. -/
def Shared (heap : Heap) : Prop :=
  ∀ address buffer, heap.load address = some buffer →
    buffer.header.isReferenceCountEnabled = true ∧ buffer.read.isSome

variable {heap heap' : Heap} {address : Nat} {buffer : SharableBinary}

theorem lt_length_of_load (h : heap.load address = some buffer) : address < heap.length := by
  rw [load, Option.join_eq_some_iff] at h
  exact (List.getElem?_eq_some_iff.mp h).1

theorem load_set (h : address < heap.length) (x : Option SharableBinary) (address' : Nat) :
    load (heap.set address x) address' = if address' = address then x else heap.load address' := by
  unfold load
  by_cases heq : address' = address
  · rw [if_pos heq, heq, List.getElem?_set_self h, Option.join_some]
  · rw [if_neg heq, List.getElem?_set_ne (Ne.symm heq)]

theorem load_append (heap : Heap) (buffer : SharableBinary) (address : Nat) :
    load (heap ++ [some buffer]) address =
      if address = heap.length then some buffer else heap.load address := by
  unfold load
  split
  · rename_i heq
    rw [heq, List.getElem?_concat_length, Option.join_some]
  · rename_i hne
    by_cases hlt : address < heap.length
    · rw [List.getElem?_append_left hlt]
    · have hle : (heap ++ [some buffer]).length ≤ address := by
        rw [List.length_append, List.length_singleton]
        omega
      rw [List.getElem?_eq_none hle, List.getElem?_eq_none (Nat.le_of_not_lt hlt)]

theorem load_length (heap : Heap) : heap.load heap.length = none := by
  rw [load, List.getElem?_eq_none (Nat.le_refl _), Option.join_none]

theorem referenceCountOf_some (hshared : heap.Shared) (h : heap.load address = some buffer) :
    heap.referenceCountOf (some address) = some (address, buffer) := by
  simp only [referenceCountOf, Option.bind_eq_bind, Option.bind_some, h,
    (hshared address buffer h).1, if_true]

theorem load_store (h : heap.load address = some buffer) (count : Int32) (address' : Nat) :
    load (heap.store address buffer count) address' =
      if address' = address then
        some { buffer with header := { buffer.header with referenceCount := count } }
      else heap.load address' :=
  load_set (lt_length_of_load h) _ address'

theorem shared_store (hshared : heap.Shared) (h : heap.load address = some buffer) (count : Int32) :
    (heap.store address buffer count).Shared := by
  intro address' buffer' h'
  rw [load_store h] at h'
  split at h'
  · cases h'
    exact hshared address buffer h
  · exact hshared address' buffer' h'

theorem read_store (h : heap.load address = some buffer) (count : Int32) (address' : Nat) :
    (heap.store address buffer count).read address' = heap.read address' := by
  rw [read, load_store h, read]
  split
  · rename_i heq
    rw [heq, h]
    rfl
  · rfl

theorem refCount_store (h : heap.load address = some buffer) (count : Int32) :
    (heap.store address buffer count).refCount =
      Function.update heap.refCount address (some count.toInt) := by
  funext address'
  rw [refCount, load_store h]
  by_cases heq : address' = address
  · rw [if_pos heq, heq, Function.update_self, Option.map_some]
  · rw [if_neg heq, Function.update_of_ne heq, refCount]

/-- Deallocating frees the buffer and leaves the others. -/
theorem deallocate_of_load (hshared : heap.Shared) (h : heap.load address = some buffer) :
    ∃ heap', heap.deallocate (some address) = some heap' ∧ heap'.Shared ∧
      heap'.refCount = Function.update heap.refCount address none ∧
      ∀ address', address' ≠ address → heap'.read address' = heap.read address' := by
  have hset := load_set (lt_length_of_load h) none
  refine ⟨heap.set address none, ?_, ?_, ?_, ?_⟩
  · rw [deallocate, h, Option.map_some]
  · intro address' buffer' h'
    rw [hset] at h'
    split at h'
    · cases h'
    · exact hshared address' buffer' h'
  · funext address'
    rw [refCount, hset]
    by_cases heq : address' = address
    · rw [if_pos heq, heq, Function.update_self, Option.map_none]
    · rw [if_neg heq, Function.update_of_ne heq, refCount]
  · intro address' hne
    rw [read, hset, if_neg hne, read]

theorem exists_load_of_refCount {n : Int} (h : heap.refCount address = some n) :
    ∃ buffer, heap.load address = some buffer ∧ buffer.header.referenceCount.toInt = n :=
  Option.map_eq_some_iff.mp h

theorem addReferenceCount_eq (hshared : heap.Shared) (h : heap.load address = some buffer) :
    heap.addReferenceCount (some address) =
      some (heap.store address buffer (buffer.header.referenceCount + 1)) := by
  rw [addReferenceCount, referenceCountOf_some hshared h]
  rfl

/-- One handle less: the last one deallocates the buffer. -/
theorem decreaseReferenceCount_of_pos (hshared : heap.Shared) (h : heap.load address = some buffer)
    (hpos : 0 < buffer.header.referenceCount.toInt) :
    ∃ heap', heap.decreaseReferenceCount (some address) = some heap' ∧ heap'.Shared ∧
      heap'.refCount = RefCount.release heap.refCount (some address) ∧
      ∀ address', heap'.refCount address' ≠ none → heap'.read address' = heap.read address' := by
  have hcount : heap.refCount address = some buffer.header.referenceCount.toInt := by
    rw [refCount, h, Option.map_some]
  have hshared₁ := shared_store hshared h (buffer.header.referenceCount - 1)
  have hcounts₁ := refCount_store h (buffer.header.referenceCount - 1)
  have hreads₁ := read_store h (buffer.header.referenceCount - 1)
  by_cases hlast : buffer.header.referenceCount = 1
  · have hone : buffer.header.referenceCount.toInt = 1 := by
      rw [hlast]
      rfl
    have hload : (heap.store address buffer (buffer.header.referenceCount - 1)).load address =
        some { buffer with header :=
          { buffer.header with referenceCount := buffer.header.referenceCount - 1 } } := by
      rw [load_store h, if_pos rfl]
    obtain ⟨heap₂, hfreed, hshared₂, hcounts₂, hreads₂⟩ := deallocate_of_load hshared₁ hload
    refine ⟨heap₂, ?_, hshared₂, ?_, ?_⟩
    · simp only [decreaseReferenceCount, referenceCountOf_some hshared h, Option.bind_eq_bind,
        Option.bind_some, if_pos hlast, hfreed]
    · rw [hcounts₂, hcounts₁, Function.update_idem, RefCount.release, hcount, Option.bind_some,
        if_pos hone]
    · intro address' hlive
      have hne : address' ≠ address := by
        rintro rfl
        rw [hcounts₂, Function.update_self] at hlive
        exact hlive rfl
      rw [hreads₂ address' hne, hreads₁]
  · have hne : buffer.header.referenceCount.toInt ≠ 1 := by
      intro hone
      exact hlast (Int32.toInt_inj.mp hone)
    refine ⟨_, ?_, hshared₁, ?_, fun address' _ => hreads₁ address'⟩
    · simp only [decreaseReferenceCount, referenceCountOf_some hshared h, Option.bind_eq_bind,
        Option.bind_some, if_neg hlast, Option.pure_def]
    · rw [hcounts₁, SignedOverflow.toInt_sub_one hpos, RefCount.release, hcount,
        Option.bind_some, if_neg hne]

end Heap

open SignedOverflow in
/-- The heap as a store of counted buffers. -/
def heapStore : RefCount.Store Heap Nat (List UInt8) where
  count := Heap.refCount
  value := Heap.read
  add heap address := heap.addReferenceCount (some address)
  drop heap address := heap.decreaseReferenceCount (some address)
  maxCount := maxCount
  Valid := Heap.Shared
  count_le heap address n h := by
    obtain ⟨buffer, -, rfl⟩ := Heap.exists_load_of_refCount h
    exact toInt_le_maxCount buffer.header.referenceCount
  add_of_lt heap address n hshared h _ hlt := by
    obtain ⟨buffer, hload, rfl⟩ := Heap.exists_load_of_refCount h
    refine ⟨_, Heap.addReferenceCount_eq hshared hload, Heap.shared_store hshared hload _, ?_,
      Heap.read_store hload _⟩
    rw [Heap.refCount_store hload, toInt_add_one hlt, RefCount.acquire, h, Option.getD_some]
  add_of_max heap heap' address hshared h hadded := by
    obtain ⟨buffer, hload, hmax⟩ := Heap.exists_load_of_refCount h
    rw [Heap.addReferenceCount_eq hshared hload] at hadded
    cases hadded
    refine ⟨-2 ^ 31, ?_, by decide⟩
    rw [Heap.refCount_store hload, Function.update_self, toInt_add_one_of_max hmax]
  drop_of_pos heap address n hshared h hpos := by
    obtain ⟨buffer, hload, rfl⟩ := Heap.exists_load_of_refCount h
    exact Heap.decreaseReferenceCount_of_pos hshared hload hpos

end MsgpackRpc.Messages
