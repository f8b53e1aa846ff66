import MsgpackRpc.Messages.SerializedMessage
import Mathlib.Algebra.BigOperators.Group.List.Basic
import Mathlib.Algebra.GroupWithZero.Nat

/-!
# The buffer for serialization

`SerializationBuffer` appends what it is given to a block of memory and doubles the capacity of the
block until the data fits.  The sizes are 64-bit numbers that wrap around; `ExactWrite` says what a
write does to them in numbers that do not.
-/

namespace MsgpackRpc.Messages

/-- The loop of `expand_sharable_binary`, which doubles at most `fuel` times. -/
def doubleCapacity : Nat → UInt64 → UInt64 → Option UInt64
  | 0, _, _ => none
  | fuel + 1, capacity, requiredSize =>
      let capacity := capacity <<< 1
      if capacity ≥ requiredSize then some capacity
      else doubleCapacity fuel capacity requiredSize

/-- `expand_sharable_binary`, where memory is available. -/
def expandSharableBinary (fuel : Nat) (buffer : SharableBinary) (requiredSize : UInt64) :
    Option SharableBinary :=
  -- the assertion
  if buffer.header.isReferenceCountEnabled then none
  else do
    let newCapacity ← doubleCapacity fuel buffer.header.binaryCapacity requiredSize
    let newTotalMemorySize := headerSize + newCapacity
    -- the header would not be in the memory
    if newTotalMemorySize < headerSize then none
    else
      return {
        header := { buffer.header with
          totalMemorySize := newTotalMemorySize
          binaryCapacity := newTotalMemorySize - headerSize }
        binary := buffer.binary.resize (newTotalMemorySize - headerSize).toNat }

/-- `buffer_` is null after `release`. -/
structure SerializationBuffer where
  buffer : Option SharableBinary
  deriving DecidableEq, Repr

namespace SerializationBuffer

/-- The constructor, where memory is available. -/
def create : Option SerializationBuffer := do
  let buffer ← allocateSharedBinary
  return { buffer := some buffer }

def write (fuel : Nat) (s : SerializationBuffer) (data : Bytes) : Option SerializationBuffer := do
  let buffer ← s.buffer
  let size := data.size
  let buffer ←
    if buffer.header.binarySize + size > buffer.header.binaryCapacity then
      expandSharableBinary fuel buffer (buffer.header.binarySize + size)
    else
      some buffer
  let binary ← buffer.binary.copy buffer.header.binarySize.toNat data.data
  return { buffer := some {
    header := { buffer.header with binarySize := buffer.header.binarySize + size }
    binary } }

/-- The buffer of the message that is returned. -/
def release (s : SerializationBuffer) : Option (SharableBinary × SerializationBuffer) := do
  let buffer ← s.buffer
  let buffer ← enableReferenceCount buffer
  return (buffer, { buffer := none })

/-- A fresh buffer after a sequence of writes. -/
def writeAll (fuel : Nat) (writes : List Bytes) : Option SerializationBuffer := do
  let s ← create
  writes.foldlM (write fuel) s

end SerializationBuffer

/-! ## Sizes that do not wrap around -/

/-- The sizes in a header, as numbers. -/
structure Sizes where
  binarySize : Nat
  binaryCapacity : Nat
  totalMemorySize : Nat
  deriving DecidableEq, Repr

def SharableBinaryHeader.sizes (header : SharableBinaryHeader) : Sizes where
  binarySize := header.binarySize.toNat
  binaryCapacity := header.binaryCapacity.toNat
  totalMemorySize := header.totalMemorySize.toNat

/-- A write of `size` bytes.  The capacity is doubled as often as it takes, and at least once when
it is too small. -/
structure ExactWrite (s : Sizes) (size : Nat) (s' : Sizes) : Prop where
  size_eq : s'.binarySize = s.binarySize + size
  total_eq : s'.totalMemorySize = headerSize.toNat + s'.binaryCapacity
  enough : s'.binarySize ≤ s'.binaryCapacity
  grows : ∃ rounds, s'.binaryCapacity = s.binaryCapacity * 2 ^ rounds ∧
    ∀ round < rounds, s.binaryCapacity * 2 ^ round < s'.binarySize

theorem toNat_shiftLeft_one {capacity : UInt64} (h : capacity.toNat < 2 ^ 63) :
    (capacity <<< 1).toNat = capacity.toNat * 2 := by
  rw [UInt64.toNat_shiftLeft, Nat.shiftLeft_eq]
  change capacity.toNat * 2 % 2 ^ 64 = capacity.toNat * 2
  omega

/-- The loop ends with the first doubling that is enough. -/
theorem exists_doubleCapacity (fuel : Nat) (capacity requiredSize : UInt64)
    (hsmall : capacity.toNat < requiredSize.toNat) (hrequired : requiredSize.toNat ≤ 2 ^ 62)
    (hfuel : requiredSize.toNat ≤ capacity.toNat * 2 ^ fuel) :
    ∃ newCapacity rounds, doubleCapacity fuel capacity requiredSize = some newCapacity ∧
      newCapacity.toNat = capacity.toNat * 2 ^ rounds ∧
      (∀ round < rounds, capacity.toNat * 2 ^ round < requiredSize.toNat) ∧
      requiredSize.toNat ≤ capacity.toNat * 2 ^ rounds ∧
      capacity.toNat * 2 ^ rounds < 2 ^ 63 := by
  induction fuel generalizing capacity with
  | zero =>
    rw [Nat.pow_zero, Nat.mul_one] at hfuel
    omega
  | succ fuel ih =>
    have hdouble : (capacity <<< 1).toNat = capacity.toNat * 2 := toNat_shiftLeft_one (by omega)
    have hpow : ∀ n, capacity.toNat * 2 ^ (n + 1) = (capacity <<< 1).toNat * 2 ^ n := by
      intro n
      rw [hdouble, Nat.pow_succ, Nat.mul_assoc, Nat.mul_comm (2 ^ n) 2]
    rw [doubleCapacity]
    by_cases henough : capacity <<< 1 ≥ requiredSize
    · rw [if_pos henough]
      rw [ge_iff_le, UInt64.le_iff_toNat_le, hdouble] at henough
      refine ⟨_, 1, rfl, hdouble, ?_, henough, by omega⟩
      intro round hround
      obtain rfl : round = 0 := by omega
      rw [Nat.pow_zero, Nat.mul_one]
      exact hsmall
    · rw [if_neg henough]
      rw [ge_iff_le, UInt64.le_iff_toNat_le] at henough
      rw [hpow] at hfuel
      obtain ⟨newCapacity, rounds, hloop, hnew, hrounds, hlast, hlt⟩ :=
        ih (capacity <<< 1) (Nat.lt_of_not_le henough) hfuel
      refine ⟨newCapacity, rounds + 1, hloop, ?_, ?_, ?_, ?_⟩
      · rw [hnew, hpow]
      · intro round hround
        cases round with
        | zero =>
          rw [Nat.pow_zero, Nat.mul_one]
          exact hsmall
        | succ round =>
          rw [hpow]
          exact hrounds round (by omega)
      · rw [hpow]
        exact hlast
      · rw [hpow]
        exact hlt

/-! ## Writes -/

/-- A buffer that has these bytes. -/
structure Contains (buffer : SharableBinary) (bytes : List UInt8) : Prop where
  disabled : buffer.header.isReferenceCountEnabled = false
  capacity_pos : 0 < buffer.header.binaryCapacity.toNat
  total_eq : buffer.header.totalMemorySize.toNat =
    headerSize.toNat + buffer.header.binaryCapacity.toNat
  memory_eq : buffer.binary.length = buffer.header.binaryCapacity.toNat
  size_eq : buffer.header.binarySize.toNat = bytes.length
  size_le : bytes.length ≤ buffer.binary.length
  written : buffer.binary.take bytes.length = bytes.map some

namespace Contains

variable {buffer : SharableBinary} {bytes : List UInt8} {data : Bytes}

theorem read_eq (h : Contains buffer bytes) : buffer.read = some bytes :=
  SharableBinary.read_of_take h.size_eq h.size_le h.written

theorem create :
    ∃ buffer, SerializationBuffer.create = some { buffer := some buffer } ∧ Contains buffer [] := by
  refine ⟨{
    header := { totalMemorySize := 128, binarySize := 0, binaryCapacity := 96 }
    binary := .fresh 96 }, rfl, ?_⟩
  exact {
    disabled := rfl
    capacity_pos := by decide
    total_eq := rfl
    memory_eq := by simp
    size_eq := rfl
    size_le := Nat.zero_le _
    written := rfl }

/-- The sum of the sizes does not wrap around. -/
theorem toNat_size_add (h : Contains buffer bytes)
    (hle : bytes.length + data.data.length ≤ 2 ^ 62) :
    (buffer.header.binarySize + data.size).toNat = bytes.length + data.data.length := by
  rw [UInt64.toNat_add, h.size_eq, data.toNat_size]
  omega

/-- More room leaves the bytes as they are. -/
theorem exists_expand (h : Contains buffer bytes)
    (hle : bytes.length + data.data.length ≤ 2 ^ 62) {fuel : Nat} (hfuel : 62 ≤ fuel)
    (hsmall : buffer.header.binaryCapacity.toNat < bytes.length + data.data.length) :
    ∃ expanded rounds, expandSharableBinary fuel buffer (buffer.header.binarySize + data.size) =
        some expanded ∧ Contains expanded bytes ∧
      bytes.length + data.data.length ≤ expanded.binary.length ∧
      (∀ round < rounds, buffer.header.binaryCapacity.toNat * 2 ^ round <
        bytes.length + data.data.length) ∧
      expanded.header.binaryCapacity.toNat = buffer.header.binaryCapacity.toNat * 2 ^ rounds := by
  have hsum := h.toNat_size_add hle
  have hpos := h.capacity_pos
  have henoughFuel : bytes.length + data.data.length ≤
      buffer.header.binaryCapacity.toNat * 2 ^ fuel :=
    calc bytes.length + data.data.length
        ≤ 2 ^ 62 := hle
      _ ≤ 2 ^ fuel := Nat.pow_le_pow_right (by decide) hfuel
      _ ≤ buffer.header.binaryCapacity.toNat * 2 ^ fuel := Nat.le_mul_of_pos_left _ hpos
  obtain ⟨newCapacity, rounds, hloop, hnew, hrounds, henough, hlt⟩ :=
    exists_doubleCapacity fuel buffer.header.binaryCapacity
      (buffer.header.binarySize + data.size) (by omega) (by omega) (by omega)
  rw [hsum] at hrounds henough
  have hheader : headerSize.toNat = 32 := rfl
  have htotal : (headerSize + newCapacity).toNat = headerSize.toNat + newCapacity.toNat := by
    rw [UInt64.toNat_add]
    omega
  have hthere : ¬ headerSize + newCapacity < headerSize := by
    rw [UInt64.lt_iff_toNat_lt]
    omega
  have hcapacity : headerSize + newCapacity - headerSize = newCapacity := by
    rw [UInt64.add_comm, UInt64.add_sub_cancel]
  have hmemory := h.memory_eq
  have hroom : newCapacity.toNat = (buffer.binary.resize newCapacity.toNat).length := by
    rw [Memory.length_resize]
  refine ⟨{
    header := { buffer.header with
      totalMemorySize := headerSize + newCapacity
      binaryCapacity := newCapacity }
    binary := buffer.binary.resize newCapacity.toNat }, rounds, ?_, ?_, ?_, hrounds, hnew⟩
  · simp only [expandSharableBinary, h.disabled, Bool.false_eq_true, if_false, hloop,
      Option.bind_eq_bind, Option.bind_some, if_neg hthere, hcapacity, Option.pure_def]
  · have hsize := h.size_le
    exact {
      disabled := h.disabled
      capacity_pos := by
        change 0 < newCapacity.toNat
        omega
      total_eq := htotal
      memory_eq := hroom.symm
      size_eq := h.size_eq
      size_le := by
        change bytes.length ≤ (buffer.binary.resize newCapacity.toNat).length
        omega
      written := (Memory.take_resize _ hsize (by omega)).trans h.written }
  · change _ ≤ (buffer.binary.resize newCapacity.toNat).length
    omega

/-- Copying behind the bytes appends to them. -/
theorem exists_copy (h : Contains buffer bytes)
    (hroom : bytes.length + data.data.length ≤ buffer.binary.length)
    (hle : bytes.length + data.data.length ≤ 2 ^ 62) :
    ∃ binary, buffer.binary.copy buffer.header.binarySize.toNat data.data = some binary ∧
      Contains {
        header := { buffer.header with binarySize := buffer.header.binarySize + data.size }
        binary } (bytes ++ data.data) := by
  have hwritten : buffer.binary.take bytes.length ++ data.data.map some =
      (bytes ++ data.data).map some := by
    rw [h.written, List.map_append]
  have hlength : (buffer.binary.take bytes.length ++ data.data.map some ++
      buffer.binary.drop (bytes.length + data.data.length)).length = buffer.binary.length := by
    rw [hwritten, List.length_append, List.length_map, List.length_append, List.length_drop]
    omega
  refine ⟨_, by rw [h.size_eq]; exact Memory.copy_of_le hroom, ?_⟩
  exact {
    disabled := h.disabled
    capacity_pos := h.capacity_pos
    total_eq := h.total_eq
    memory_eq := hlength.trans h.memory_eq
    size_eq := by
      rw [List.length_append]
      exact h.toNat_size_add hle
    size_le := by
      rw [hlength, List.length_append]
      exact hroom
    written := by
      dsimp only
      rw [hwritten]
      exact List.take_left' (List.length_map some) }

theorem exactWrite {buffer' : SharableBinary} (h : Contains buffer bytes)
    (h' : Contains buffer' (bytes ++ data.data)) (rounds : Nat)
    (hcapacity : buffer'.header.binaryCapacity.toNat =
      buffer.header.binaryCapacity.toNat * 2 ^ rounds)
    (hrounds : ∀ round < rounds, buffer.header.binaryCapacity.toNat * 2 ^ round <
      bytes.length + data.data.length) :
    ExactWrite buffer.header.sizes data.data.length buffer'.header.sizes where
  size_eq := by
    change buffer'.header.binarySize.toNat = buffer.header.binarySize.toNat + data.data.length
    rw [h'.size_eq, h.size_eq, List.length_append]
  total_eq := h'.total_eq
  enough := by
    change buffer'.header.binarySize.toNat ≤ buffer'.header.binaryCapacity.toNat
    rw [h'.size_eq, ← h'.memory_eq]
    exact h'.size_le
  grows := by
    refine ⟨rounds, hcapacity, fun round hround => ?_⟩
    change _ < buffer'.header.binarySize.toNat
    rw [h'.size_eq, List.length_append]
    exact hrounds round hround

/-- A write appends its data; the sizes are the exact ones. -/
theorem exists_write (h : Contains buffer bytes)
    (hle : bytes.length + data.data.length ≤ 2 ^ 62) {fuel : Nat} (hfuel : 62 ≤ fuel) :
    ∃ buffer', SerializationBuffer.write fuel { buffer := some buffer } data =
        some { buffer := some buffer' } ∧ Contains buffer' (bytes ++ data.data) ∧
      ExactWrite buffer.header.sizes data.data.length buffer'.header.sizes := by
  have hsum := h.toNat_size_add hle
  have hmemory := h.memory_eq
  by_cases hgrow : buffer.header.binarySize + data.size > buffer.header.binaryCapacity
  · have hsmall : buffer.header.binaryCapacity.toNat < bytes.length + data.data.length := by
      rw [gt_iff_lt, UInt64.lt_iff_toNat_lt] at hgrow
      omega
    obtain ⟨expanded, rounds, hexpanded, hcontains, hroom, hrounds, hcapacity⟩ :=
      h.exists_expand hle hfuel hsmall
    obtain ⟨binary, hcopy, hwritten⟩ := hcontains.exists_copy hroom hle
    refine ⟨_, ?_, hwritten, h.exactWrite hwritten rounds hcapacity hrounds⟩
    simp only [SerializationBuffer.write, Option.bind_eq_bind, Option.bind_some, if_pos hgrow,
      hexpanded, hcopy, Option.pure_def]
  · have hroom : bytes.length + data.data.length ≤ buffer.binary.length := by
      rw [gt_iff_lt, UInt64.lt_iff_toNat_lt] at hgrow
      omega
    obtain ⟨binary, hcopy, hwritten⟩ := h.exists_copy hroom hle
    refine ⟨_, ?_, hwritten, h.exactWrite hwritten 0 (Nat.mul_one _).symm ?_⟩
    · simp only [SerializationBuffer.write, Option.bind_eq_bind, Option.bind_some, if_neg hgrow,
        hcopy, Option.pure_def]
    · intro round hround
      cases hround

end Contains

namespace SerializationBuffer

/-- How many bytes a sequence of writes has. -/
def totalLength (writes : List Bytes) : Nat := (writes.map fun data => data.data.length).sum

/-- What a sequence of writes has written. -/
def concatenation (writes : List Bytes) : List UInt8 := writes.flatMap Bytes.data

theorem length_concatenation (writes : List Bytes) :
    (concatenation writes).length = totalLength writes := List.length_flatMap

/-- A sequence of writes appends one after the other. -/
theorem exists_foldlM {fuel : Nat} (hfuel : 62 ≤ fuel) {buffer : SharableBinary}
    {bytes : List UInt8} (h : Contains buffer bytes) (writes : List Bytes)
    (hle : bytes.length + totalLength writes ≤ 2 ^ 62) :
    ∃ buffer', writes.foldlM (write fuel) { buffer := some buffer } =
        some { buffer := some buffer' } ∧ Contains buffer' (bytes ++ concatenation writes) := by
  induction writes generalizing buffer bytes with
  | nil =>
    refine ⟨buffer, rfl, ?_⟩
    rw [concatenation, List.flatMap_nil, List.append_nil]
    exact h
  | cons data writes ih =>
    rw [totalLength, List.map_cons, List.sum_cons] at hle
    have hfirst : bytes.length + data.data.length ≤ 2 ^ 62 := by omega
    obtain ⟨next, hwrite, hnext, -⟩ := h.exists_write hfirst hfuel
    have hlength : (bytes ++ data.data).length = bytes.length + data.data.length :=
      List.length_append
    obtain ⟨last, hwrites, hlast⟩ := ih hnext (by rw [hlength, totalLength]; omega)
    refine ⟨last, ?_, ?_⟩
    · rw [List.foldlM_cons, hwrite]
      exact hwrites
    · rw [concatenation, List.flatMap_cons, ← List.append_assoc]
      exact hlast

theorem exists_writeAll {fuel : Nat} (hfuel : 62 ≤ fuel) (writes : List Bytes)
    (hle : totalLength writes ≤ 2 ^ 62) :
    ∃ buffer, writeAll fuel writes = some { buffer := some buffer } ∧
      Contains buffer (concatenation writes) := by
  obtain ⟨buffer, hcreate, hempty⟩ := Contains.create
  rw [← Nat.zero_add (totalLength writes)] at hle
  obtain ⟨last, hwrites, hlast⟩ := exists_foldlM hfuel hempty writes hle
  refine ⟨last, ?_, hlast⟩
  rw [writeAll, hcreate]
  exact hwrites

/-- What a buffer gives away is a buffer that handles can share. -/
theorem exists_release {buffer : SharableBinary} {bytes : List UInt8} (h : Contains buffer bytes) :
    ∃ released : ReleasedBuffer, released.bytes = bytes ∧
      release { buffer := some buffer } = some (released.buffer, { buffer := none }) := by
  have hread := h.read_eq
  refine ⟨{
    buffer := { buffer with
      header := { buffer.header with referenceCount := 1, isReferenceCountEnabled := true } }
    bytes
    enabled := rfl
    count_one := rfl
    read_eq := hread }, rfl, ?_⟩
  simp only [release, enableReferenceCount, h.disabled, Bool.false_eq_true, if_false,
    Option.bind_eq_bind, Option.bind_some, Option.pure_def]

/-- Every write of a sequence ends, in at most 62 rounds of its loop, and changes the sizes as exact
numbers; the message has the bytes that were written. -/
theorem writes_and_releases (fuel : Nat) (hfuel : 62 ≤ fuel) (writes : List Bytes)
    (htotal : totalLength writes ≤ 2 ^ 62) :
    (∀ before data after, writes = before ++ data :: after →
      ∃ buffer buffer', writeAll fuel before = some { buffer := some buffer } ∧
        write fuel { buffer := some buffer } data = some { buffer := some buffer' } ∧
        ExactWrite buffer.header.sizes data.data.length buffer'.header.sizes ∧
        buffer'.header.binarySize ≤ buffer'.header.binaryCapacity ∧
        buffer'.header.binaryCapacity = buffer'.header.totalMemorySize - headerSize) ∧
      ∃ (s : SerializationBuffer) (released : ReleasedBuffer), writeAll fuel writes = some s ∧
        release s = some (released.buffer, { buffer := none }) ∧
        released.bytes = concatenation writes := by
  constructor
  · rintro before data after rfl
    rw [totalLength, List.map_append, List.sum_append, List.map_cons, List.sum_cons] at htotal
    obtain ⟨buffer, hwrites, hcontains⟩ :=
      exists_writeAll hfuel before (by rw [totalLength]; omega)
    have hle : (concatenation before).length + data.data.length ≤ 2 ^ 62 := by
      rw [length_concatenation, totalLength]
      omega
    obtain ⟨buffer', hwrite, hcontains', hexact⟩ := hcontains.exists_write hle hfuel
    refine ⟨buffer, buffer', hwrites, hwrite, hexact, ?_, ?_⟩
    · exact UInt64.le_iff_toNat_le.mpr hexact.enough
    · have htotal' : buffer'.header.totalMemorySize =
          headerSize + buffer'.header.binaryCapacity := by
        apply UInt64.toNat.inj
        have hlt := buffer'.header.totalMemorySize.toNat_lt
        have heq := hcontains'.total_eq
        rw [UInt64.toNat_add]
        omega
      rw [htotal', UInt64.add_comm, UInt64.add_sub_cancel]
  · obtain ⟨buffer, hwrites, hcontains⟩ := exists_writeAll hfuel writes htotal
    obtain ⟨released, hbytes, hrelease⟩ := exists_release hcontains
    exact ⟨_, released, hwrites, hrelease, hbytes⟩

/-- The second write does not fit into the first capacity. -/
theorem short_and_long_write :
    ∃ (s : SerializationBuffer) (released : ReleasedBuffer),
      writeAll 62 [{ data := List.replicate 10 97 }, { data := List.replicate 100 98 }] = some s ∧
        release s = some (released.buffer, { buffer := none }) ∧
        released.bytes = concatenation
          [{ data := List.replicate 10 97 }, { data := List.replicate 100 98 }] :=
  (writes_and_releases 62 (by decide) _ (by decide)).2

end SerializationBuffer

end MsgpackRpc.Messages
