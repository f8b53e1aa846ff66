import Mathlib.Algebra.Group.Nat.Defs

/-!
# Incremental readers

A reader takes a value from the front of a stream of bytes of which more may still arrive.  What it
has found, a value or an error, must not depend on what arrives later: `Continues` says so, and it
also says that a reader with more fuel finds the same.
-/

universe u v

inductive ReadResult (α : Type u) where
  /-- The bytes end before the value does. -/
  | incomplete
  | malformed
  | done (value : α) (rest : List UInt8)
  deriving DecidableEq, Repr

/-- The same result when `more` follows the bytes that have been read. -/
def ReadResult.followedBy {α : Type u} (more : List UInt8) : ReadResult α → ReadResult α
  | .incomplete => .incomplete
  | .malformed => .malformed
  | .done value rest => .done value (rest ++ more)

def Reader (α : Type u) : Type u := List UInt8 → ReadResult α

namespace Reader

variable {α : Type u} {β : Type v}

def pure (value : α) : Reader α := fun bytes => .done value bytes

def malformed : Reader α := fun _ => .malformed

def bind (r : Reader α) (f : α → Reader β) : Reader β := fun bytes =>
  match r bytes with
  | .incomplete => .incomplete
  | .malformed => .malformed
  | .done value rest => f value rest

def map (f : α → β) (r : Reader α) : Reader β := r.bind fun value => pure (f value)

def byte : Reader UInt8
  | [] => .incomplete
  | b :: rest => .done b rest

/-- `n` bytes. -/
def take (n : Nat) : Reader (List UInt8) := fun bytes =>
  if bytes.length < n then .incomplete else .done (bytes.take n) (bytes.drop n)

/-- `n` values one after another. -/
def many (r : Reader α) : Nat → Reader (List α)
  | 0 => pure []
  | n + 1 => r.bind fun value => (many r n).map (value :: ·)

/-! ## Numbers in network byte order -/

/-- The last `width` bytes of `n`. -/
def bigEndian : Nat → Nat → List UInt8
  | 0, _ => []
  | width + 1, n => bigEndian width (n / 256) ++ [UInt8.ofNat n]

def ofBigEndian (bytes : List UInt8) : Nat :=
  bytes.foldl (fun n b => n * 256 + b.toNat) 0

def uint (width : Nat) : Reader Nat := (take width).map ofBigEndian

@[simp] theorem length_bigEndian (width n : Nat) : (bigEndian width n).length = width := by
  induction width generalizing n with
  | zero => rfl
  | succ width ih => rw [bigEndian, List.length_append, ih, List.length_singleton]

theorem ofBigEndian_bigEndian {width n : Nat} (h : n < 256 ^ width) :
    ofBigEndian (bigEndian width n) = n := by
  induction width generalizing n with
  | zero =>
    have hzero : n = 0 := by simpa using h
    rw [hzero]
    rfl
  | succ width ih =>
    -- the last byte is the remainder, and the bytes before it are the quotient
    have hquotient : n / 256 < 256 ^ width := by
      rw [Nat.pow_succ] at h
      exact Nat.div_lt_of_lt_mul (by omega)
    have hbefore : (bigEndian width (n / 256)).foldl (fun n b => n * 256 + b.toNat) 0 = n / 256 :=
      ih hquotient
    unfold ofBigEndian
    rw [bigEndian, List.foldl_append, hbefore]
    simp only [List.foldl_cons, List.foldl_nil, UInt8.toNat_ofNat']
    omega

/-! ## What later bytes leave unchanged -/

/-- What `r` finds without waiting for more bytes, `r'` finds as well, whatever follows. -/
def Continues (r r' : Reader α) : Prop :=
  ∀ bytes more, r bytes ≠ .incomplete → r' (bytes ++ more) = (r bytes).followedBy more

theorem Continues.pure (value : α) : Continues (pure value) (pure value) :=
  fun _ _ _ => rfl

theorem Continues.malformed : Continues (malformed : Reader α) malformed :=
  fun _ _ _ => rfl

theorem Continues.bind {r r' : Reader α} {f f' : α → Reader β} (hr : Continues r r')
    (hf : ∀ value, Continues (f value) (f' value)) : Continues (r.bind f) (r'.bind f') := by
  intro bytes more hfound
  unfold Reader.bind at hfound ⊢
  cases hread : r bytes with
  | incomplete =>
    rw [hread] at hfound
    exact absurd rfl hfound
  | malformed =>
    rw [hr bytes more (by rw [hread]; nofun), hread]
    rfl
  | done value rest =>
    rw [hread] at hfound
    rw [hr bytes more (by rw [hread]; nofun), hread]
    exact hf value rest more hfound

theorem Continues.map {r r' : Reader α} {f : α → β} (hr : Continues r r') :
    Continues (r.map f) (r'.map f) :=
  hr.bind fun value => .pure (f value)

theorem Continues.ite {c : Prop} [Decidable c] {r₁ r₁' r₂ r₂' : Reader α} (h₁ : Continues r₁ r₁')
    (h₂ : Continues r₂ r₂') : Continues (if c then r₁ else r₂) (if c then r₁' else r₂') := by
  by_cases hc : c
  · rw [if_pos hc, if_pos hc]
    exact h₁
  · rw [if_neg hc, if_neg hc]
    exact h₂

theorem Continues.byte : Continues byte byte := by
  intro bytes more hfound
  cases bytes with
  | nil => exact absurd rfl hfound
  | cons b rest => rfl

theorem Continues.take (n : Nat) : Continues (take n) (take n) := by
  intro bytes more hfound
  unfold Reader.take at hfound ⊢
  by_cases hlength : bytes.length < n
  · rw [if_pos hlength] at hfound
    exact absurd rfl hfound
  · have hlength' : ¬ (bytes ++ more).length < n := by
      rw [List.length_append]
      omega
    rw [if_neg hlength, if_neg hlength', List.take_append_of_le_length (by omega),
      List.drop_append_of_le_length (by omega)]
    rfl

theorem Continues.uint (width : Nat) : Continues (uint width) (uint width) :=
  (Continues.take width).map

theorem Continues.many {r r' : Reader α} (hr : Continues r r') (n : Nat) :
    Continues (r.many n) (r'.many n) := by
  induction n with
  | zero => exact .pure []
  | succ n ih => exact hr.bind fun _ => ih.map

/-! ## Reading back what was written -/

/-- `r` reads exactly `bytes` as `value`, whatever follows. -/
def Reads (r : Reader α) (value : α) (bytes : List UInt8) : Prop :=
  ∀ rest, r (bytes ++ rest) = .done value rest

theorem Reads.pure (value : α) : Reads (pure value) value [] :=
  fun _ => rfl

theorem Reads.bind {r : Reader α} {f : α → Reader β} {value : α} {value' : β}
    {bytes bytes' : List UInt8} (hr : Reads r value bytes) (hf : Reads (f value) value' bytes') :
    Reads (r.bind f) value' (bytes ++ bytes') := by
  intro rest
  unfold Reader.bind
  rw [List.append_assoc, hr]
  exact hf rest

theorem Reads.map {r : Reader α} {value : α} {bytes : List UInt8} (f : α → β)
    (hr : Reads r value bytes) : Reads (r.map f) (f value) bytes := by
  have h := Reads.bind (f := fun value => Reader.pure (f value)) hr (Reads.pure (f value))
  rwa [List.append_nil] at h

theorem Reads.byte (b : UInt8) : Reads byte b [b] :=
  fun _ => rfl

theorem Reads.take (bytes : List UInt8) : Reads (take bytes.length) bytes bytes := by
  intro rest
  unfold Reader.take
  rw [if_neg (by rw [List.length_append]; omega), List.take_left, List.drop_left]

theorem Reads.uint {width n : Nat} (h : n < 256 ^ width) :
    Reads (uint width) n (bigEndian width n) := by
  have hbytes := Reads.take (bigEndian width n)
  rw [length_bigEndian] at hbytes
  have hread := hbytes.map ofBigEndian
  rwa [ofBigEndian_bigEndian h] at hread

theorem Reads.cons {r : Reader α} {value : α} {values : List α} {bytes bytes' : List UInt8}
    (hr : Reads r value bytes) (hmany : Reads (r.many values.length) values bytes') :
    Reads (r.many (value :: values).length) (value :: values) (bytes ++ bytes') :=
  hr.bind (hmany.map (value :: ·))

/-! ## Which bytes a value is made of -/

/-- What `r` finds is made of bytes at the front that `r'` reads in the same way, whatever follows,
if there are at most `fuel` of them. -/
def Settles (fuel : Nat) (r r' : Reader α) : Prop :=
  ∀ bytes value rest, r bytes = .done value rest →
    ∃ front, bytes = front ++ rest ∧ (front.length ≤ fuel → Reads r' value front)

section Settles

variable {fuel : Nat}

theorem Settles.pure (value : α) : Settles fuel (pure value) (pure value) := by
  intro bytes value' rest h
  cases h
  exact ⟨[], rfl, fun _ => .pure value⟩

theorem Settles.malformed : Settles fuel (malformed : Reader α) malformed := by
  intro bytes value rest h
  cases h

theorem Settles.bind {r r' : Reader α} {f f' : α → Reader β} (hr : Settles fuel r r')
    (hf : ∀ value, Settles fuel (f value) (f' value)) :
    Settles fuel (r.bind f) (r'.bind f') := by
  intro bytes value rest h
  unfold Reader.bind at h
  cases hread : r bytes with
  | incomplete =>
    rw [hread] at h
    cases h
  | malformed =>
    rw [hread] at h
    cases h
  | done first rest' =>
    rw [hread] at h
    obtain ⟨front, rfl, hfront⟩ := hr bytes first rest' hread
    obtain ⟨back, rfl, hback⟩ := hf first rest' value rest h
    -- each part is shorter than the whole, so the fuel is enough for both
    refine ⟨front ++ back, by rw [List.append_assoc], fun hlength => ?_⟩
    rw [List.length_append] at hlength
    exact (hfront (by omega)).bind (hback (by omega))

theorem Settles.map {r r' : Reader α} {f : α → β} (hr : Settles fuel r r') :
    Settles fuel (r.map f) (r'.map f) :=
  hr.bind fun value => .pure (f value)

theorem Settles.ite {c : Prop} [Decidable c] {r₁ r₁' r₂ r₂' : Reader α} (h₁ : Settles fuel r₁ r₁')
    (h₂ : Settles fuel r₂ r₂') : Settles fuel (if c then r₁ else r₂) (if c then r₁' else r₂') := by
  by_cases hc : c
  · rw [if_pos hc, if_pos hc]
    exact h₁
  · rw [if_neg hc, if_neg hc]
    exact h₂

theorem Settles.byte : Settles fuel byte byte := by
  intro bytes value rest h
  cases bytes with
  | nil => cases h
  | cons b bytes =>
    cases h
    exact ⟨[value], rfl, fun _ => .byte value⟩

theorem Settles.take (n : Nat) : Settles fuel (take n) (take n) := by
  intro bytes value rest h
  unfold Reader.take at h
  split at h
  · cases h
  · rename_i hlength
    cases h
    refine ⟨bytes.take n, (List.take_append_drop n bytes).symm, fun _ => ?_⟩
    have hread := Reads.take (bytes.take n)
    rwa [List.length_take, Nat.min_eq_left (by omega)] at hread

theorem Settles.uint (width : Nat) : Settles fuel (uint width) (uint width) :=
  (Settles.take width).map

theorem Settles.many {r r' : Reader α} (hr : Settles fuel r r') (n : Nat) :
    Settles fuel (r.many n) (r'.many n) := by
  induction n with
  | zero => exact .pure []
  | succ n ih => exact hr.bind fun _ => ih.map

end Settles

end Reader
