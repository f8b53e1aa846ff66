import MsgpackRpc.Lib.Reader

/-!
# The msgpack format

The values of the format, what they are written as (in the shortest of the forms that the format
has for a value) and a reader that accepts every form.
-/

namespace Msgpack

inductive Value where
  | nil
  | boolean (b : Bool)
  | positiveInteger (n : UInt64)
  /-- The integer `-1 - n`. -/
  | negativeInteger (n : BitVec 63)
  | float32 (bits : UInt32)
  | float64 (bits : UInt64)
  | str (bytes : List UInt8)
  | bin (bytes : List UInt8)
  | array (items : List Value)
  | map (entries : List (Value × Value))
  | ext (type : UInt8) (bytes : List UInt8)
  deriving Repr

open Reader (bigEndian)

/-- The head of a text, a binary or a container: a first byte that carries a small size, or the
first byte `tag` and then the size in `width` bytes. -/
def sized (tag : Nat) (width n : Nat) : List UInt8 :=
  UInt8.ofNat tag :: bigEndian width n

namespace Value

def strHead (n : Nat) : List UInt8 :=
  if n < 32 then [UInt8.ofNat (0xa0 + n)]
  else if n < 256 then sized 0xd9 1 n
  else if n < 256 ^ 2 then sized 0xda 2 n
  else sized 0xdb 4 n

def binHead (n : Nat) : List UInt8 :=
  if n < 256 then sized 0xc4 1 n
  else if n < 256 ^ 2 then sized 0xc5 2 n
  else sized 0xc6 4 n

def arrayHead (n : Nat) : List UInt8 :=
  if n < 16 then [UInt8.ofNat (0x90 + n)]
  else if n < 256 ^ 2 then sized 0xdc 2 n
  else sized 0xdd 4 n

def mapHead (n : Nat) : List UInt8 :=
  if n < 16 then [UInt8.ofNat (0x80 + n)]
  else if n < 256 ^ 2 then sized 0xde 2 n
  else sized 0xdf 4 n

def extHead (n : Nat) : List UInt8 :=
  if n = 1 then [0xd4]
  else if n = 2 then [0xd5]
  else if n = 4 then [0xd6]
  else if n = 8 then [0xd7]
  else if n = 16 then [0xd8]
  else if n < 256 then sized 0xc7 1 n
  else if n < 256 ^ 2 then sized 0xc8 2 n
  else sized 0xc9 4 n

def encodePositive (n : Nat) : List UInt8 :=
  if n < 128 then [UInt8.ofNat n]
  else if n < 256 then sized 0xcc 1 n
  else if n < 256 ^ 2 then sized 0xcd 2 n
  else if n < 256 ^ 4 then sized 0xce 4 n
  else sized 0xcf 8 n

/-- The two's complement of `-1 - n`. -/
def encodeNegative (n : Nat) : List UInt8 :=
  if n < 32 then [UInt8.ofNat (0xff - n)]
  else if n < 128 then sized 0xd0 1 (256 - 1 - n)
  else if n < 128 * 256 then sized 0xd1 2 (256 ^ 2 - 1 - n)
  else if n < 128 * 256 ^ 3 then sized 0xd2 4 (256 ^ 4 - 1 - n)
  else sized 0xd3 8 (256 ^ 8 - 1 - n)

mutual

def encode : Value → List UInt8
  | .nil => [0xc0]
  | .boolean false => [0xc2]
  | .boolean true => [0xc3]
  | .positiveInteger n => encodePositive n.toNat
  | .negativeInteger n => encodeNegative n.toNat
  | .float32 bits => sized 0xca 4 bits.toNat
  | .float64 bits => sized 0xcb 8 bits.toNat
  | .str bytes => strHead bytes.length ++ bytes
  | .bin bytes => binHead bytes.length ++ bytes
  | .array items => arrayHead items.length ++ encodeItems items
  | .map entries => mapHead entries.length ++ encodeEntries entries
  | .ext type bytes => extHead bytes.length ++ (type :: bytes)

def encodeItems : List Value → List UInt8
  | [] => []
  | item :: items => encode item ++ encodeItems items

def encodeEntries : List (Value × Value) → List UInt8
  | [] => []
  | (key, value) :: entries => (encode key ++ encode value) ++ encodeEntries entries

end

mutual

/-- Every size in the value fits into the 32 bits that the format has for it. -/
def fits : Value → Bool
  | .str bytes | .bin bytes | .ext _ bytes => bytes.length < 256 ^ 4
  | .array items => items.length < 256 ^ 4 && fitsItems items
  | .map entries => entries.length < 256 ^ 4 && fitsEntries entries
  | _ => true

def fitsItems : List Value → Bool
  | [] => true
  | item :: items => fits item && fitsItems items

def fitsEntries : List (Value × Value) → Bool
  | [] => true
  | (key, value) :: entries => (fits key && fits value) && fitsEntries entries

end

/-! ## Reading -/

open Reader (byte take uint many)

def readStr (n : Nat) : Reader Value := (take n).map .str

def readBin (n : Nat) : Reader Value := (take n).map .bin

def readExt (n : Nat) : Reader Value := byte.bind fun type => (take n).map (.ext type)

def readPositive (width : Nat) : Reader Value :=
  (uint width).map fun n => .positiveInteger (UInt64.ofNat n)

def readInteger (width : Nat) : Reader Value :=
  (uint width).map fun n =>
    if n < 128 * 256 ^ (width - 1) then .positiveInteger (UInt64.ofNat n)
    else .negativeInteger (BitVec.ofNat 63 (256 ^ width - 1 - n))

def readArray (item : Reader Value) (n : Nat) : Reader Value := (item.many n).map .array

def readMap (item : Reader Value) (n : Nat) : Reader Value :=
  ((item.bind fun key => item.map fun value => (key, value)).many n).map .map

/-- What follows the first byte `tag` of a value; `item` reads the values inside it. -/
def body (item : Reader Value) (tag : Nat) : Reader Value :=
  if tag < 0x80 then Reader.pure (.positiveInteger (UInt64.ofNat tag))
  else if tag < 0x90 then readMap item (tag - 0x80)
  else if tag < 0xa0 then readArray item (tag - 0x90)
  else if tag < 0xc0 then readStr (tag - 0xa0)
  else if tag = 0xc0 then Reader.pure .nil
  else if tag = 0xc1 then Reader.malformed
  else if tag < 0xc4 then Reader.pure (.boolean (tag == 0xc3))
  else if tag < 0xc7 then (uint (2 ^ (tag - 0xc4))).bind readBin
  else if tag < 0xca then (uint (2 ^ (tag - 0xc7))).bind readExt
  else if tag = 0xca then (uint 4).map fun bits => .float32 (UInt32.ofNat bits)
  else if tag = 0xcb then (uint 8).map fun bits => .float64 (UInt64.ofNat bits)
  else if tag < 0xd0 then readPositive (2 ^ (tag - 0xcc))
  else if tag < 0xd4 then readInteger (2 ^ (tag - 0xd0))
  else if tag < 0xd9 then readExt (2 ^ (tag - 0xd4))
  else if tag < 0xdc then (uint (2 ^ (tag - 0xd9))).bind readStr
  else if tag < 0xde then (uint (2 ^ (tag - 0xdb))).bind (readArray item)
  else if tag < 0xe0 then (uint (2 ^ (tag - 0xdd))).bind (readMap item)
  else Reader.pure (.negativeInteger (BitVec.ofNat 63 (0xff - tag)))

/-- A reader of the values that are nested less than `depth` deep. -/
def read : Nat → Reader Value
  -- without fuel a value looks unfinished, never malformed
  | 0 => fun _ => .incomplete
  | depth + 1 => byte.bind fun tag => body (read depth) tag.toNat

/-! ## What later bytes leave unchanged -/

theorem continues_readMap {item item' : Reader Value} (h : item.Continues item') (n : Nat) :
    (readMap item n).Continues (readMap item' n) := by
  have hentry : (item.bind fun key => item.map fun value => (key, value)).Continues
      (item'.bind fun key => item'.map fun value => (key, value)) :=
    h.bind fun _ => h.map
  exact (hentry.many n).map

theorem continues_readArray {item item' : Reader Value} (h : item.Continues item') (n : Nat) :
    (readArray item n).Continues (readArray item' n) :=
  (h.many n).map

theorem continues_readExt (n : Nat) : (readExt n).Continues (readExt n) :=
  Reader.Continues.byte.bind fun _ => (Reader.Continues.take n).map

theorem continues_body {item item' : Reader Value} (h : item.Continues item') (tag : Nat) :
    (body item tag).Continues (body item' tag) := by
  unfold body
  refine .ite (.pure _) ?_
  refine .ite (continues_readMap h _) ?_
  refine .ite (continues_readArray h _) ?_
  refine .ite (Reader.Continues.take _).map ?_
  refine .ite (.pure _) ?_
  refine .ite .malformed ?_
  refine .ite (.pure _) ?_
  refine .ite ((Reader.Continues.uint _).bind fun n => (Reader.Continues.take n).map) ?_
  refine .ite ((Reader.Continues.uint _).bind continues_readExt) ?_
  refine .ite (Reader.Continues.uint _).map ?_
  refine .ite (Reader.Continues.uint _).map ?_
  refine .ite (Reader.Continues.uint _).map ?_
  refine .ite (Reader.Continues.uint _).map ?_
  refine .ite (continues_readExt _) ?_
  refine .ite ((Reader.Continues.uint _).bind fun n => (Reader.Continues.take n).map) ?_
  refine .ite ((Reader.Continues.uint _).bind (continues_readArray h)) ?_
  refine .ite ((Reader.Continues.uint _).bind (continues_readMap h)) ?_
  exact .pure _

/-- A deeper reader goes on like a shallow one. -/
theorem continues_read {depth depth' : Nat} (h : depth ≤ depth') :
    (read depth).Continues (read depth') := by
  induction depth generalizing depth' with
  | zero => exact fun _ _ hfound => absurd rfl hfound
  | succ depth ih =>
    -- both readers take the tag, and what is inside is read one level deeper
    obtain ⟨depth', rfl⟩ := Nat.exists_eq_add_of_lt h
    exact Reader.Continues.byte.bind fun tag => continues_body (ih (by omega)) tag.toNat

/-! ## Which bytes a value is made of -/

section Settles

variable {fuel : Nat} {item item' : Reader Value}

theorem settles_readExt (n : Nat) : Reader.Settles fuel (readExt n) (readExt n) :=
  Reader.Settles.byte.bind fun _ => (Reader.Settles.take n).map

theorem settles_body (h : Reader.Settles fuel item item') (tag : Nat) :
    Reader.Settles fuel (body item tag) (body item' tag) := by
  have hmap (n : Nat) : Reader.Settles fuel (readMap item n) (readMap item' n) :=
    ((h.bind fun _ => h.map).many n).map
  have harray (n : Nat) : Reader.Settles fuel (readArray item n) (readArray item' n) :=
    (h.many n).map
  unfold body
  refine .ite (.pure _) ?_
  refine .ite (hmap _) ?_
  refine .ite (harray _) ?_
  refine .ite (Reader.Settles.take _).map ?_
  refine .ite (.pure _) ?_
  refine .ite .malformed ?_
  refine .ite (.pure _) ?_
  refine .ite ((Reader.Settles.uint _).bind fun n => (Reader.Settles.take n).map) ?_
  refine .ite ((Reader.Settles.uint _).bind settles_readExt) ?_
  refine .ite (Reader.Settles.uint _).map ?_
  refine .ite (Reader.Settles.uint _).map ?_
  refine .ite (Reader.Settles.uint _).map ?_
  refine .ite (Reader.Settles.uint _).map ?_
  refine .ite (settles_readExt _) ?_
  refine .ite ((Reader.Settles.uint _).bind fun n => (Reader.Settles.take n).map) ?_
  refine .ite ((Reader.Settles.uint _).bind harray) ?_
  refine .ite ((Reader.Settles.uint _).bind hmap) ?_
  exact .pure _

/-- The fuel that a value needs is bounded by its own bytes. -/
theorem settles_read (depth depth' : Nat) :
    Reader.Settles depth' (read depth) (read depth') := by
  induction depth generalizing depth' with
  | zero =>
    intro bytes value rest h
    cases h
  | succ depth ih =>
    intro bytes value rest h
    cases bytes with
    | nil => cases h
    | cons tag bytes =>
      obtain ⟨front, rfl, hfront⟩ :=
        settles_body (ih (depth' - 1)) tag.toNat bytes value rest h
      refine ⟨tag :: front, rfl, fun hlength => ?_⟩
      rw [List.length_cons] at hlength
      -- the tag costs one unit of fuel and is one byte of the front
      obtain ⟨fuel, rfl⟩ : ∃ fuel, depth' = fuel + 1 := ⟨depth' - 1, by omega⟩
      exact (Reader.Reads.byte tag).bind (hfront (by omega))

end Settles

/-- A value takes at least its first byte. -/
theorem front_ne_nil {depth : Nat} {front rest : List UInt8} {value : Value}
    (h : read depth (front ++ rest) = .done value rest) : front ≠ [] := by
  obtain ⟨front', hfront', hread⟩ := settles_read depth 0 (front ++ rest) value rest h
  rw [List.append_cancel_right_eq] at hfront'
  subst hfront'
  rintro rfl
  -- without fuel nothing is read
  exact nomatch hread (Nat.le_refl 0) []

/-! ## Reading back what was written -/

section RoundTrip

variable {depth : Nat}

theorem reads_tag {tag : Nat} {value : Value} {bytes : List UInt8} (htag : tag < 256)
    (h : (body (read depth) tag).Reads value bytes) :
    (read (depth + 1)).Reads value (UInt8.ofNat tag :: bytes) := by
  intro rest
  have hbyte : (UInt8.ofNat tag).toNat = tag := UInt8.toNat_ofNat_of_lt' htag
  have hbody := h rest
  rw [← hbyte] at hbody
  exact hbody

/-- The head with a size, followed by what a reader of this size reads. -/
theorem reads_sized {tag width n : Nat} {value : Value} {bytes : List UInt8}
    (f : Nat → Reader Value) (hbody : body (read depth) tag = (uint width).bind f)
    (htag : tag < 256) (hn : n < 256 ^ width)
    (h : (f n).Reads value bytes) :
    (read (depth + 1)).Reads value (sized tag width n ++ bytes) := by
  have hread := (Reader.Reads.uint hn).bind h
  rw [← hbody] at hread
  exact reads_tag htag hread

/-- A number of its own, without anything after it. -/
theorem reads_number {tag width n : Nat} {value : Value} (f : Nat → Value)
    (hbody : body (read depth) tag = (uint width).map f) (htag : tag < 256) (hn : n < 256 ^ width)
    (hvalue : f n = value) : (read (depth + 1)).Reads value (sized tag width n) := by
  have hread := reads_sized (fun n => Reader.pure (f n)) hbody htag hn (Reader.Reads.pure (f n))
  rw [List.append_nil, hvalue] at hread
  exact hread

theorem reads_str {bytes : List UInt8} (hsize : bytes.length < 256 ^ 4) :
    (read (depth + 1)).Reads (.str bytes) (strHead bytes.length ++ bytes) := by
  have hbytes : (readStr bytes.length).Reads (.str bytes) bytes :=
    (Reader.Reads.take bytes).map Value.str
  unfold strHead
  split
  · rename_i hshort
    have htag : body (read depth) (0xa0 + bytes.length) = readStr bytes.length := by
      unfold body
      rw [if_neg (by omega), if_neg (by omega), if_neg (by omega), if_pos (by omega),
        Nat.add_sub_cancel_left]
    apply reads_tag (by omega)
    rw [htag]
    exact hbytes
  · split
    · apply reads_sized readStr rfl (by omega) (by omega) hbytes
    · split
      · apply reads_sized readStr rfl (by omega) (by omega) hbytes
      · apply reads_sized readStr rfl (by omega) hsize hbytes

theorem reads_bin {bytes : List UInt8} (hsize : bytes.length < 256 ^ 4) :
    (read (depth + 1)).Reads (.bin bytes) (binHead bytes.length ++ bytes) := by
  have hbytes : (readBin bytes.length).Reads (.bin bytes) bytes :=
    (Reader.Reads.take bytes).map Value.bin
  unfold binHead
  split
  · apply reads_sized readBin rfl (by omega) (by omega) hbytes
  · split
    · apply reads_sized readBin rfl (by omega) (by omega) hbytes
    · apply reads_sized readBin rfl (by omega) hsize hbytes

theorem reads_array {items : List Value} {bytes : List UInt8} (hsize : items.length < 256 ^ 4)
    (hitems : ((read depth).many items.length).Reads items bytes) :
    (read (depth + 1)).Reads (.array items) (arrayHead items.length ++ bytes) := by
  have hbytes : (readArray (read depth) items.length).Reads (.array items) bytes :=
    hitems.map Value.array
  unfold arrayHead
  split
  · rename_i hshort
    have htag : body (read depth) (0x90 + items.length) = readArray (read depth) items.length := by
      unfold body
      rw [if_neg (by omega), if_neg (by omega), if_pos (by omega), Nat.add_sub_cancel_left]
    apply reads_tag (by omega)
    rw [htag]
    exact hbytes
  · split
    · apply reads_sized (readArray (read depth)) rfl (by omega) (by omega) hbytes
    · apply reads_sized (readArray (read depth)) rfl (by omega) hsize hbytes

theorem reads_map {entries : List (Value × Value)} {bytes : List UInt8}
    (hsize : entries.length < 256 ^ 4)
    (hentries : (((read depth).bind fun key => (read depth).map fun value => (key, value)).many
      entries.length).Reads entries bytes) :
    (read (depth + 1)).Reads (.map entries) (mapHead entries.length ++ bytes) := by
  have hbytes : (readMap (read depth) entries.length).Reads (.map entries) bytes :=
    hentries.map Value.map
  unfold mapHead
  split
  · rename_i hshort
    have htag : body (read depth) (0x80 + entries.length) =
        readMap (read depth) entries.length := by
      unfold body
      rw [if_neg (by omega), if_pos (by omega), Nat.add_sub_cancel_left]
    apply reads_tag (by omega)
    rw [htag]
    exact hbytes
  · split
    · apply reads_sized (readMap (read depth)) rfl (by omega) (by omega) hbytes
    · apply reads_sized (readMap (read depth)) rfl (by omega) hsize hbytes

theorem reads_ext {type : UInt8} {bytes : List UInt8} (hsize : bytes.length < 256 ^ 4) :
    (read (depth + 1)).Reads (.ext type bytes) (extHead bytes.length ++ (type :: bytes)) := by
  have hbytes : (readExt bytes.length).Reads (.ext type bytes) (type :: bytes) :=
    (Reader.Reads.byte type).bind ((Reader.Reads.take bytes).map (Value.ext type))
  have hfixed {n : Nat} (tag : Nat) (hn : bytes.length = n) (htag : tag < 256)
      (hbody : body (read depth) tag = readExt n) :
      (read (depth + 1)).Reads (.ext type bytes) (UInt8.ofNat tag :: (type :: bytes)) := by
    apply reads_tag htag
    rw [hbody, ← hn]
    exact hbytes
  unfold extHead
  split
  · exact hfixed 0xd4 ‹_› (by omega) rfl
  split
  · exact hfixed 0xd5 ‹_› (by omega) rfl
  split
  · exact hfixed 0xd6 ‹_› (by omega) rfl
  split
  · exact hfixed 0xd7 ‹_› (by omega) rfl
  split
  · exact hfixed 0xd8 ‹_› (by omega) rfl
  split
  · apply reads_sized readExt rfl (by omega) (by omega) hbytes
  split
  · apply reads_sized readExt rfl (by omega) (by omega) hbytes
  · apply reads_sized readExt rfl (by omega) hsize hbytes

theorem reads_positive (n : UInt64) :
    (read (depth + 1)).Reads (.positiveInteger n) (encodePositive n.toNat) := by
  have hvalue : Value.positiveInteger (UInt64.ofNat n.toNat) = .positiveInteger n := by
    rw [UInt64.ofNat_toNat]
  have hrange : n.toNat < 256 ^ 8 := n.toNat_lt
  unfold encodePositive
  split
  · rename_i hshort
    have htag : body (read depth) n.toNat = Reader.pure (.positiveInteger n) := by
      unfold body
      rw [if_pos (by omega), hvalue]
    apply reads_tag (by omega)
    rw [htag]
    exact .pure _
  split
  · exact reads_number _ rfl (by omega) (by omega) hvalue
  split
  · exact reads_number _ rfl (by omega) (by omega) hvalue
  split
  · exact reads_number _ rfl (by omega) (by omega) hvalue
  · exact reads_number _ rfl (by omega) hrange hvalue

theorem reads_negative (n : BitVec 63) :
    (read (depth + 1)).Reads (.negativeInteger n) (encodeNegative n.toNat) := by
  have hrange : n.toNat < 128 * 256 ^ 7 := n.isLt
  have hvalue {m : Nat} (hm : m = n.toNat) :
      Value.negativeInteger (BitVec.ofNat 63 m) = .negativeInteger n := by
    rw [hm, BitVec.ofNat_toNat, BitVec.setWidth_eq]
  unfold encodeNegative
  split
  · rename_i hshort
    -- the last branch of `body`: every test before it fails
    have htag : body (read depth) (0xff - n.toNat) = Reader.pure (.negativeInteger n) := by
      unfold body
      rw [if_neg (by omega), if_neg (by omega), if_neg (by omega), if_neg (by omega),
        if_neg (by omega), if_neg (by omega), if_neg (by omega), if_neg (by omega),
        if_neg (by omega), if_neg (by omega), if_neg (by omega), if_neg (by omega),
        if_neg (by omega), if_neg (by omega), if_neg (by omega), if_neg (by omega),
        if_neg (by omega), hvalue (by omega)]
    apply reads_tag (by omega)
    rw [htag]
    exact .pure _
  split
  · refine reads_number _ rfl (by omega) (by omega) ?_
    rw [if_neg (by omega), hvalue (by omega)]
  split
  · refine reads_number _ rfl (by omega) (by omega) ?_
    rw [if_neg (by omega), hvalue (by omega)]
  split
  · refine reads_number _ rfl (by omega) (by omega) ?_
    rw [if_neg (by omega), hvalue (by omega)]
  · refine reads_number _ rfl (by omega) (by omega) ?_
    rw [if_neg (by omega), hvalue (by omega)]

theorem length_strHead_pos (n : Nat) : 0 < (strHead n).length := by
  unfold strHead sized
  split
  · exact Nat.succ_pos _
  split
  · exact Nat.succ_pos _
  split <;> exact Nat.succ_pos _

theorem length_binHead_pos (n : Nat) : 0 < (binHead n).length := by
  unfold binHead sized
  split
  · exact Nat.succ_pos _
  split <;> exact Nat.succ_pos _

theorem length_arrayHead_pos (n : Nat) : 0 < (arrayHead n).length := by
  unfold arrayHead sized
  split
  · exact Nat.succ_pos _
  split <;> exact Nat.succ_pos _

theorem length_mapHead_pos (n : Nat) : 0 < (mapHead n).length := by
  unfold mapHead sized
  split
  · exact Nat.succ_pos _
  split <;> exact Nat.succ_pos _

theorem length_encode_pos (value : Value) : 0 < (encode value).length := by
  have hnumber {value : Value} {bytes : List UInt8} (h : (read 1).Reads value bytes) :
      0 < bytes.length :=
    List.length_pos_iff.mpr (front_ne_nil (h []))
  cases value with
  | nil => exact Nat.succ_pos _
  | boolean b => cases b <;> exact Nat.succ_pos _
  | positiveInteger n => exact hnumber (reads_positive n)
  | negativeInteger n => exact hnumber (reads_negative n)
  | float32 bits => exact Nat.succ_pos _
  | float64 bits => exact Nat.succ_pos _
  | str bytes =>
    have hhead := length_strHead_pos bytes.length
    rw [encode, List.length_append]
    omega
  | bin bytes =>
    have hhead := length_binHead_pos bytes.length
    rw [encode, List.length_append]
    omega
  | array items =>
    have hhead := length_arrayHead_pos items.length
    rw [encode, List.length_append]
    omega
  | map entries =>
    have hhead := length_mapHead_pos entries.length
    rw [encode, List.length_append]
    omega
  | ext type bytes =>
    rw [encode, List.length_append, List.length_cons]
    omega

mutual

/-- Nested values are read with the fuel that the bytes around them leave. -/
theorem reads_encode (value : Value) {depth : Nat} (hfits : value.fits = true)
    (hdepth : (encode value).length ≤ depth) : (read depth).Reads value (encode value) := by
  obtain ⟨depth, rfl⟩ : ∃ d, depth = d + 1 := by
    have hpos := length_encode_pos value
    exact ⟨depth - 1, by omega⟩
  cases value with
  | nil => exact reads_tag (show 0xc0 < 256 by omega) (.pure _)
  | boolean b =>
    cases b with
    | false => exact reads_tag (show 0xc2 < 256 by omega) (.pure _)
    | true => exact reads_tag (show 0xc3 < 256 by omega) (.pure _)
  | positiveInteger n => exact reads_positive n
  | negativeInteger n => exact reads_negative n
  | float32 bits => exact reads_number _ rfl (by omega) bits.toNat_lt (by rw [UInt32.ofNat_toNat])
  | float64 bits => exact reads_number _ rfl (by omega) bits.toNat_lt (by rw [UInt64.ofNat_toNat])
  | str bytes => exact reads_str (of_decide_eq_true hfits)
  | bin bytes => exact reads_bin (of_decide_eq_true hfits)
  | ext type bytes => exact reads_ext (of_decide_eq_true hfits)
  | array items =>
    rw [fits, Bool.and_eq_true, decide_eq_true_eq] at hfits
    have hhead := length_arrayHead_pos items.length
    rw [encode, List.length_append] at hdepth
    -- the head has taken at least one byte of the fuel
    exact reads_array hfits.1 (reads_encodeItems items hfits.2 (by omega))
  | map entries =>
    rw [fits, Bool.and_eq_true, decide_eq_true_eq] at hfits
    have hhead := length_mapHead_pos entries.length
    rw [encode, List.length_append] at hdepth
    exact reads_map hfits.1 (reads_encodeEntries entries hfits.2 (by omega))

theorem reads_encodeItems (items : List Value) {depth : Nat} (hfits : fitsItems items = true)
    (hdepth : (encodeItems items).length ≤ depth) :
    ((read depth).many items.length).Reads items (encodeItems items) := by
  cases items with
  | nil => exact .pure []
  | cons item items =>
    rw [fitsItems, Bool.and_eq_true] at hfits
    rw [encodeItems, List.length_append] at hdepth
    exact .cons (reads_encode item hfits.1 (by omega))
      (reads_encodeItems items hfits.2 (by omega))

theorem reads_encodeEntries (entries : List (Value × Value)) {depth : Nat}
    (hfits : fitsEntries entries = true) (hdepth : (encodeEntries entries).length ≤ depth) :
    (((read depth).bind fun key => (read depth).map fun value => (key, value)).many
      entries.length).Reads entries (encodeEntries entries) := by
  cases entries with
  | nil => exact .pure []
  | cons entry entries =>
    obtain ⟨key, value⟩ := entry
    rw [fitsEntries, Bool.and_eq_true, Bool.and_eq_true] at hfits
    rw [encodeEntries, List.length_append, List.length_append] at hdepth
    have hkey : (read depth).Reads key (encode key) := reads_encode key hfits.1.1 (by omega)
    have hvalue : (read depth).Reads value (encode value) :=
      reads_encode value hfits.1.2 (by omega)
    exact .cons (hkey.bind (hvalue.map (key, ·)))
      (reads_encodeEntries entries hfits.2 (by omega))

end

end RoundTrip

end Value

/-- The first value of the bytes.  A value nests no deeper than it has bytes. -/
def next (bytes : List UInt8) : ReadResult Value :=
  Value.read (bytes.length + 1) bytes

theorem next_encode {value : Value} (hfits : value.fits = true) (rest : List UInt8) :
    next (value.encode ++ rest) = .done value rest :=
  Value.reads_encode value hfits (by rw [List.length_append]; omega) rest

/-- Parsing a stream in pieces finds what parsing it at once finds. -/
theorem continues_next : Reader.Continues next next := by
  intro bytes more hfound
  apply Value.continues_read _ bytes more hfound
  rw [List.length_append]
  omega

/-- The bytes of a value are read as this value wherever they stand. -/
theorem front_of_next {bytes rest : List UInt8} {value : Value}
    (h : next bytes = .done value rest) :
    ∃ front, front ≠ [] ∧ bytes = front ++ rest ∧ Reader.Reads next value front := by
  obtain ⟨front, rfl, -⟩ := Value.settles_read (bytes.length + 1) 0 bytes value rest h
  refine ⟨front, Value.front_ne_nil h, rfl, fun more => ?_⟩
  obtain ⟨front', hfront', hread⟩ :=
    Value.settles_read _ ((front ++ more).length + 1) (front ++ rest) value rest h
  rw [List.append_cancel_right_eq] at hfront'
  subst hfront'
  exact hread (by rw [List.length_append]; omega) more

end Msgpack
