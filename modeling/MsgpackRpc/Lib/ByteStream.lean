import Mathlib.Data.List.Basic
import MsgpackRpc.Lib.Update

/-!
# One direction of a stream of bytes

A write transfers its bytes in pieces, and the reader takes what has been transferred in pieces of
its own.  While writes do not overlap, what has been read is a prefix of the written messages.
-/

structure ByteStream where
  /-- What the writes under way still have to transfer. -/
  writes : List (List UInt8) := []
  /-- A write has failed, and nothing gets through any more. -/
  broken : Bool := false
  unread : List UInt8 := []
  read : List UInt8 := []
  /-- The messages whose writes have been started. -/
  sent : List (List UInt8) := []
  deriving DecidableEq, Repr

namespace ByteStream

def startWrite (s : ByteStream) (message : List UInt8) : ByteStream :=
  { s with writes := s.writes ++ [message], sent := s.sent ++ [message] }

/-- Write `i` transfers its next `n` bytes. -/
def transfer (s : ByteStream) (i n : Nat) : Option ByteStream :=
  match s.writes[i]? with
  | none => none
  | some bytes =>
      if s.broken || bytes.length < n then none
      else some { s with
        writes := s.writes.set i (bytes.drop n)
        unread := s.unread ++ bytes.take n }

/-- Write `i` ends: with success, when all its bytes have been transferred, or with an error. -/
def endWrite (s : ByteStream) (i : Nat) (failed : Bool) : Option ByteStream :=
  match s.writes[i]? with
  | none => none
  | some bytes =>
      if failed then some { s with writes := s.writes.eraseIdx i, broken := true }
      else if bytes.isEmpty then some { s with writes := s.writes.eraseIdx i }
      else none

/-- The reader gets `bytes`. -/
def takeBytes (s : ByteStream) (bytes : List UInt8) : Option ByteStream :=
  if bytes.isPrefixOf s.unread then
    some { s with unread := s.unread.drop bytes.length, read := s.read ++ bytes }
  else none

/-! ## What an operation does -/

variable {P Q : List UInt8 → Prop} {s t : ByteStream}

/-- A transfer keeps the writes under way, and the reader has not got its bytes yet. -/
theorem transfer_eq_some {i n : Nat} (h : s.transfer i n = some t) :
    ∃ bytes, s.writes[i]? = some bytes ∧ n ≤ bytes.length ∧ s.broken = false ∧
      t = { s with
        writes := s.writes.set i (bytes.drop n)
        unread := s.unread ++ bytes.take n } := by
  unfold transfer at h
  split at h
  · cases h
  · rename_i bytes hi
    rw [Option.ite_none_left_eq_some, Bool.or_eq_true, not_or, Bool.not_eq_true,
      Option.some.injEq] at h
    obtain ⟨⟨hbroken, hle⟩, rfl⟩ := h
    rw [decide_eq_true_eq, Nat.not_lt] at hle
    exact ⟨bytes, hi, hle, hbroken, rfl⟩

/-- A write that ends without an error has nothing left. -/
theorem endWrite_eq_some {i : Nat} {failed : Bool} (h : s.endWrite i failed = some t) :
    ∃ bytes, s.writes[i]? = some bytes ∧ (failed = false → bytes = []) ∧
      t = { s with writes := s.writes.eraseIdx i, broken := s.broken || failed } := by
  unfold endWrite at h
  split at h
  · cases h
  · rename_i bytes hi
    cases failed with
    | true =>
      rw [if_pos rfl, Option.some.injEq] at h
      exact ⟨bytes, hi, nofun, by rw [← h, Bool.or_true]⟩
    | false =>
      rw [if_neg Bool.false_ne_true, Option.ite_none_right_eq_some, Option.some.injEq] at h
      obtain ⟨hempty, rfl⟩ := h
      exact ⟨bytes, hi, fun _ => List.isEmpty_iff.mp hempty, by rw [Bool.or_false]⟩

theorem takeBytes_eq_some {bytes : List UInt8} (h : s.takeBytes bytes = some t) :
    ∃ rest, s.unread = bytes ++ rest ∧ t = { s with unread := rest, read := s.read ++ bytes } := by
  rw [takeBytes, Option.ite_none_right_eq_some, List.isPrefixOf_iff_prefix,
    Option.some.injEq] at h
  obtain ⟨⟨rest, hrest⟩, rfl⟩ := h
  refine ⟨rest, hrest.symm, ?_⟩
  rw [← hrest, List.drop_left]

/-- How many bytes the writes that are under way still have to transfer. -/
def toTransfer (s : ByteStream) : Nat := s.writes.flatten.length

/-- What has been transferred is the beginning of the messages one after another; unless a write has
failed, the one under way completes the last of them. -/
structure Tiles (s : ByteStream) : Prop where
  single : s.writes.length ≤ 1
  front : s.read ++ s.unread <+: s.sent.flatten
  whole : s.broken = false → s.read ++ s.unread ++ s.writes.flatten = s.sent.flatten

theorem tiles_init : Tiles {} where
  single := Nat.zero_le 1
  front := List.prefix_rfl
  whole _ := rfl

theorem Tiles.startWrite (h : s.Tiles) (hnone : s.writes = []) (message : List UInt8) :
    (s.startWrite message).Tiles := by
  refine ⟨?_, ?_, fun hbroken => ?_⟩
  · rw [ByteStream.startWrite, hnone]
    exact Nat.le_refl 1
  · show _ <+: (s.sent ++ [message]).flatten
    rw [List.flatten_append]
    exact h.front.trans (List.prefix_append _ _)
  · have hbefore := h.whole hbroken
    rw [hnone, List.flatten_nil, List.append_nil] at hbefore
    show s.read ++ s.unread ++ (s.writes ++ [message]).flatten = (s.sent ++ [message]).flatten
    rw [hnone, List.nil_append, hbefore, List.flatten_append]

/-- The write under way is the only one. -/
theorem writes_eq_singleton {i : Nat} {bytes : List UInt8} (hsingle : s.writes.length ≤ 1)
    (hi : s.writes[i]? = some bytes) : s.writes = [bytes] ∧ i = 0 := by
  obtain ⟨hlt, heq⟩ := List.getElem?_eq_some_iff.mp hi
  obtain rfl : i = 0 := by omega
  obtain ⟨b, hb⟩ := List.length_eq_one_iff.mp (Nat.le_antisymm hsingle hlt)
  simp only [hb, List.getElem_cons_zero] at heq
  exact ⟨heq ▸ hb, rfl⟩

theorem Tiles.transfer {i n : Nat} (h : s.Tiles) (ht : s.transfer i n = some t) : t.Tiles := by
  obtain ⟨bytes, hi, -, hbroken, rfl⟩ := transfer_eq_some ht
  obtain ⟨hwrites, rfl⟩ := writes_eq_singleton h.single hi
  -- the bytes only move from the write to the reader
  have hsame : s.read ++ (s.unread ++ bytes.take n) ++ [bytes.drop n].flatten = s.sent.flatten := by
    rw [← h.whole hbroken, hwrites, List.flatten_singleton, List.flatten_singleton,
      ← List.append_assoc, List.append_assoc _ (bytes.take n), List.take_append_drop]
  rw [hwrites, List.set_cons_zero]
  exact ⟨Nat.le_refl 1, hsame ▸ List.prefix_append _ _, fun _ => hsame⟩

theorem Tiles.endWrite {i : Nat} {failed : Bool} (h : s.Tiles)
    (ht : s.endWrite i failed = some t) : t.Tiles := by
  obtain ⟨bytes, hi, hends, rfl⟩ := endWrite_eq_some ht
  obtain ⟨hwrites, rfl⟩ := writes_eq_singleton h.single hi
  refine ⟨?_, h.front, fun hbroken => ?_⟩
  · rw [hwrites]
    exact Nat.zero_le 1
  · obtain ⟨hbefore, hok⟩ := Bool.or_eq_false_iff.mp hbroken
    obtain rfl := hends hok
    rw [← h.whole hbefore, hwrites]
    rfl

theorem Tiles.takeBytes {bytes : List UInt8} (h : s.Tiles) (ht : s.takeBytes bytes = some t) :
    t.Tiles := by
  obtain ⟨rest, hunread, rfl⟩ := takeBytes_eq_some ht
  refine ⟨h.single, ?_, fun hbroken => ?_⟩
  · rw [List.append_assoc, ← hunread]
    exact h.front
  · rw [List.append_assoc s.read, ← hunread]
    exact h.whole hbroken

/-- What has been read is the beginning of the messages. -/
theorem Tiles.read_prefix (h : s.Tiles) : s.read <+: s.sent.flatten :=
  (List.prefix_append _ _).trans h.front

/-- When nothing is under way, all the messages have been read. -/
theorem Tiles.read_eq (h : s.Tiles) (hbroken : s.broken = false) (hwrites : s.writes = [])
    (hunread : s.unread = []) : s.read = s.sent.flatten := by
  have hwhole := h.whole hbroken
  rw [hwrites, hunread, List.flatten_nil, List.append_nil, List.append_nil] at hwhole
  exact hwhole

/-- A stream of messages with `P`. -/
structure Carries (P : List UInt8 → Prop) (s : ByteStream) : Prop extends Tiles s where
  messages : ∀ m ∈ s.sent, P m

theorem carries_init (P : List UInt8 → Prop) : Carries P {} where
  toTiles := tiles_init
  messages := nofun

theorem Carries.mono (h : s.Carries P) (hPQ : ∀ m, P m → Q m) : s.Carries Q where
  toTiles := h.toTiles
  messages m hm := hPQ m (h.messages m hm)

theorem Carries.startWrite (h : s.Carries P) (hnone : s.writes = []) {message : List UInt8}
    (hmessage : P message) : (s.startWrite message).Carries P where
  toTiles := h.toTiles.startWrite hnone message
  messages m hm := by
    rcases List.mem_append.mp hm with hm | hm
    · exact h.messages m hm
    · exact List.mem_singleton.mp hm ▸ hmessage

theorem Carries.transfer {i n : Nat} (h : s.Carries P) (ht : s.transfer i n = some t) :
    t.Carries P := by
  have htiles := h.toTiles.transfer ht
  obtain ⟨bytes, -, -, -, rfl⟩ := transfer_eq_some ht
  exact ⟨htiles, h.messages⟩

theorem Carries.endWrite {i : Nat} {failed : Bool} (h : s.Carries P)
    (ht : s.endWrite i failed = some t) : t.Carries P := by
  have htiles := h.toTiles.endWrite ht
  obtain ⟨bytes, -, -, rfl⟩ := endWrite_eq_some ht
  exact ⟨htiles, h.messages⟩

theorem Carries.takeBytes {bytes : List UInt8} (h : s.Carries P)
    (ht : s.takeBytes bytes = some t) : t.Carries P := by
  have htiles := h.toTiles.takeBytes ht
  obtain ⟨rest, -, rfl⟩ := takeBytes_eq_some ht
  exact ⟨htiles, h.messages⟩

end ByteStream
