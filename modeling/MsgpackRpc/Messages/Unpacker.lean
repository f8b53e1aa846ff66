import MsgpackRpc.Messages.MessageParser
import MsgpackRpc.Messages.ParsedMessage

/-!
# Parsing a stream of messages

`MessageParser::try_parse` over an incremental `msgpack::unpacker`.
-/

namespace MsgpackRpc.Messages

open Msgpack (Value)

/-- `msgpack::unpacker`, as the function that `next` computes from the bytes in its buffer;
`malformed` is an `unpack_error`. -/
structure Unpacker where
  next : List UInt8 → ReadResult Value

/-- Feeding the unpacker in pieces yields the objects that unpacking the bytes at once yields. -/
structure Unpacker.Incremental (u : Unpacker) : Prop where
  empty : u.next [] = .incomplete
  continues : Reader.Continues u.next u.next
  front : ∀ {bytes object rest}, u.next bytes = .done object rest →
    ∃ front, front ≠ [] ∧ bytes = front ++ rest ∧ Reader.Reads u.next object front

/-- The unpacker of the msgpack format. -/
def formatUnpacker : Unpacker where
  next := Msgpack.next

theorem formatUnpacker_incremental : formatUnpacker.Incremental where
  empty := rfl
  continues := Msgpack.continues_next
  front := Msgpack.front_of_next

def tryParse (u : Unpacker) (lib : MsgpackLibrary) (buffer : List UInt8) : Parsed ParsedMessage :=
  match u.next buffer with
  | .incomplete => .incomplete
  | .malformed => .invalid (invalidMessage (text "Failed to parse a message."))
  -- the object is consumed before it is parsed, so a failure leaves nothing to try again
  | .done object rest =>
      match parseMessageFromObject lib object with
      | .ok message => .message message rest
      | .error status => .invalid status

theorem tryParse_eq_message {u : Unpacker} {lib : MsgpackLibrary} {buffer rest : List UInt8}
    {m : ParsedMessage} (h : tryParse u lib buffer = .message m rest) :
    ∃ object, u.next buffer = .done object rest ∧ parseMessageFromObject lib object = .ok m := by
  unfold tryParse at h
  split at h
  · cases h
  · cases h
  · rename_i object rest' hnext
    split at h
    · rename_i hparse
      cases h
      exact ⟨object, hnext, hparse⟩
    · cases h

def messageParser (u : Unpacker) (hu : u.Incremental) (lib : MsgpackLibrary)
    (readBufferSize : Nat) : MessageParser ParsedMessage where
  readBufferSize
  tryParse := tryParse u lib
  shorter h := by
    obtain ⟨object, hnext, -⟩ := tryParse_eq_message h
    obtain ⟨front, hfront, rfl, -⟩ := hu.front hnext
    have hpos := List.length_pos_iff.mpr hfront
    rw [List.length_append]
    omega

theorem messageParser_incremental {u : Unpacker} (hu : u.Incremental) (lib : MsgpackLibrary)
    (readBufferSize : Nat) : (messageParser u hu lib readBufferSize).Incremental where
  empty := by
    show tryParse u lib [] = _
    simp only [tryParse, hu.empty]
  message h := by
    obtain ⟨object, hnext, hparse⟩ := tryParse_eq_message h
    obtain ⟨front, -, hbuffer, hread⟩ := hu.front hnext
    refine ⟨front, hbuffer, fun more => ?_⟩
    show tryParse u lib (front ++ more) = _
    simp only [tryParse, hread more, hparse]
  invalid {buffer status} h more := by
    have hinvalid : tryParse u lib buffer = .invalid status := h
    show tryParse u lib (buffer ++ more) = _
    unfold tryParse at hinvalid ⊢
    -- what the unpacker has found does not change when more bytes arrive
    cases hnext : u.next buffer with
    | incomplete =>
      rw [hnext] at hinvalid
      cases hinvalid
    | malformed =>
      rw [hu.continues buffer more (by rw [hnext]; nofun), hnext]
      rw [hnext] at hinvalid
      exact hinvalid
    | done object rest =>
      rw [hu.continues buffer more (by rw [hnext]; nofun), hnext]
      simp only [hnext, ReadResult.followedBy] at hinvalid ⊢
      split at hinvalid
      · cases hinvalid
      · exact hinvalid

/-- The parser of the msgpack format, with a buffer of 1024 bytes. -/
def formatParser : MessageParser ParsedMessage :=
  messageParser formatUnpacker formatUnpacker_incremental formatLibrary 1024

/-! ## The status of what is invalid -/

theorem tryParse_invalid {u : Unpacker} {lib : MsgpackLibrary} {buffer : List UInt8}
    {status : Status} (h : tryParse u lib buffer = .invalid status) :
    status.code = .invalidMessage := by
  unfold tryParse at h
  split at h
  · cases h
  · cases h
    rfl
  · split at h
    · cases h
    · rename_i herror
      cases h
      exact rejects_message lib _ _ herror

end MsgpackRpc.Messages
