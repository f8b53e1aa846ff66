import MsgpackRpc.Messages.ParsedMessage

/-!
# The message serializer

A message is packed piece by piece behind the head of its root array.  What is serialized is parsed
back as the same message.
-/

namespace MsgpackRpc.Messages

open Msgpack (Value)

namespace MessageSerializer

variable (lib : MsgpackLibrary)

/-- `packer.pack` of an unsigned integer. -/
def integer (n : UInt32) : Value := .positiveInteger n.toUInt64

/-- The pieces of a message, one `pack` after another; `none` is the exception of a piece that is
too large. -/
def serialize (pieces : List Value) : Option (List UInt8) := do
  let packed ← pieces.mapM lib.pack
  return lib.packArray pieces.length ++ packed.flatten

/-- The parameters are packed as a tuple, which makes them an array. -/
def serializeRequest (methodName : List UInt8) (messageId : UInt32) (parameters : List Value) :
    Option (List UInt8) :=
  serialize lib [integer 0, integer messageId, .str methodName, .array parameters]

def serializeSuccessfulResponse (requestId : UInt32) (result : Value) : Option (List UInt8) :=
  serialize lib [integer 1, integer requestId, .nil, result]

def serializeErrorResponse (requestId : UInt32) (error : Value) : Option (List UInt8) :=
  serialize lib [integer 1, integer requestId, error, .nil]

def serializeNotification (methodName : List UInt8) (parameters : List Value) :
    Option (List UInt8) :=
  serialize lib [integer 2, .str methodName, .array parameters]

end MessageSerializer

open MessageSerializer

variable {lib : MsgpackLibrary}

namespace MsgpackLibrary.Lawful

theorem mapM_pack_isSome (hlib : lib.Lawful) (items : List Value) :
    (items.mapM lib.pack).isSome = Value.fitsItems items := by
  induction items with
  | nil => rfl
  | cons item items ih =>
    rw [Value.fitsItems, ← hlib.pack_isSome item, ← ih, List.mapM_cons]
    cases lib.pack item with
    | none => rfl
    | some bytes => cases items.mapM lib.pack <;> rfl

/-- A message is serialized if and only if all its pieces have room in the format. -/
theorem serialize_isSome (hlib : lib.Lawful) (pieces : List Value) :
    (serialize lib pieces).isSome = Value.fitsItems pieces := by
  rw [← hlib.mapM_pack_isSome pieces, serialize]
  cases pieces.mapM lib.pack <;> rfl

theorem successfulResponse_isSome (hlib : lib.Lawful) (id : UInt32) (result : Value) :
    (serializeSuccessfulResponse lib id result).isSome = result.fits := by
  rw [serializeSuccessfulResponse, hlib.serialize_isSome]
  simp only [Value.fitsItems, integer, Value.fits, Bool.true_and, Bool.and_true]

theorem errorResponse_isSome (hlib : lib.Lawful) (id : UInt32) (error : Value) :
    (serializeErrorResponse lib id error).isSome = error.fits := by
  rw [serializeErrorResponse, hlib.serialize_isSome]
  simp only [Value.fitsItems, integer, Value.fits, Bool.true_and, Bool.and_true]

theorem unpack_serialize (hlib : lib.Lawful) {pieces : List Value} {bytes : List UInt8}
    (h : serialize lib pieces = some bytes) (hsize : pieces.length ≤ 4) :
    lib.unpack bytes = some (.array pieces) := by
  simp only [serialize, Option.bind_eq_bind, Option.bind_eq_some_iff] at h
  obtain ⟨packed, hpacked, hbytes⟩ := h
  cases hbytes
  exact hlib.unpack_array pieces packed (by omega) hpacked

/-- The root array is what `parse_message_from_object` gets to see. -/
theorem parseBytes_serialize (hlib : lib.Lawful) {pieces : List Value} {bytes : List UInt8}
    {message : ParsedMessage} (h : serialize lib pieces = some bytes)
    (hparse : parseMessageFromObject lib (.array pieces) = .ok message)
    (hsize : pieces.length ≤ 4) :
    parseBytes lib bytes = some message := by
  rw [parseBytes, hlib.unpack_serialize h hsize, Option.bind_some, hparse]
  rfl

theorem parseMessageId_integer (hlib : lib.Lawful) (id : UInt32) :
    parseMessageIdFromObject lib (integer id) = .ok id := by
  rw [parseMessageIdFromObject, integer, hlib.asUInt32_positive]

theorem parseMethodName_str (hlib : lib.Lawful) (name : List UInt8) :
    parseMethodNameFromObject lib (.str name) = .ok name := by
  rw [parseMethodNameFromObject, hlib.asStringView_str]

theorem parseMessageType_integer (hlib : lib.Lawful) (type : UInt32) :
    parseMessageTypeFromObject lib (integer type) =
      match type.toUInt64 with
      | 0 => .ok .request
      | 1 => .ok .response
      | 2 => .ok .notification
      | _ => .error (invalidMessage (text "Invalid message type in a message.")) := by
  rw [parseMessageTypeFromObject, integer, hlib.asUInt64_positive]
  split <;> simp_all

theorem parseMessage_request (hlib : lib.Lawful) (id : UInt32) (name : List UInt8)
    (parameters : List Value) :
    parseMessageFromObject lib (.array [integer 0, integer id, .str name, .array parameters]) =
      .ok (.request { id, methodName := name, parameters := ⟨parameters⟩ }) := by
  -- each element is converted back by its own law
  have htype := hlib.parseMessageType_integer 0
  have hid := hlib.parseMessageId_integer id
  have hname := hlib.parseMethodName_str name
  simp only [parseMessageFromObject, htype, parseRequestFromObject, hid, hname]
  rfl

theorem parseMessage_notification (hlib : lib.Lawful) (name : List UInt8)
    (parameters : List Value) :
    parseMessageFromObject lib (.array [integer 2, .str name, .array parameters]) =
      .ok (.notification { methodName := name, parameters := ⟨parameters⟩ }) := by
  have htype := hlib.parseMessageType_integer 2
  have hname := hlib.parseMethodName_str name
  simp only [parseMessageFromObject, htype, parseNotificationFromObject, hname]
  rfl

theorem parseMessage_response (hlib : lib.Lawful) (id : UInt32) (error result : Value) :
    parseMessageFromObject lib (.array [integer 1, integer id, error, result]) =
      .ok (.response { id, result := .ofResponse error result }) := by
  have htype := hlib.parseMessageType_integer 1
  have hid := hlib.parseMessageId_integer id
  simp only [parseMessageFromObject, htype, parseResponseFromObject, hid]
  rfl

theorem parse_successfulResponse (hlib : lib.Lawful) {id : UInt32} {result : Value}
    {bytes : List UInt8} (h : serializeSuccessfulResponse lib id result = some bytes) :
    parseBytes lib bytes = some (.response { id, result := .createResult result }) := by
  have hparse := hlib.parseMessage_response id .nil result
  exact hlib.parseBytes_serialize h hparse (Nat.le_refl 4)

theorem parse_errorResponse (hlib : lib.Lawful) {id : UInt32} {error : Value} {bytes : List UInt8}
    (h : serializeErrorResponse lib id error = some bytes) :
    parseBytes lib bytes = some (.response { id, result := .ofResponse error .nil }) := by
  have hparse := hlib.parseMessage_response id error .nil
  exact hlib.parseBytes_serialize h hparse (Nat.le_refl 4)

end MsgpackLibrary.Lawful

/-- Decoding undoes encoding, and it never mistakes one kind of message for another.  A message that
has no room in the format is not serialized at all. -/
theorem parse_serialized (lib : MsgpackLibrary) (hlib : lib.Lawful) :
    (∀ name id parameters bytes, serializeRequest lib name id parameters = some bytes →
      parseBytes lib bytes =
        some (.request { id, methodName := name, parameters := ⟨parameters⟩ })) ∧
    (∀ name parameters bytes, serializeNotification lib name parameters = some bytes →
      parseBytes lib bytes =
        some (.notification { methodName := name, parameters := ⟨parameters⟩ })) ∧
    (∀ id result bytes, serializeSuccessfulResponse lib id result = some bytes →
      parseBytes lib bytes = some (.response { id, result := .createResult result })) ∧
    (∀ id error bytes, serializeErrorResponse lib id error = some bytes →
      ∃ result, parseBytes lib bytes = some (.response { id, result })) ∧
    (∀ name id parameters, (serializeRequest lib name id parameters).isSome =
      ((Value.str name).fits && (Value.array parameters).fits)) ∧
    (∀ name parameters, (serializeNotification lib name parameters).isSome =
      ((Value.str name).fits && (Value.array parameters).fits)) ∧
    (∀ id result, (serializeSuccessfulResponse lib id result).isSome = result.fits) ∧
    (∀ id error, (serializeErrorResponse lib id error).isSome = error.fits) := by
  refine ⟨?_, ?_, ?_, ?_, ?_, ?_, ?_, ?_⟩
  · intro name id parameters bytes h
    have hparse := hlib.parseMessage_request id name parameters
    exact hlib.parseBytes_serialize h hparse (Nat.le_refl 4)
  · intro name parameters bytes h
    have hparse := hlib.parseMessage_notification name parameters
    exact hlib.parseBytes_serialize h hparse (Nat.le_succ 3)
  · exact fun id result bytes => hlib.parse_successfulResponse
  · exact fun id error bytes h => ⟨_, hlib.parse_errorResponse h⟩
  · intro name id parameters
    rw [serializeRequest, hlib.serialize_isSome]
    simp only [Value.fitsItems, integer, Value.fits, Bool.true_and, Bool.and_true]
  · intro name parameters
    rw [serializeNotification, hlib.serialize_isSome]
    simp only [Value.fitsItems, integer, Value.fits, Bool.true_and, Bool.and_true]
  · exact hlib.successfulResponse_isSome
  · exact hlib.errorResponse_isSome

/-- The request `add(1, -1)` with the ID 300, on the wire and back. -/
theorem parse_serialized_add :
    serializeRequest formatLibrary [97, 100, 100] 300 [.positiveInteger 1, .negativeInteger 0] =
      some [0x94, 0x00, 0xcd, 0x01, 0x2c, 0xa3, 97, 100, 100, 0x92, 0x01, 0xff] ∧
    parseBytes formatLibrary [0x94, 0x00, 0xcd, 0x01, 0x2c, 0xa3, 97, 100, 100, 0x92, 0x01, 0xff] =
      some (.request
        { id := 300
          methodName := [97, 100, 100]
          parameters := ⟨[.positiveInteger 1, .negativeInteger 0]⟩ }) := by
  have hbytes : serializeRequest formatLibrary [97, 100, 100] 300
      [.positiveInteger 1, .negativeInteger 0] =
      some [0x94, 0x00, 0xcd, 0x01, 0x2c, 0xa3, 97, 100, 100, 0x92, 0x01, 0xff] := by rfl
  exact ⟨hbytes, (parse_serialized formatLibrary formatLibrary_lawful).1 _ _ _ _ hbytes⟩

end MsgpackRpc.Messages
