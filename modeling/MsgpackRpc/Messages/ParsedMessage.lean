import MsgpackRpc.Common.Status
import MsgpackRpc.Lib.Msgpack

/-!
# Parsed messages

`parse_message_from_object` and the classes of what it parses.  The msgpack library is a dependency:
its packer, its unpacker and its conversions of objects enter as the fields of `MsgpackLibrary`.
-/

namespace MsgpackRpc.Messages

open Msgpack (Value)

/-- What messages need of the msgpack library. -/
structure MsgpackLibrary where
  /-- `packer.pack_array`: the head of an array of this size. -/
  packArray : Nat → List UInt8
  /-- `packer.pack` of an object that is packed like this value; `none` is the exception
  `container_size_overflow`. -/
  pack : Value → Option (List UInt8)
  /-- The first object of a buffer; `none` when there is no complete and valid one. -/
  unpack : List UInt8 → Option Value
  /-- `object.as<std::uint64_t>()` and the other conversions; `none` is a `type_error`. -/
  asUInt64 : Value → Option UInt64
  asUInt32 : Value → Option UInt32
  asStringView : Value → Option (List UInt8)

/-- The packer refuses exactly the sizes that the format has no room for, unpacking gives back what
was packed, and so do the conversions. -/
structure MsgpackLibrary.Lawful (lib : MsgpackLibrary) : Prop where
  pack_isSome : ∀ value, (lib.pack value).isSome = value.fits
  unpack_array : ∀ items packed, items.length < 256 ^ 4 → items.mapM lib.pack = some packed →
    lib.unpack (lib.packArray items.length ++ packed.flatten) = some (.array items)
  asUInt64_positive : ∀ n, lib.asUInt64 (.positiveInteger n) = some n
  asUInt32_positive : ∀ n : UInt32, lib.asUInt32 (.positiveInteger n.toUInt64) = some n
  asStringView_str : ∀ bytes, lib.asStringView (.str bytes) = some bytes

/-- A library that packs and unpacks the msgpack format. -/
def formatLibrary : MsgpackLibrary where
  packArray := Value.arrayHead
  pack value := if value.fits then some value.encode else none
  unpack bytes :=
    match Msgpack.next bytes with
    | .done value _ => some value
    | _ => none
  asUInt64
    | .positiveInteger n => some n
    | _ => none
  asUInt32
    | .positiveInteger n => if n.toNat < 2 ^ 32 then some n.toUInt32 else none
    | _ => none
  asStringView
    | .str bytes | .bin bytes => some bytes
    | _ => none

theorem mapM_pack_formatLibrary {items : List Value} {packed : List (List UInt8)}
    (h : items.mapM formatLibrary.pack = some packed) :
    Value.fitsItems items = true ∧ packed.flatten = Value.encodeItems items := by
  induction items generalizing packed with
  | nil =>
    cases h
    exact ⟨rfl, rfl⟩
  | cons item items ih =>
    simp only [List.mapM_cons, Option.bind_eq_bind, Option.bind_eq_some_iff] at h
    obtain ⟨bytes, hbytes, rest, hrest, hpacked⟩ := h
    cases hpacked
    simp only [formatLibrary, Option.ite_none_right_eq_some, Option.some.injEq] at hbytes
    obtain ⟨hfits, rfl⟩ := hbytes
    obtain ⟨hfitsItems, hflatten⟩ := ih hrest
    constructor
    · rw [Value.fitsItems, hfits, hfitsItems]
      rfl
    · rw [List.flatten_cons, hflatten]
      rfl

theorem formatLibrary_lawful : formatLibrary.Lawful where
  pack_isSome value := by
    unfold formatLibrary
    cases hfits : value.fits <;> simp [hfits]
  unpack_array items packed hsize hpacked := by
    obtain ⟨hfits, hflatten⟩ := mapM_pack_formatLibrary hpacked
    have harray : (Value.array items).fits = true := by
      rw [Value.fits, hfits, Bool.and_true, decide_eq_true hsize]
    have hnext := Msgpack.next_encode harray []
    rw [List.append_nil] at hnext
    show (match Msgpack.next (Value.arrayHead items.length ++ packed.flatten) with
      | .done value _ => some value
      | _ => none) = _
    rw [hflatten, show Value.arrayHead items.length ++ Value.encodeItems items =
      (Value.array items).encode from rfl, hnext]
  asUInt64_positive _ := rfl
  asUInt32_positive n := by
    have hrange := n.toNat_lt
    show (if n.toUInt64.toNat < 2 ^ 32 then some n.toUInt64.toUInt32 else none) = some n
    rw [UInt32.toNat_toUInt64, if_pos hrange, UInt32.toUInt32_toUInt64]
  asStringView_str _ := rfl

/-- An object whose type is `ARRAY`, by its elements. -/
structure ParsedParameters where
  items : List Value

def ParsedParameters.ofObject : Value → Except Status ParsedParameters
  | .array items => .ok { items }
  | _ => .error (.create .invalidMessage (text "Invalid type of parameters."))

structure CallResult where
  isError : Bool
  object : Value

namespace CallResult

def createResult (object : Value) : CallResult := { isError := false, object }

def createError (object : Value) : CallResult := { isError := true, object }

def isSuccess (result : CallResult) : Bool := !result.isError

/-- What the third and the fourth element of a response stand for: there is an error exactly if the
third one is not nil. -/
def ofResponse (error result : Value) : CallResult :=
  -- an error object that is nil is no error
  match error with
  | .nil => createResult result
  | error => createError error

theorem ofResponse_of_ne_nil {error : Value} (h : error ≠ .nil) (result : Value) :
    ofResponse error result = createError error := by
  cases error with
  | nil => exact absurd rfl h
  | _ => rfl

end CallResult

structure ParsedRequest where
  id : UInt32
  methodName : List UInt8
  parameters : ParsedParameters

structure ParsedResponse where
  id : UInt32
  result : CallResult

structure ParsedNotification where
  methodName : List UInt8
  parameters : ParsedParameters

inductive MessageType where
  | request
  | response
  | notification
  deriving DecidableEq, Repr

inductive ParsedMessage where
  | request (request : ParsedRequest)
  | response (response : ParsedResponse)
  | notification (notification : ParsedNotification)

def ParsedMessage.type : ParsedMessage → MessageType
  | .request _ => .request
  | .response _ => .response
  | .notification _ => .notification

variable (lib : MsgpackLibrary)

def invalidMessage (message : List UInt8) : Status := .create .invalidMessage message

def parseMessageTypeFromObject (object : Value) : Except Status MessageType :=
  match lib.asUInt64 object with
  | some 0 => .ok .request
  | some 1 => .ok .response
  | some 2 => .ok .notification
  | _ => .error (invalidMessage (text "Invalid message type in a message."))

def parseMessageIdFromObject (object : Value) : Except Status UInt32 :=
  match lib.asUInt32 object with
  | some id => .ok id
  | none => .error (invalidMessage (text "Invalid message ID in a message."))

def parseMethodNameFromObject (object : Value) : Except Status (List UInt8) :=
  match lib.asStringView object with
  | some name => .ok name
  | none => .error (invalidMessage (text "Invalid method name in a message."))

/-- The elements of the root array must be four, or three for a notification. -/
def invalidSize : Status := invalidMessage (text "Invalid size of the array of a message.")

def parseRequestFromObject : List Value → Except Status ParsedRequest
  | [_, id, name, parameters] => do
      let id ← parseMessageIdFromObject lib id
      let methodName ← parseMethodNameFromObject lib name
      let parameters ← ParsedParameters.ofObject parameters
      return { id, methodName, parameters }
  | _ => .error invalidSize

def parseResponseFromObject : List Value → Except Status ParsedResponse
  | [_, id, error, result] => do
      let id ← parseMessageIdFromObject lib id
      return { id, result := .ofResponse error result }
  | _ => .error invalidSize

def parseNotificationFromObject : List Value → Except Status ParsedNotification
  | [_, name, parameters] => do
      let methodName ← parseMethodNameFromObject lib name
      let parameters ← ParsedParameters.ofObject parameters
      return { methodName, parameters }
  | _ => .error invalidSize

def parseMessageFromObject : Value → Except Status ParsedMessage
  | .array items =>
      match items with
      -- the size is tested before the type is looked at
      | type :: _ :: _ :: _ => do
          match ← parseMessageTypeFromObject lib type with
          | .request => return .request (← parseRequestFromObject lib items)
          | .response => return .response (← parseResponseFromObject lib items)
          | .notification => return .notification (← parseNotificationFromObject lib items)
      | _ => .error invalidSize
  | _ => .error (invalidMessage (text "Invalid type of a message."))

/-- The message in a buffer; `none` when the buffer holds no object or the parse throws. -/
def parseBytes (bytes : List UInt8) : Option ParsedMessage :=
  (lib.unpack bytes).bind fun object => (parseMessageFromObject lib object).toOption

/-! ## How messages are rejected -/

/-- Whatever is thrown carries the code `INVALID_MESSAGE`. -/
def Rejects {α : Type} (e : Except Status α) : Prop :=
  ∀ status, e = .error status → status.code = .invalidMessage

theorem rejects_ok {α : Type} (a : α) : Rejects (.ok a) := nofun

theorem rejects_invalidMessage {α : Type} (message : List UInt8) :
    Rejects (.error (invalidMessage message) : Except Status α) := by
  intro status h
  cases h
  rfl

theorem Rejects.bind {α β : Type} {e : Except Status α} {f : α → Except Status β} (he : Rejects e)
    (hf : ∀ a, Rejects (f a)) : Rejects (e >>= f) := by
  cases e with
  | error status => exact fun _ h => he _ (by cases h; rfl)
  | ok a => exact hf a

/-- The status is made of its message. -/
theorem Rejects.eq_invalidMessage {α : Type} {e : Except Status α} {status : Status}
    (h : Rejects e) (he : e = .error status) : status = invalidMessage status.message := by
  rw [invalidMessage, ← h status he, Status.create_code_message]

theorem rejects_type (object : Value) : Rejects (parseMessageTypeFromObject lib object) := by
  rw [parseMessageTypeFromObject]
  split
  · exact rejects_ok _
  · exact rejects_ok _
  · exact rejects_ok _
  · exact rejects_invalidMessage _

theorem rejects_id (object : Value) : Rejects (parseMessageIdFromObject lib object) := by
  rw [parseMessageIdFromObject]
  split
  · exact rejects_ok _
  · exact rejects_invalidMessage _

theorem rejects_name (object : Value) : Rejects (parseMethodNameFromObject lib object) := by
  rw [parseMethodNameFromObject]
  split
  · exact rejects_ok _
  · exact rejects_invalidMessage _

theorem rejects_parameters (object : Value) : Rejects (ParsedParameters.ofObject object) := by
  rw [ParsedParameters.ofObject.eq_def]
  split
  · exact rejects_ok _
  · exact rejects_invalidMessage _

theorem rejects_request (items : List Value) : Rejects (parseRequestFromObject lib items) := by
  rw [parseRequestFromObject.eq_def]
  split
  · exact (rejects_id lib _).bind fun _ => (rejects_name lib _).bind fun _ =>
      (rejects_parameters _).bind fun _ => rejects_ok _
  · exact rejects_invalidMessage _

theorem rejects_response (items : List Value) : Rejects (parseResponseFromObject lib items) := by
  rw [parseResponseFromObject.eq_def]
  split
  · exact (rejects_id lib _).bind fun _ => rejects_ok _
  · exact rejects_invalidMessage _

theorem rejects_notification (items : List Value) :
    Rejects (parseNotificationFromObject lib items) := by
  rw [parseNotificationFromObject.eq_def]
  split
  · exact (rejects_name lib _).bind fun _ => (rejects_parameters _).bind fun _ => rejects_ok _
  · exact rejects_invalidMessage _

theorem rejects_message (object : Value) : Rejects (parseMessageFromObject lib object) := by
  rw [parseMessageFromObject.eq_def]
  split
  · split
    · refine (rejects_type lib _).bind fun type => ?_
      cases type with
      | request => exact (rejects_request lib _).bind fun _ => rejects_ok _
      | response => exact (rejects_response lib _).bind fun _ => rejects_ok _
      | notification => exact (rejects_notification lib _).bind fun _ => rejects_ok _
    · exact rejects_invalidMessage _
  · exact rejects_invalidMessage _

end MsgpackRpc.Messages
