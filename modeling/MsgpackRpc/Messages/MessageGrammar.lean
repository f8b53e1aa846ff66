import Mathlib.Data.List.Basic
import MsgpackRpc.Messages.ParsedMessage

/-!
# The grammar of messages

`parse_message_from_object` once more, now with all that could go wrong in it: a conversion whose
`type_error` nobody catches, an element read beyond the array, the `abort` after the switch.  None
of it happens, and what is accepted are the messages of `Grammar`.
-/

namespace MsgpackRpc.Messages

open Msgpack (Value)

/-- How a call ends. -/
inductive Outcome (α : Type) where
  | returned (value : α)
  /-- A `MsgpackRPCException` is thrown. -/
  | thrown (status : Status)
  /-- A `msgpack::type_error` is thrown. -/
  | typeError
  /-- `via.array` of an object that is no array, or an element that the array does not have. -/
  | badRead
  /-- `std::abort`. -/
  | aborted
  deriving Repr

namespace Outcome

variable {α β : Type}

def bind : Outcome α → (α → Outcome β) → Outcome β
  | .returned value, f => f value
  | .thrown status, _ => .thrown status
  | .typeError, _ => .typeError
  | .badRead, _ => .badRead
  | .aborted, _ => .aborted

instance : Monad Outcome where
  pure := returned
  bind := bind

@[simp] theorem pure_eq (value : α) : (pure value : Outcome α) = .returned value := rfl

@[simp] theorem returned_bind (value : α) (f : α → Outcome β) :
    returned value >>= f = f value := rfl

@[simp] theorem thrown_bind (status : Status) (f : α → Outcome β) :
    thrown status >>= f = .thrown status := rfl

/-- `try { .. } catch (const msgpack::type_error&) { throw .. }` -/
def catchTypeError (body : Outcome α) (status : Status) : Outcome α :=
  match body with
  | .typeError => .thrown status
  | other => other

def ofExcept : Except Status α → Outcome α
  | .ok value => .returned value
  | .error status => .thrown status

@[simp] theorem ofExcept_ok (value : α) : ofExcept (.ok value) = .returned value := rfl

@[simp] theorem ofExcept_error (status : Status) :
    ofExcept (.error status : Except Status α) = .thrown status := rfl

@[simp] theorem ofExcept_bind (e : Except Status α) (f : α → Except Status β) :
    ofExcept (e >>= f) = ofExcept e >>= fun value => ofExcept (f value) := by
  cases e <;> rfl

/-- `object.as<T>()` -/
def convert (conversion : Value → Option α) (object : Value) : Outcome α :=
  match conversion object with
  | some value => .returned value
  | none => .typeError

/-- `object->via.array.size` -/
def arraySize : Value → Outcome Nat
  | .array items => .returned items.length
  | _ => .badRead

/-- `object->via.array.ptr[i]` -/
def arrayElement (object : Value) (i : Nat) : Outcome Value :=
  match object with
  | .array items =>
      match items[i]? with
      | some item => .returned item
      | none => .badRead
  | _ => .badRead

end Outcome

/-- The values of the enumeration. -/
def MessageType.value : MessageType → UInt8
  | .request => 0
  | .response => 1
  | .notification => 2

namespace Impl

open Outcome

variable (lib : MsgpackLibrary)

def parseMessageTypeFromObject (object : Value) : Outcome UInt8 :=
  catchTypeError
    (do
      match ← convert lib.asUInt64 object with
      | 0 => return MessageType.request.value
      | 1 => return MessageType.response.value
      | 2 => return MessageType.notification.value
      | _ => .thrown (invalidMessage (text "Invalid message type in a message.")))
    (invalidMessage (text "Invalid message type in a message."))

def parseMessageIdFromObject (object : Value) : Outcome UInt32 :=
  catchTypeError (convert lib.asUInt32 object)
    (invalidMessage (text "Invalid message ID in a message."))

def parseMethodNameFromObject (object : Value) : Outcome (List UInt8) :=
  catchTypeError (convert lib.asStringView object)
    (invalidMessage (text "Invalid method name in a message."))

def parseRequestFromObject (object : Value) : Outcome ParsedRequest := do
  if (← arraySize object) ≠ 4 then .thrown invalidSize
  else
    let id ← parseMessageIdFromObject lib (← arrayElement object 1)
    let methodName ← parseMethodNameFromObject lib (← arrayElement object 2)
    let parameters ← ofExcept (ParsedParameters.ofObject (← arrayElement object 3))
    return { id, methodName, parameters }

def parseResponseFromObject (object : Value) : Outcome ParsedResponse := do
  if (← arraySize object) ≠ 4 then .thrown invalidSize
  else
    let id ← parseMessageIdFromObject lib (← arrayElement object 1)
    match ← arrayElement object 2 with
    | .nil => return { id, result := .createResult (← arrayElement object 3) }
    | error => return { id, result := .createError error }

def parseNotificationFromObject (object : Value) : Outcome ParsedNotification := do
  if (← arraySize object) ≠ 3 then .thrown invalidSize
  else
    let methodName ← parseMethodNameFromObject lib (← arrayElement object 1)
    let parameters ← ofExcept (ParsedParameters.ofObject (← arrayElement object 2))
    return { methodName, parameters }

def isArray : Value → Bool
  | .array _ => true
  | _ => false

def parseMessageFromObject (object : Value) : Outcome ParsedMessage := do
  if !isArray object then .thrown (invalidMessage (text "Invalid type of a message."))
  else if (← arraySize object) < 3 then .thrown invalidSize
  else
    match ← parseMessageTypeFromObject lib (← arrayElement object 0) with
    | 0 => return .request (← parseRequestFromObject lib object)
    | 1 => return .response (← parseResponseFromObject lib object)
    | 2 => return .notification (← parseNotificationFromObject lib object)
    -- no case of the switch
    | _ => .aborted

theorem parseMessageTypeFromObject_eq (object : Value) :
    parseMessageTypeFromObject lib object =
      ofExcept ((Messages.parseMessageTypeFromObject lib object).map MessageType.value) := by
  rw [parseMessageTypeFromObject, Messages.parseMessageTypeFromObject, convert]
  cases lib.asUInt64 object with
  | none => rfl
  | some n =>
    rw [returned_bind]
    split
    · rfl
    · rfl
    · rfl
    · rename_i h0 h1 h2
      -- the throw inside the `try`: no other type is taken below either
      split
      · rename_i h
        exact (h0 (Option.some.inj h)).elim
      · rename_i h
        exact (h1 (Option.some.inj h)).elim
      · rename_i h
        exact (h2 (Option.some.inj h)).elim
      · rfl

theorem parseMessageIdFromObject_eq (object : Value) :
    parseMessageIdFromObject lib object =
      ofExcept (Messages.parseMessageIdFromObject lib object) := by
  rw [parseMessageIdFromObject, Messages.parseMessageIdFromObject, convert]
  cases lib.asUInt32 object <;> rfl

theorem parseMethodNameFromObject_eq (object : Value) :
    parseMethodNameFromObject lib object =
      ofExcept (Messages.parseMethodNameFromObject lib object) := by
  rw [parseMethodNameFromObject, Messages.parseMethodNameFromObject, convert]
  cases lib.asStringView object <;> rfl

/-- Both models reject an array of another size in the same way. -/
theorem reject_size {α : Type} {items : List Value} {n : Nat} (hsize : items.length ≠ n)
    (parse : Outcome α) :
    (do if (← arraySize (.array items)) ≠ n then .thrown invalidSize else parse) =
      .thrown invalidSize := by
  rw [arraySize, returned_bind, if_pos hsize]

theorem parseRequestFromObject_eq (items : List Value) :
    parseRequestFromObject lib (.array items) =
      ofExcept (Messages.parseRequestFromObject lib items) := by
  rw [Messages.parseRequestFromObject.eq_def]
  split
  · rename_i id name parameters
    rw [parseRequestFromObject, arraySize, returned_bind, if_neg (by simp)]
    simp only [arrayElement, List.getElem?_cons_succ, List.getElem?_cons_zero, returned_bind,
      parseMessageIdFromObject_eq, parseMethodNameFromObject_eq, ofExcept_bind]
    rfl
  · rename_i hshape
    refine reject_size (fun hsize => ?_) _
    obtain ⟨type, id, name, parameters, rfl⟩ := List.length_eq_four.mp hsize
    exact hshape type id name parameters rfl

theorem parseResponseFromObject_eq (items : List Value) :
    parseResponseFromObject lib (.array items) =
      ofExcept (Messages.parseResponseFromObject lib items) := by
  rw [Messages.parseResponseFromObject.eq_def]
  split
  · rename_i id error result
    rw [parseResponseFromObject, arraySize, returned_bind, if_neg (by simp)]
    simp only [arrayElement, List.getElem?_cons_succ, List.getElem?_cons_zero, returned_bind,
      parseMessageIdFromObject_eq, ofExcept_bind]
    cases error <;> rfl
  · rename_i hshape
    refine reject_size (fun hsize => ?_) _
    obtain ⟨type, id, error, result, rfl⟩ := List.length_eq_four.mp hsize
    exact hshape type id error result rfl

theorem parseNotificationFromObject_eq (items : List Value) :
    parseNotificationFromObject lib (.array items) =
      ofExcept (Messages.parseNotificationFromObject lib items) := by
  rw [Messages.parseNotificationFromObject.eq_def]
  split
  · rename_i name parameters
    rw [parseNotificationFromObject, arraySize, returned_bind, if_neg (by simp)]
    simp only [arrayElement, List.getElem?_cons_succ, List.getElem?_cons_zero, returned_bind,
      parseMethodNameFromObject_eq, ofExcept_bind]
    rfl
  · rename_i hshape
    refine reject_size (fun hsize => ?_) _
    obtain ⟨type, name, parameters, rfl⟩ := List.length_eq_three.mp hsize
    exact hshape type name parameters rfl

/-- Nothing ends the parse but a result or a `MsgpackRPCException`. -/
theorem parseMessageFromObject_eq (object : Value) :
    parseMessageFromObject lib object =
      ofExcept (Messages.parseMessageFromObject lib object) := by
  cases object with
  | array items =>
    match items with
    | [] | [_] | [_, _] => rfl
    | type :: first :: second :: rest =>
      have hsize : ¬ (type :: first :: second :: rest).length < 3 := by simp
      rw [parseMessageFromObject, arraySize, returned_bind, if_neg hsize, arrayElement]
      simp only [isArray, List.getElem?_cons_zero, returned_bind, parseMessageTypeFromObject_eq,
        Messages.parseMessageFromObject]
      cases Messages.parseMessageTypeFromObject lib type with
      | error status => rfl
      | ok type' =>
        cases type' with
        | request =>
          show (parseRequestFromObject lib _ >>= _) = _
          rw [parseRequestFromObject_eq]
          cases Messages.parseRequestFromObject lib (type :: first :: second :: rest) <;> rfl
        | response =>
          show (parseResponseFromObject lib _ >>= _) = _
          rw [parseResponseFromObject_eq]
          cases Messages.parseResponseFromObject lib (type :: first :: second :: rest) <;> rfl
        | notification =>
          show (parseNotificationFromObject lib _ >>= _) = _
          rw [parseNotificationFromObject_eq]
          cases Messages.parseNotificationFromObject lib (type :: first :: second :: rest) <;> rfl
  | _ => rfl

end Impl

/-! ## What is accepted -/

/-- A conversion succeeds on the objects that stand for a value of its type, and on no others. -/
structure MsgpackLibrary.ConvertsExactly (lib : MsgpackLibrary) : Prop where
  asUInt64_iff : ∀ object n, lib.asUInt64 object = some n ↔ object = .positiveInteger n
  asUInt32_iff : ∀ object n, lib.asUInt32 object = some n ↔
    ∃ m : UInt64, object = .positiveInteger m ∧ m.toNat < 2 ^ 32 ∧ n = m.toUInt32
  asStringView_iff : ∀ object bytes, lib.asStringView object = some bytes ↔
    object = .str bytes ∨ object = .bin bytes

theorem formatLibrary_convertsExactly : formatLibrary.ConvertsExactly where
  asUInt64_iff object n := by cases object <;> simp [formatLibrary]
  asUInt32_iff object n := by
    cases object with
    | positiveInteger m => simp [formatLibrary, eq_comm (b := n)]
    | _ => simp [formatLibrary]
  asStringView_iff object bytes := by cases object <;> simp [formatLibrary]

/-- The objects that convert to a text, and the text. -/
inductive IsName : Value → List UInt8 → Prop where
  | str (bytes : List UInt8) : IsName (.str bytes) bytes
  | bin (bytes : List UInt8) : IsName (.bin bytes) bytes

/-- The MessagePack-RPC messages: the objects and what they stand for. -/
inductive Grammar : Value → ParsedMessage → Prop where
  | request {name methodName} (id : UInt64) (parameters : List Value) (hid : id.toNat < 2 ^ 32)
      (hname : IsName name methodName) :
      Grammar (.array [.positiveInteger 0, .positiveInteger id, name, .array parameters])
        (.request ⟨id.toUInt32, methodName, ⟨parameters⟩⟩)
  | success (id : UInt64) (result : Value) (hid : id.toNat < 2 ^ 32) :
      Grammar (.array [.positiveInteger 1, .positiveInteger id, .nil, result])
        (.response ⟨id.toUInt32, .createResult result⟩)
  | failure {error} (id : UInt64) (result : Value) (hid : id.toNat < 2 ^ 32)
      (herror : error ≠ .nil) :
      Grammar (.array [.positiveInteger 1, .positiveInteger id, error, result])
        (.response ⟨id.toUInt32, .createError error⟩)
  | notification {name methodName} (parameters : List Value) (hname : IsName name methodName) :
      Grammar (.array [.positiveInteger 2, name, .array parameters])
        (.notification ⟨methodName, ⟨parameters⟩⟩)

theorem grammar_response (id : UInt64) (error result : Value) (hid : id.toNat < 2 ^ 32) :
    Grammar (.array [.positiveInteger 1, .positiveInteger id, error, result])
      (.response ⟨id.toUInt32, .ofResponse error result⟩) := by
  by_cases herror : error = .nil
  · rw [herror]
    exact .success id result hid
  · rw [CallResult.ofResponse_of_ne_nil herror]
    exact .failure id result hid herror

theorem bind_ok {α β : Type} {e : Except Status α} {f : α → Except Status β} {b : β} :
    e >>= f = .ok b ↔ ∃ a, e = .ok a ∧ f a = .ok b := by
  cases e with
  | error status => exact iff_of_false nofun nofun
  | ok a => exact ⟨fun h => ⟨a, rfl, h⟩, fun ⟨_, ha, h⟩ => by cases ha; exact h⟩

theorem ParsedParameters.ofObject_ok {object : Value} {parameters : ParsedParameters} :
    ParsedParameters.ofObject object = .ok parameters ↔ object = .array parameters.items := by
  obtain ⟨items⟩ := parameters
  cases object <;> simp [ParsedParameters.ofObject]

section

variable {lib : MsgpackLibrary} (hlib : lib.ConvertsExactly)

include hlib

theorem parseMessageIdFromObject_ok {object : Value} {id : UInt32} :
    parseMessageIdFromObject lib object = .ok id ↔
      ∃ n : UInt64, object = .positiveInteger n ∧ n.toNat < 2 ^ 32 ∧ id = n.toUInt32 := by
  rw [← hlib.asUInt32_iff, parseMessageIdFromObject]
  cases lib.asUInt32 object <;> simp

theorem parseMethodNameFromObject_ok {object : Value} {name : List UInt8} :
    parseMethodNameFromObject lib object = .ok name ↔ IsName object name := by
  rw [parseMethodNameFromObject]
  have hiff : IsName object name ↔ lib.asStringView object = some name := by
    rw [hlib.asStringView_iff]
    constructor
    · intro h
      cases h with
      | str => exact .inl rfl
      | bin => exact .inr rfl
    · rintro (rfl | rfl)
      · exact .str name
      · exact .bin name
  rw [hiff]
  cases lib.asStringView object <;> simp

theorem parseMessageTypeFromObject_ok {object : Value} {type : MessageType} :
    parseMessageTypeFromObject lib object = .ok type ↔
      object = .positiveInteger type.value.toUInt64 := by
  rw [← hlib.asUInt64_iff, parseMessageTypeFromObject]
  split
  · rename_i h
    cases type <;> simp [h, MessageType.value]
  · rename_i h
    cases type <;> simp [h, MessageType.value]
  · rename_i h
    cases type <;> simp [h, MessageType.value]
  · rename_i h0 h1 h2
    cases type <;> simpa [MessageType.value]

theorem parseRequestFromObject_ok {items : List Value} {request : ParsedRequest} :
    parseRequestFromObject lib items = .ok request ↔
      ∃ type id name, items = [type, .positiveInteger id, name, .array request.parameters.items] ∧
        id.toNat < 2 ^ 32 ∧ request.id = id.toUInt32 ∧ IsName name request.methodName := by
  rw [parseRequestFromObject.eq_def]
  split
  · rename_i type id name parameters
    simp only [bind_ok, parseMessageIdFromObject_ok hlib, parseMethodNameFromObject_ok hlib,
      ParsedParameters.ofObject_ok]
    constructor
    · rintro ⟨_, ⟨id, rfl, hid, rfl⟩, methodName, hname, parameters, rfl, heq⟩
      cases heq
      exact ⟨type, id, name, rfl, hid, rfl, hname⟩
    · rintro ⟨_, id, _, heq, hid, hrequest, hname⟩
      cases heq
      refine ⟨_, ⟨id, rfl, hid, rfl⟩, _, hname, request.parameters, rfl, ?_⟩
      rw [← hrequest]
      rfl
  · rename_i hshape
    refine iff_of_false (fun h => by cases h) ?_
    rintro ⟨type, id, name, rfl, -⟩
    exact hshape _ _ _ _ rfl

theorem parseResponseFromObject_ok {items : List Value} {response : ParsedResponse} :
    parseResponseFromObject lib items = .ok response ↔
      ∃ type id error result, items = [type, .positiveInteger id, error, result] ∧
        id.toNat < 2 ^ 32 ∧ response.id = id.toUInt32 ∧
        response.result = .ofResponse error result := by
  rw [parseResponseFromObject.eq_def]
  split
  · rename_i type id error result
    simp only [bind_ok, parseMessageIdFromObject_ok hlib]
    constructor
    · rintro ⟨_, ⟨id, rfl, hid, rfl⟩, heq⟩
      cases heq
      exact ⟨type, id, error, result, rfl, hid, rfl, rfl⟩
    · rintro ⟨_, id, _, _, heq, hid, hresponse, hresult⟩
      cases heq
      refine ⟨_, ⟨id, rfl, hid, rfl⟩, ?_⟩
      rw [← hresponse, ← hresult]
      rfl
  · rename_i hshape
    refine iff_of_false (fun h => by cases h) ?_
    rintro ⟨type, id, error, result, rfl, -⟩
    exact hshape _ _ _ _ rfl

theorem parseNotificationFromObject_ok {items : List Value} {notification : ParsedNotification} :
    parseNotificationFromObject lib items = .ok notification ↔
      ∃ type name, items = [type, name, .array notification.parameters.items] ∧
        IsName name notification.methodName := by
  rw [parseNotificationFromObject.eq_def]
  split
  · rename_i type name parameters
    simp only [bind_ok, parseMethodNameFromObject_ok hlib, ParsedParameters.ofObject_ok]
    constructor
    · rintro ⟨methodName, hname, parameters, rfl, heq⟩
      cases heq
      exact ⟨type, name, rfl, hname⟩
    · rintro ⟨_, _, heq, hname⟩
      cases heq
      exact ⟨_, hname, notification.parameters, rfl, rfl⟩
  · rename_i hshape
    refine iff_of_false (fun h => by cases h) ?_
    rintro ⟨type, name, rfl, -⟩
    exact hshape _ _ _ rfl

theorem grammar_of_parse {object : Value} {message : ParsedMessage}
    (h : parseMessageFromObject lib object = .ok message) : Grammar object message := by
  rw [parseMessageFromObject.eq_def] at h
  split at h
  · rename_i items
    split at h
    · rename_i object first second rest
      obtain ⟨type, htype, h⟩ := bind_ok.mp h
      rw [parseMessageTypeFromObject_ok hlib] at htype
      subst htype
      split at h
      · obtain ⟨⟨_, methodName, ⟨parameters⟩⟩, hrequest, heq⟩ := bind_ok.mp h
        cases heq
        obtain ⟨_, id, name, heq, hid, rfl, hname⟩ := (parseRequestFromObject_ok hlib).mp hrequest
        cases heq
        exact .request id parameters hid hname
      · obtain ⟨⟨_, _⟩, hresponse, heq⟩ := bind_ok.mp h
        cases heq
        obtain ⟨_, id, error, result, heq, hid, rfl, rfl⟩ :=
          (parseResponseFromObject_ok hlib).mp hresponse
        cases heq
        exact grammar_response id second result hid
      · obtain ⟨⟨methodName, ⟨parameters⟩⟩, hnotification, heq⟩ := bind_ok.mp h
        cases heq
        obtain ⟨_, name, heq, hname⟩ := (parseNotificationFromObject_ok hlib).mp hnotification
        cases heq
        exact .notification parameters hname
    · cases h
  · cases h

theorem parse_of_grammar {object : Value} {message : ParsedMessage} (h : Grammar object message) :
    parseMessageFromObject lib object = .ok message := by
  have htype : ∀ type : MessageType, parseMessageTypeFromObject lib
      (.positiveInteger type.value.toUInt64) = .ok type :=
    fun type => (parseMessageTypeFromObject_ok hlib).mpr rfl
  cases h with
  | @request name methodName id parameters hid hname =>
    have hrequest : parseRequestFromObject lib _ =
        .ok { id := id.toUInt32, methodName, parameters := { items := parameters } } :=
      (parseRequestFromObject_ok hlib).mpr ⟨.positiveInteger 0, id, name, rfl, hid, rfl, hname⟩
    exact bind_ok.mpr ⟨.request, htype .request, bind_ok.mpr ⟨_, hrequest, rfl⟩⟩
  | success id result hid =>
    have hresponse : parseResponseFromObject lib _ =
        .ok { id := id.toUInt32, result := .createResult result } :=
      (parseResponseFromObject_ok hlib).mpr
        ⟨.positiveInteger 1, id, .nil, result, rfl, hid, rfl, rfl⟩
    exact bind_ok.mpr ⟨.response, htype .response, bind_ok.mpr ⟨_, hresponse, rfl⟩⟩
  | @failure error id result hid herror =>
    have hresponse : parseResponseFromObject lib _ =
        .ok { id := id.toUInt32, result := .createError error } :=
      (parseResponseFromObject_ok hlib).mpr ⟨.positiveInteger 1, id, error, result, rfl, hid, rfl,
        (CallResult.ofResponse_of_ne_nil herror result).symm⟩
    exact bind_ok.mpr ⟨.response, htype .response, bind_ok.mpr ⟨_, hresponse, rfl⟩⟩
  | @notification name methodName parameters hname =>
    have hnotification : parseNotificationFromObject lib _ =
        .ok { methodName, parameters := { items := parameters } } :=
      (parseNotificationFromObject_ok hlib).mpr ⟨.positiveInteger 2, name, rfl, hname⟩
    exact bind_ok.mpr ⟨.notification, htype .notification, bind_ok.mpr ⟨_, hnotification, rfl⟩⟩

end

/-- The parse returns the messages of the grammar with their fields, and ends with an
`INVALID_MESSAGE` exception on everything else. -/
theorem parse_message_iff_grammar (lib : MsgpackLibrary) (hlib : lib.ConvertsExactly)
    (object : Value) :
    (∀ message, Impl.parseMessageFromObject lib object = .returned message ↔
      Grammar object message) ∧
    ((∀ message, ¬ Grammar object message) → ∃ text,
      Impl.parseMessageFromObject lib object = .thrown (invalidMessage text)) := by
  rw [Impl.parseMessageFromObject_eq]
  cases h : parseMessageFromObject lib object with
  | ok message =>
    have hgrammar : Grammar object message := grammar_of_parse hlib h
    refine ⟨fun message' => ?_, fun hnone => absurd hgrammar (hnone message)⟩
    constructor
    · intro heq
      cases heq
      exact hgrammar
    · intro hgrammar'
      rw [parse_of_grammar hlib hgrammar'] at h
      cases h
      rfl
  | error status =>
    have hstatus := (rejects_message lib object).eq_invalidMessage h
    refine ⟨fun message => iff_of_false nofun fun hgrammar => ?_, fun _ => ?_⟩
    · rw [parse_of_grammar hlib hgrammar] at h
      cases h
    · exact ⟨status.message, congrArg Outcome.thrown hstatus⟩

/-- The name may be a binary, and not an integer. -/
theorem parse_message_binary_name :
    Impl.parseMessageFromObject formatLibrary
      (.array [.positiveInteger 0, .positiveInteger 7, .bin [97], .array [.nil]]) =
        .returned (.request ⟨7, [97], ⟨[.nil]⟩⟩) ∧
    ∃ text, Impl.parseMessageFromObject formatLibrary
      (.array [.positiveInteger 2, .positiveInteger 7, .array []]) =
        .thrown (invalidMessage text) := by
  refine ⟨((parse_message_iff_grammar formatLibrary formatLibrary_convertsExactly _).1 _).mpr
    (.request 7 [.nil] (by decide) (.bin [97])), ?_⟩
  refine (parse_message_iff_grammar formatLibrary formatLibrary_convertsExactly _).2 ?_
  intro message h
  cases h with
  | notification _ hname => cases hname

end MsgpackRpc.Messages
