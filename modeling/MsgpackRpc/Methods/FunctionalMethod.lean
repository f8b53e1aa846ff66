import MsgpackRpc.Messages.MessageSerializer

/-!
# Methods implemented by functions

`FunctionalMethod` in its two specialisations.  C++ exceptions are the errors of `Except`; the catch
clauses tell `MethodException`, the other `std::exception`s and all other values apart.
-/

namespace MsgpackRpc.Methods

open Msgpack (Value)
open Messages

/-- A `msgpack::object`, whose sizes are 32 bits wide. -/
abbrev Object := { value : Value // value.fits = true }

/-- The `std::exception`s that are no `MethodException`. -/
inductive StandardException where
  /-- `msgpack::type_error` -/
  | typeError
  /-- `MsgpackRPCException` -/
  | msgpackRPC (status : Status)
  | other (what : List UInt8)
  deriving DecidableEq, Repr

/-- `what()`, a C string: it ends before the first null byte. -/
def StandardException.what : StandardException → List UInt8
  | .typeError => text "std::bad_cast"
  | .msgpackRPC status => status.message.takeWhile (· != 0)
  | .other what => what.takeWhile (· != 0)

/-- The error object that is made of `what()`. -/
def StandardException.object (e : StandardException) : Value := .str e.what

/-- A value that is thrown. -/
inductive Raised where
  | method (object : Object)
  | standard (e : StandardException)
  /-- A value that is not a `std::exception`. -/
  | foreign

/-- The object that tells a client of an exception. -/
def Raised.object : Raised → Option Value
  | .method object => some object.val
  | .standard e => some e.object
  | .foreign => none

section Catch

variable {α : Type}

/-- `try { body } catch (const MethodException& e) { handler(e.object()) }` -/
def catchMethod (body : Except Raised α) (handler : Object → Except Raised α) : Except Raised α :=
  match body with
  | .error (.method object) => handler object
  | body => body

/-- `try { body } catch (const std::exception& e) { handler(e.what()) }` -/
def catchStandard (body : Except Raised α) (handler : List UInt8 → Except Raised α) :
    Except Raised α :=
  match body with
  -- a `MethodException` is a `std::exception`, with a `what()` of its own
  | .error (.method _) => handler (text "Method threw an exception.")
  | .error (.standard e) => handler e.what
  | body => body

/-- A try block with both clauses. -/
def catchBoth (body : Except Raised α) (onMethod : Object → Except Raised α)
    (onStandard : List UInt8 → Except Raised α) : Except Raised α :=
  match body with
  | .error (.method object) => onMethod object
  | body => catchStandard body onStandard

end Catch

def containerSizeOverflow : StandardException := .other (text "container size overflow")

/-- What the serializer returns, or the exception of the packer. -/
def orOverflow : Option (List UInt8) → Except Raised (List UInt8)
  | some bytes => .ok bytes
  | none => .error (.standard containerSizeOverflow)

/-- The constructor of `MethodException` for a text. -/
def methodException (what : List UInt8) : Raised :=
  if h : (Value.str what).fits = true then .method ⟨.str what, h⟩
  else .standard containerSizeOverflow

/-- `std::tuple<Parameters...>`: the number of parameters, and `object.as` of the tuple. -/
structure ParameterTypes (P : Type) where
  size : Nat
  convert : List Value → Except StandardException P

/-- The adaptor of a type: the object that a value is packed as, and `object.as`. -/
structure Adaptor (α : Type) where
  pack : α → Except StandardException Value
  convert : Value → Except StandardException α
  convert_pack : ∀ {a v}, pack a = .ok v → convert v = .ok a

/-- `ParsedParameters::as` -/
def parametersAs {P : Type} (types : ParameterTypes P) (parameters : ParsedParameters) :
    Except StandardException P :=
  if parameters.items.length ≠ types.size then
    .error (.msgpackRPC (.create .invalidMessage (text "Invalid number of parameters.")))
  else
    match types.convert parameters.items with
    | .error .typeError =>
        .error (.msgpackRPC (.create .typeError (text "Invalid types of parameters.")))
    | converted => converted

/-- A `std::exception` on its way through the other exceptions. -/
def raise {α : Type} : Except StandardException α → Except Raised α
  | .ok a => .ok a
  | .error e => .error (.standard e)

structure IMethod where
  name : List UInt8
  call : ParsedRequest → Except Raised (List UInt8)
  notify : ParsedNotification → Except Raised Unit

/-- `FunctionalMethod<Result(Parameters...), Function>` with a return value. -/
structure FunctionalMethod (P R : Type) where
  name : List UInt8
  parameterTypes : ParameterTypes P
  result : Adaptor R
  function : P → Except Raised R

/-- `FunctionalMethod<void(Parameters...), Function>` -/
structure VoidMethod (P : Type) where
  name : List UInt8
  parameterTypes : ParameterTypes P
  function : P → Except Raised Unit

variable (lib : MsgpackLibrary) {P R : Type}

namespace FunctionalMethod

def invokeWithTuple (m : FunctionalMethod P R) (parameters : P) : Except Raised R :=
  catchBoth (m.function parameters)
    (fun object => .error (.method object))
    -- packing the text may throw, and this leaves the clause
    (fun what => .error (methodException what))

def call (m : FunctionalMethod P R) (request : ParsedRequest) : Except Raised (List UInt8) :=
  catchMethod
    (do
      let parameters ← raise (parametersAs m.parameterTypes request.parameters)
      let result ← m.invokeWithTuple parameters
      let packed ← raise (m.result.pack result)
      orOverflow (MessageSerializer.serializeSuccessfulResponse lib request.id packed))
    (fun object => orOverflow (MessageSerializer.serializeErrorResponse lib request.id object.val))

def notify (m : FunctionalMethod P R) (notification : ParsedNotification) : Except Raised Unit :=
  catchBoth
    (do
      let parameters ← raise (parametersAs m.parameterTypes notification.parameters)
      -- not through `invoke_with_tuple`: the function is called in the same try block
      let _ ← m.function parameters
      return ())
    (fun _ => .ok ())
    (fun _ => .ok ())

def toIMethod (m : FunctionalMethod P R) : IMethod where
  name := m.name
  call := m.call lib
  notify := m.notify

/-- What becomes of the function: it returns, it throws, or it is not invoked. -/
def outcome (m : FunctionalMethod P R) (parameters : ParsedParameters) : Except Raised R := do
  let parameters ← raise (parametersAs m.parameterTypes parameters)
  m.function parameters

end FunctionalMethod

namespace VoidMethod

def call (m : VoidMethod P) (request : ParsedRequest) : Except Raised (List UInt8) := do
  let failed ← catchBoth
    (do
      let parameters ← raise (parametersAs m.parameterTypes request.parameters)
      m.function parameters
      return none)
    (fun object =>
      some <$> orOverflow (MessageSerializer.serializeErrorResponse lib request.id object.val))
    (fun what =>
      some <$> orOverflow (MessageSerializer.serializeErrorResponse lib request.id (.str what)))
  match failed with
  | some response => return response
  -- the try block has not returned
  | none => orOverflow (MessageSerializer.serializeSuccessfulResponse lib request.id .nil)

def notify (m : VoidMethod P) (notification : ParsedNotification) : Except Raised Unit :=
  catchBoth
    (do
      let parameters ← raise (parametersAs m.parameterTypes notification.parameters)
      m.function parameters)
    (fun _ => .ok ())
    (fun _ => .ok ())

def toIMethod (m : VoidMethod P) : IMethod where
  name := m.name
  call := m.call lib
  notify := m.notify

def outcome (m : VoidMethod P) (parameters : ParsedParameters) : Except Raised Unit := do
  let parameters ← raise (parametersAs m.parameterTypes parameters)
  m.function parameters

end VoidMethod

end MsgpackRpc.Methods
