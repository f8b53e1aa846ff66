/-!
# Statuses

What the exceptions of the library carry.  A `std::string` is a sequence of bytes.
-/

namespace MsgpackRpc

/-- The bytes of a text in ASCII. -/
def text (s : String) : List UInt8 := s.toList.map fun c => UInt8.ofNat c.toNat

inductive StatusCode where
  | success
  | invalidArgument
  | invalidMessage
  | typeError
  | preconditionNotMet
  | operationAborted
  | operationFailure
  | hostUnresolved
  | connectionFailure
  | timeout
  | serverError
  | unexpectedError
  deriving DecidableEq, Repr

theorem StatusCode.empty_message (code : StatusCode) : code = .success → ([] : List UInt8) = [] :=
  fun _ => rfl

/-- A success is the status without data, so its message is empty. -/
structure Status where
  code : StatusCode := .success
  message : List UInt8 := []
  message_of_success : code = .success → message = [] := by exact StatusCode.empty_message _
  deriving DecidableEq, Repr

namespace Status

/-- The constructor for a code and a message; `Data::create` makes no data for a success. -/
def create (code : StatusCode) (message : List UInt8) : Status :=
  if h : code = .success then {}
  else { code, message, message_of_success := fun hsuccess => absurd hsuccess h }

@[simp] theorem code_create (code : StatusCode) (message : List UInt8) :
    (create code message).code = code := by
  unfold create
  split
  · exact Eq.symm ‹_›
  · rfl

/-- Every status is made by the constructor. -/
theorem create_code_message (status : Status) : create status.code status.message = status := by
  obtain ⟨code, message, hmessage⟩ := status
  unfold create
  split
  · rename_i hcode
    obtain rfl : code = .success := hcode
    obtain rfl := hmessage rfl
    rfl
  · rfl

end Status

end MsgpackRpc
