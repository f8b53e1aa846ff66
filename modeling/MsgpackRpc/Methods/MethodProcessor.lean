import MsgpackRpc.Lib.Dict
import MsgpackRpc.Methods.FunctionalMethod

/-!
# The method processor

`MethodDict` and `MethodProcessor`.  What a request is answered with is stated once, as `Answer`;
both specialisations of `FunctionalMethod` behind the processor are shown to give it.
-/

namespace MsgpackRpc.Methods

open Msgpack (Value)
open Messages

/-- The registered methods, by their names. -/
abbrev MethodDict := Dict IMethod.name

namespace MethodDict

def append (dict : MethodDict) (method : IMethod) : Except StandardException MethodDict :=
  match dict.tryEmplace method with
  | some dict => .ok dict
  | none =>
      .error (.msgpackRPC (.create .invalidArgument
        (text "Duplicate method name " ++ method.name ++ text ".")))

/-- The exception of `get` for a name that is not registered. -/
def notFound (name : List UInt8) : StandardException :=
  .msgpackRPC (.create .invalidMessage (text "Method " ++ name ++ text " not found."))

def get (dict : MethodDict) (name : List UInt8) : Except StandardException IMethod :=
  match dict.find name with
  | some method => .ok method
  | none => .error (notFound name)

theorem get_append {dict dict' : MethodDict} {method : IMethod}
    (h : dict.append method = .ok dict') (name : List UInt8) :
    dict'.get name = if method.name = name then .ok method else dict.get name := by
  unfold append at h
  split at h
  · rename_i hemplaced
    cases h
    unfold get
    rw [Dict.find_tryEmplace hemplaced]
    by_cases hname : method.name = name
    · rw [if_pos hname, if_pos hname]
    · rw [if_neg hname, if_neg hname]
  · cases h

end MethodDict

namespace MethodProcessor

variable (lib : MsgpackLibrary)

def call (methods : MethodDict) (request : ParsedRequest) : Except Raised (List UInt8) :=
  catchStandard
    (do
      let method ← raise (methods.get request.methodName)
      method.call request)
    (fun what => orOverflow (MessageSerializer.serializeErrorResponse lib request.id (.str what)))

def notify (methods : MethodDict) (notification : ParsedNotification) : Except Raised Unit :=
  catchStandard
    (do
      let method ← raise (methods.get notification.methodName)
      method.notify notification)
    (fun _ => .ok ())

end MethodProcessor

/-! ## What a request is answered with -/

/-- `unanswered` is an exception that nothing catches. -/
inductive Answer where
  | result (value : Value)
  | error (object : Value)
  | unanswered

namespace Answer

/-- A text that the method itself packs: if it is too large, the processor tells so. -/
def ofText (what : List UInt8) : Answer :=
  if (Value.str what).fits then .error (.str what) else .error containerSizeOverflow.object

/-- A text that the processor packs: nothing catches what the packer throws there. -/
def ofUncaught (what : List UInt8) : Answer :=
  if (Value.str what).fits then .error (.str what) else .unanswered

/-- The end of `MethodProcessor::call` that gives the answer. -/
def Given (answer : Answer) (lib : MsgpackLibrary) (id : UInt32)
    (called : Except Raised (List UInt8)) : Prop :=
  match answer with
  | .result value =>
      ∃ bytes, called = .ok bytes ∧
        MessageSerializer.serializeSuccessfulResponse lib id value = some bytes
  | .error object =>
      ∃ bytes, called = .ok bytes ∧
        MessageSerializer.serializeErrorResponse lib id object = some bytes
  | .unanswered => ∃ e, called = .error e

end Answer

variable {P R : Type}

def FunctionalMethod.answer (m : FunctionalMethod P R) (parameters : ParsedParameters) : Answer :=
  match parametersAs m.parameterTypes parameters with
  | .error e => .ofUncaught e.what
  | .ok parameters =>
      match m.function parameters with
      | .ok result =>
          match m.result.pack result with
          | .ok value => if value.fits then .result value else .error containerSizeOverflow.object
          | .error e => .ofUncaught e.what
      | .error (.method object) => .error object.val
      | .error (.standard e) => .ofText e.what
      | .error .foreign => .unanswered

def VoidMethod.answer (m : VoidMethod P) (parameters : ParsedParameters) : Answer :=
  match m.outcome parameters with
  | .ok _ => .result .nil
  | .error (.method object) => .error object.val
  | .error (.standard e) => .ofText e.what
  | .error .foreign => .unanswered

section Given

variable {lib : MsgpackLibrary}

/-- `serialize_error_response` of a text in the catch clause of `MethodProcessor::call`. -/
def MethodProcessor.respond (lib : MsgpackLibrary) (id : UInt32) (what : List UInt8) :
    Except Raised (List UInt8) :=
  orOverflow (MessageSerializer.serializeErrorResponse lib id (.str what))

theorem given_error (hlib : lib.Lawful) (id : UInt32) {object : Value}
    (hfits : object.fits = true) :
    (Answer.error object).Given lib id
      (orOverflow (MessageSerializer.serializeErrorResponse lib id object)) := by
  have hsome := hlib.errorResponse_isSome id object
  rw [hfits, Option.isSome_iff_exists] at hsome
  obtain ⟨bytes, hbytes⟩ := hsome
  exact ⟨bytes, by rw [hbytes]; rfl, hbytes⟩

theorem orOverflow_error (hlib : lib.Lawful) (id : UInt32) {object : Value}
    (hfits : object.fits = false) :
    orOverflow (MessageSerializer.serializeErrorResponse lib id object) =
      .error (.standard containerSizeOverflow) := by
  have hnone := hlib.errorResponse_isSome id object
  rw [hfits, Option.isSome_eq_false_iff, Option.isNone_iff_eq_none] at hnone
  rw [hnone]
  rfl

theorem given_overflow (hlib : lib.Lawful) (id : UInt32) :
    (Answer.error containerSizeOverflow.object).Given lib id
      (MethodProcessor.respond lib id containerSizeOverflow.what) :=
  given_error hlib id rfl

/-- The processor packs the text itself. -/
theorem given_uncaught (hlib : lib.Lawful) (id : UInt32) (what : List UInt8) :
    (Answer.ofUncaught what).Given lib id (MethodProcessor.respond lib id what) := by
  unfold Answer.ofUncaught MethodProcessor.respond
  cases hfits : (Value.str what).fits with
  | true => exact given_error hlib id hfits
  | false => exact ⟨_, orOverflow_error hlib id hfits⟩

/-- A method packs the text, and the processor catches what the packer throws. -/
theorem given_text (hlib : lib.Lawful) (id : UInt32) (what : List UInt8) :
    (Answer.ofText what).Given lib id
      (catchStandard (orOverflow (MessageSerializer.serializeErrorResponse lib id (.str what)))
        (MethodProcessor.respond lib id)) := by
  unfold Answer.ofText
  cases hfits : (Value.str what).fits with
  | true =>
    obtain ⟨bytes, hcalled, hbytes⟩ := given_error hlib id hfits
    exact ⟨bytes, by rw [hcalled]; rfl, hbytes⟩
  | false =>
    rw [orOverflow_error hlib id hfits]
    exact given_overflow hlib id

theorem given_result (hlib : lib.Lawful) (id : UInt32) {value : Value}
    (hfits : value.fits = true) :
    (Answer.result value).Given lib id
      (orOverflow (MessageSerializer.serializeSuccessfulResponse lib id value)) := by
  have hsome := hlib.successfulResponse_isSome id value
  rw [hfits, Option.isSome_iff_exists] at hsome
  obtain ⟨bytes, hbytes⟩ := hsome
  exact ⟨bytes, by rw [hbytes]; rfl, hbytes⟩

/-- What has been returned is no exception that a clause could catch. -/
theorem Answer.Given.caught {answer : Answer} {id : UInt32} {called : Except Raised (List UInt8)}
    {handler : List UInt8 → Except Raised (List UInt8)} (h : answer.Given lib id called)
    (hanswer : answer ≠ .unanswered) : answer.Given lib id (catchStandard called handler) := by
  cases answer with
  | result value =>
    obtain ⟨bytes, rfl, hbytes⟩ := h
    exact ⟨bytes, rfl, hbytes⟩
  | error object =>
    obtain ⟨bytes, rfl, hbytes⟩ := h
    exact ⟨bytes, rfl, hbytes⟩
  | unanswered => exact absurd rfl hanswer

theorem FunctionalMethod.given (hlib : lib.Lawful) (m : FunctionalMethod P R)
    (request : ParsedRequest) :
    (m.answer request.parameters).Given lib request.id
      (catchStandard (m.call lib request) (MethodProcessor.respond lib request.id)) := by
  unfold answer call invokeWithTuple
  -- along the calls of the try block: convert, invoke, pack, serialize
  cases hparameters : parametersAs m.parameterTypes request.parameters with
  | error e => exact given_uncaught hlib request.id e.what
  | ok parameters =>
    simp only [raise, bind, Except.bind]
    cases hfunction : m.function parameters with
    | ok result =>
      simp only [catchBoth, catchStandard]
      cases hpack : m.result.pack result with
      | error e => exact given_uncaught hlib request.id e.what
      | ok value =>
        by_cases hfits : value.fits = true
        · have hgiven := given_result hlib request.id hfits
          obtain ⟨bytes, hcalled, hbytes⟩ := hgiven
          simp only [if_pos hfits, hcalled]
          exact ⟨bytes, rfl, hbytes⟩
        · -- the packer throws, and the processor packs its text instead
          have hnone := hlib.successfulResponse_isSome request.id value
          rw [Bool.not_eq_true] at hfits
          rw [hfits, Option.isSome_eq_false_iff, Option.isNone_iff_eq_none] at hnone
          simp only [hfits, hnone]
          exact given_overflow hlib request.id
    | error e =>
      cases e with
      | method object =>
        exact (given_error hlib request.id object.property).caught nofun
      | foreign => exact ⟨_, rfl⟩
      | standard e =>
        -- the text becomes the object of a `MethodException`
        simp only [catchBoth, catchStandard, Answer.ofText]
        by_cases hfits : (Value.str e.what).fits = true
        · rw [if_pos hfits, methodException, dif_pos hfits]
          exact (given_error hlib request.id hfits).caught nofun
        · rw [if_neg hfits, methodException, dif_neg hfits]
          exact given_overflow hlib request.id

theorem VoidMethod.call_eq (m : VoidMethod P) (request : ParsedRequest) :
    m.call lib request =
      match m.outcome request.parameters with
      | .ok _ => orOverflow (MessageSerializer.serializeSuccessfulResponse lib request.id .nil)
      | .error (.method object) =>
          orOverflow (MessageSerializer.serializeErrorResponse lib request.id object.val)
      | .error (.standard e) =>
          orOverflow (MessageSerializer.serializeErrorResponse lib request.id e.object)
      | .error .foreign => .error .foreign := by
  -- the response that a catch clause returns ends the function
  have hreturn (packed : Except Raised (List UInt8))
      {continues : Option (List UInt8) → Except Raised (List UInt8)}
      (hsome : ∀ response, continues (some response) = pure response) :
      ((some <$> packed) >>= continues) = packed := by
    cases packed with
    | error e => rfl
    | ok response => exact hsome response
  unfold call outcome
  cases hparameters : parametersAs m.parameterTypes request.parameters with
  | error e => exact hreturn _ fun _ => rfl
  | ok parameters =>
    simp only [raise, bind, Except.bind]
    cases hfunction : m.function parameters with
    | ok result => rfl
    | error e =>
      cases e with
      | method object => exact hreturn _ fun _ => rfl
      | standard e => exact hreturn _ fun _ => rfl
      | foreign => rfl

theorem VoidMethod.given (hlib : lib.Lawful) (m : VoidMethod P) (request : ParsedRequest) :
    (m.answer request.parameters).Given lib request.id
      (catchStandard (m.call lib request) (MethodProcessor.respond lib request.id)) := by
  rw [m.call_eq, answer]
  cases houtcome : m.outcome request.parameters with
  | ok result => exact (given_result hlib request.id rfl).caught nofun
  | error e =>
    cases e with
    | method object => exact (given_error hlib request.id object.property).caught nofun
    | standard e => exact given_text hlib request.id e.what
    | foreign => exact ⟨_, rfl⟩

/-- What the processor answers for the method that it finds, or does not find, under the name of the
request. -/
inductive Answers (lib : MsgpackLibrary) (methods : MethodDict) (name : List UInt8)
    (parameters : ParsedParameters) : Answer → Prop where
  | notFound (hget : methods.get name = .error (MethodDict.notFound name)) :
      Answers lib methods name parameters (.ofUncaught (MethodDict.notFound name).what)
  | functional {P R : Type} (m : FunctionalMethod P R)
      (hget : methods.get name = .ok (m.toIMethod lib)) :
      Answers lib methods name parameters (m.answer parameters)
  | void {P : Type} (m : VoidMethod P) (hget : methods.get name = .ok (m.toIMethod lib)) :
      Answers lib methods name parameters (m.answer parameters)

theorem Answers.given (hlib : lib.Lawful) {methods : MethodDict} {request : ParsedRequest}
    {answer : Answer} (h : Answers lib methods request.methodName request.parameters answer) :
    answer.Given lib request.id (MethodProcessor.call lib methods request) := by
  unfold MethodProcessor.call
  cases h with
  | notFound hget =>
    rw [hget]
    exact given_uncaught hlib request.id _
  | functional m hget =>
    rw [hget]
    exact m.given hlib request
  | void m hget =>
    rw [hget]
    exact m.given hlib request

end Given

/-! ## The bytes of a response -/

/-- The method is one of the two specialisations of `FunctionalMethod`. -/
inductive IMethod.IsFunctional (lib : MsgpackLibrary) : IMethod → Prop where
  | functional {P R : Type} (m : FunctionalMethod P R) : IsFunctional lib (m.toIMethod lib)
  | void {P : Type} (m : VoidMethod P) : IsFunctional lib (m.toIMethod lib)

/-- Every registered method is implemented by a function. -/
def MethodDict.IsFunctional (lib : MsgpackLibrary) (methods : MethodDict) : Prop :=
  ∀ method ∈ methods.elements, method.IsFunctional lib

theorem MethodDict.IsFunctional.answers {lib : MsgpackLibrary} {methods : MethodDict}
    (h : methods.IsFunctional lib) (name : List UInt8) (parameters : ParsedParameters) :
    ∃ answer, Answers lib methods name parameters answer := by
  cases hfind : methods.find name with
  | none =>
    have hget : methods.get name = .error (MethodDict.notFound name) := by
      simp only [MethodDict.get, hfind]
    exact ⟨_, .notFound hget⟩
  | some method =>
    have hget : methods.get name = .ok method := by simp only [MethodDict.get, hfind]
    cases h method (List.mem_of_find?_eq_some hfind) with
    | functional m => exact ⟨_, .functional m hget⟩
    | void m => exact ⟨_, .void m hget⟩

/-- Whatever the processor returns is the serialized form of a response to the request. -/
theorem MethodDict.IsFunctional.serialized {lib : MsgpackLibrary} {methods : MethodDict}
    (h : methods.IsFunctional lib) (hlib : lib.Lawful) {request : ParsedRequest}
    {bytes : List UInt8} (hcalled : MethodProcessor.call lib methods request = .ok bytes) :
    ∃ error result, MessageSerializer.serialize lib
      [MessageSerializer.integer 1, MessageSerializer.integer request.id, error, result] =
        some bytes := by
  obtain ⟨answer, hanswers⟩ := h.answers request.methodName request.parameters
  have hgiven := hanswers.given hlib
  rw [hcalled] at hgiven
  cases answer with
  | result value =>
    obtain ⟨bytes', hsame, hbytes⟩ := hgiven
    cases hsame
    exact ⟨.nil, value, hbytes⟩
  | error object =>
    obtain ⟨bytes', hsame, hbytes⟩ := hgiven
    cases hsame
    exact ⟨object, .nil, hbytes⟩
  | unanswered =>
    obtain ⟨e, hthrown⟩ := hgiven
    cases hthrown

/-! ## Which requests are answered -/

/-- `MethodProcessor::call` returns a serialized response with the ID of the request. -/
def MethodProcessor.Returns (lib : MsgpackLibrary) (methods : MethodDict)
    (request : ParsedRequest) : Prop :=
  ∃ bytes result, MethodProcessor.call lib methods request = .ok bytes ∧
    parseBytes lib bytes = some (.response { id := request.id, result })

/-- The exceptions that `FunctionalMethod::call` has no clause for: those of converting the
parameters and of packing the result. -/
def FunctionalMethod.Uncaught (m : FunctionalMethod P R) (parameters : ParsedParameters)
    (e : StandardException) : Prop :=
  parametersAs m.parameterTypes parameters = .error e ∨
    ∃ result, m.outcome parameters = .ok result ∧ m.result.pack result = .error e

/-- The function throws nothing but `std::exception`s, and the processor has room for the texts that
it packs itself. -/
def FunctionalMethod.Answerable (m : FunctionalMethod P R) (parameters : ParsedParameters) : Prop :=
  m.outcome parameters ≠ .error .foreign ∧
    ∀ e, m.Uncaught parameters e → e.object.fits = true

section Returns

variable {lib : MsgpackLibrary}

theorem Answer.Given.returns_iff (hlib : lib.Lawful) {methods : MethodDict}
    {request : ParsedRequest} {answer : Answer}
    (h : answer.Given lib request.id (MethodProcessor.call lib methods request)) :
    MethodProcessor.Returns lib methods request ↔ answer ≠ .unanswered := by
  cases answer with
  | result value =>
    obtain ⟨bytes, hcalled, hbytes⟩ := h
    exact iff_of_true ⟨bytes, _, hcalled, hlib.parse_successfulResponse hbytes⟩ nofun
  | error object =>
    obtain ⟨bytes, hcalled, hbytes⟩ := h
    exact iff_of_true ⟨bytes, _, hcalled, hlib.parse_errorResponse hbytes⟩ nofun
  | unanswered =>
    -- an exception has left the processor, so it has returned nothing
    obtain ⟨e, hcalled⟩ := h
    refine iff_of_false ?_ (fun hne => hne rfl)
    rintro ⟨bytes, result, hreturned, -⟩
    rw [hcalled] at hreturned
    cases hreturned

theorem Answer.ofUncaught_ne_unanswered {e : StandardException} :
    Answer.ofUncaught e.what ≠ .unanswered ↔ e.object.fits = true := by
  unfold Answer.ofUncaught StandardException.object
  split
  · rename_i hfits
    exact iff_of_true nofun hfits
  · rename_i hfits
    exact iff_of_false (fun hne => hne rfl) hfits

theorem Answer.ofText_ne_unanswered (what : List UInt8) : Answer.ofText what ≠ .unanswered := by
  unfold Answer.ofText
  split <;> nofun

theorem FunctionalMethod.answer_ne_unanswered (m : FunctionalMethod P R)
    (parameters : ParsedParameters) :
    m.answer parameters ≠ .unanswered ↔ m.Answerable parameters := by
  unfold answer Answerable Uncaught outcome
  cases hparameters : parametersAs m.parameterTypes parameters with
  | error e =>
    rw [Answer.ofUncaught_ne_unanswered]
    constructor
    · intro hfits
      refine ⟨nofun, fun e' he => ?_⟩
      rcases he with he | ⟨result, hresult, -⟩
      · cases he
        exact hfits
      · cases hresult
    · intro h
      exact h.2 e (.inl rfl)
  | ok values =>
    simp only [raise, bind, Except.bind]
    cases hfunction : m.function values with
    | error e =>
      -- a function that throws has neither failed to convert nor returned a result
      have hno : ∀ e', ¬ ((.ok values : Except StandardException P) = .error e' ∨
          ∃ result, (.error e : Except Raised R) = .ok result ∧
            m.result.pack result = .error e') := by
        rintro e' (h | ⟨result, h, -⟩) <;> cases h
      cases e with
      | method object => exact iff_of_true nofun ⟨nofun, fun e' he => absurd he (hno e')⟩
      | standard e =>
        exact iff_of_true (Answer.ofText_ne_unanswered e.what)
          ⟨nofun, fun e' he => absurd he (hno e')⟩
      | foreign => exact iff_of_false (fun hne => hne rfl) fun h => h.1 rfl
    | ok result =>
      cases hpack : m.result.pack result with
      | ok value =>
        simp only [hpack]
        refine iff_of_true ?_ ⟨nofun, fun e' he => ?_⟩
        · split <;> nofun
        · rcases he with he | ⟨result', hresult, he⟩
          · cases he
          · cases hresult
            rw [hpack] at he
            cases he
      | error e =>
        simp only [hpack]
        rw [Answer.ofUncaught_ne_unanswered]
        constructor
        · intro hfits
          refine ⟨nofun, fun e' he => ?_⟩
          rcases he with he | ⟨result', hresult, he⟩
          · cases he
          · cases hresult
            rw [hpack] at he
            cases he
            exact hfits
        · intro h
          exact h.2 e (.inr ⟨result, rfl, hpack⟩)

theorem VoidMethod.answer_ne_unanswered (m : VoidMethod P) (parameters : ParsedParameters) :
    m.answer parameters ≠ .unanswered ↔ m.outcome parameters ≠ .error .foreign := by
  unfold answer
  cases m.outcome parameters with
  | ok _ => exact iff_of_true nofun nofun
  | error e =>
    cases e with
    | method object => exact iff_of_true nofun nofun
    | standard e => exact iff_of_true (Answer.ofText_ne_unanswered e.what) nofun
    | foreign => exact iff_of_false (fun hne => hne rfl) fun hne => hne rfl

/-- The clauses of `FunctionalMethod::notify` and `MethodProcessor::notify` let only values through
that are no `std::exception`s. -/
theorem catchStandard_catchBoth_iff (body : Except Raised Unit) :
    catchStandard (catchBoth body (fun _ => .ok ()) (fun _ => .ok ())) (fun _ => .ok ()) = .ok () ↔
      body ≠ .error .foreign := by
  cases body with
  | ok _ => exact iff_of_true rfl nofun
  | error e =>
    cases e with
    | method object => exact iff_of_true rfl nofun
    | standard e => exact iff_of_true rfl nofun
    | foreign => exact iff_of_false nofun fun hne => hne rfl

theorem FunctionalMethod.notify_iff (m : FunctionalMethod P R) (notification : ParsedNotification) :
    catchStandard (m.notify notification) (fun _ => .ok ()) = .ok () ↔
      m.outcome notification.parameters ≠ .error .foreign := by
  unfold notify outcome
  rw [catchStandard_catchBoth_iff]
  -- the result of the function is dropped, its exceptions are not
  apply not_congr
  cases parametersAs m.parameterTypes notification.parameters with
  | error e => exact iff_of_false nofun nofun
  | ok values =>
    simp only [raise, bind, Except.bind]
    cases m.function values with
    | ok result => exact iff_of_false nofun nofun
    | error e => simp only [Except.error.injEq]

theorem VoidMethod.notify_iff (m : VoidMethod P) (notification : ParsedNotification) :
    catchStandard (m.notify notification) (fun _ => .ok ()) = .ok () ↔
      m.outcome notification.parameters ≠ .error .foreign := by
  exact catchStandard_catchBoth_iff (m.outcome notification.parameters)

end Returns

open MethodProcessor (Returns)

/-- `call` and `notify` return exactly if the function throws nothing but `std::exception`s and, for
`call`, a text that the processor has to pack itself is shorter than four gigabytes. -/
theorem processor_returns_iff (lib : MsgpackLibrary) (hlib : lib.Lawful) (methods : MethodDict) :
    (∀ request : ParsedRequest,
      methods.get request.methodName = .error (MethodDict.notFound request.methodName) →
      (Returns lib methods request ↔
        (MethodDict.notFound request.methodName).object.fits = true)) ∧
    (∀ (P R : Type) (m : FunctionalMethod P R) (request : ParsedRequest),
      methods.get request.methodName = .ok (m.toIMethod lib) →
      (Returns lib methods request ↔ m.Answerable request.parameters)) ∧
    (∀ (P : Type) (m : VoidMethod P) (request : ParsedRequest),
      methods.get request.methodName = .ok (m.toIMethod lib) →
      (Returns lib methods request ↔ m.outcome request.parameters ≠ .error .foreign)) ∧
    (∀ notification : ParsedNotification,
      methods.get notification.methodName = .error (MethodDict.notFound notification.methodName) →
      MethodProcessor.notify methods notification = .ok ()) ∧
    (∀ (P R : Type) (m : FunctionalMethod P R) (notification : ParsedNotification),
      methods.get notification.methodName = .ok (m.toIMethod lib) →
      (MethodProcessor.notify methods notification = .ok () ↔
        m.outcome notification.parameters ≠ .error .foreign)) ∧
    (∀ (P : Type) (m : VoidMethod P) (notification : ParsedNotification),
      methods.get notification.methodName = .ok (m.toIMethod lib) →
      (MethodProcessor.notify methods notification = .ok () ↔
        m.outcome notification.parameters ≠ .error .foreign)) := by
  refine ⟨?_, ?_, ?_, ?_, ?_, ?_⟩
  · intro request hget
    rw [((Answers.notFound hget).given hlib).returns_iff hlib, Answer.ofUncaught_ne_unanswered]
  · intro P R m request hget
    rw [((Answers.functional m hget).given hlib).returns_iff hlib, m.answer_ne_unanswered]
  · intro P m request hget
    rw [((Answers.void m hget).given hlib).returns_iff hlib, m.answer_ne_unanswered]
  · intro notification hget
    unfold MethodProcessor.notify
    rw [hget]
    rfl
  · intro P R m notification hget
    unfold MethodProcessor.notify
    rw [hget]
    exact m.notify_iff notification
  · intro P m notification hget
    unfold MethodProcessor.notify
    rw [hget]
    exact m.notify_iff notification

/-- Objects are their own adaptor. -/
def objectAdaptor : Adaptor Value where
  pack := .ok
  convert := .ok
  convert_pack h := by
    cases h
    rfl

/-- A function with one parameter that returns it. -/
def echo : FunctionalMethod Value Value where
  name := text "echo"
  parameterTypes :=
    { size := 1
      convert
        | [value] => .ok value
        | _ => .error .typeError }
  result := objectAdaptor
  function := .ok

def echoMethods : MethodDict where
  elements := [echo.toIMethod formatLibrary]

theorem processor_returns_echo :
    Returns formatLibrary echoMethods
      { id := 7, methodName := text "echo", parameters := ⟨[.boolean true]⟩ } := by
  refine ((processor_returns_iff formatLibrary formatLibrary_lawful echoMethods).2.1 Value Value
    echo _ rfl).mpr ⟨nofun, ?_⟩
  rintro e (he | ⟨result, hresult, he⟩)
  · cases he
  · cases he

/-- A function without parameters that throws an `int`. -/
def throwsInt : VoidMethod Unit where
  name := text "throws"
  parameterTypes :=
    { size := 0
      convert := fun _ => .ok () }
  function := fun _ => .error .foreign

def throwingMethods : MethodDict where
  elements := [throwsInt.toIMethod formatLibrary]

/-- The exception leaves `MethodProcessor::call`, and the thread of the executor with it. -/
theorem processor_throws :
    ¬ ∀ (methods : MethodDict) (m : VoidMethod Unit) (request : ParsedRequest),
      methods.get request.methodName = .ok (m.toIMethod formatLibrary) →
      ∃ bytes, MethodProcessor.call formatLibrary methods request = .ok bytes := by
  intro h
  obtain ⟨bytes, hcalled⟩ := h throwingMethods throwsInt
    { id := 0, methodName := text "throws", parameters := ⟨[]⟩ } rfl
  cases hcalled

end MsgpackRpc.Methods
