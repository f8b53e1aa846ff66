import MsgpackRpc.Methods.MethodProcessor

/-!
# Results on the client's side

`CallResult::result_as` and `CallFuture::get_from_call_result`, and whether they tell what has
become of the function on the server.
-/

namespace MsgpackRpc.Clients

open Msgpack (Value)
open Messages Methods

/-- What `get_result` throws. -/
inductive GetError where
  /-- A `ServerException` with this object. -/
  | server (object : Value)
  | exception (e : StandardException)

variable {P R : Type}

def resultAs (adaptor : Adaptor R) (result : CallResult) : Except StandardException R :=
  if result.isError then
    .error (.msgpackRPC (.create .preconditionNotMet (text "This result is an error.")))
  else
    match adaptor.convert result.object with
    | .error .typeError =>
        .error (.msgpackRPC (.create .typeError (text "Invalid type of the result.")))
    | converted => converted

/-- `CallFuture<Result>::get_from_call_result` -/
def getFromCallResult (adaptor : Adaptor R) (result : CallResult) : Except GetError R :=
  if result.isSuccess then
    match resultAs adaptor result with
    | .ok value => .ok value
    | .error e => .error (.exception e)
  else
    .error (.server result.object)

/-- `CallFuture<void>::get_from_call_result` -/
def getFromVoidCallResult (result : CallResult) : Except GetError Unit :=
  if result.isSuccess then .ok () else .error (.server result.object)

/-- What the client gets of the end of `MethodProcessor::call`; `none` is no response. -/
def clientGets (lib : MsgpackLibrary) (get : CallResult → Except GetError R)
    (called : Except Raised (List UInt8)) : Option (Except GetError R) :=
  match called with
  | .error _ => none
  | .ok bytes =>
      match parseBytes lib bytes with
      | some (.response response) => some (get response.result)
      | _ => none

/-- The client gets the result exactly if the function has returned it, and otherwise a
`ServerException` with the object of the exception: its own for a `MethodException`, and the text of
`what()` for any other `std::exception`. -/
def Agrees (outcome : Except Raised R) (gets : Option (Except GetError R)) : Prop :=
  (∀ result, gets = some (.ok result) ↔ outcome = .ok result) ∧
  ∀ e object, outcome = .error e → e.object = some object →
    gets = some (.error (.server object))

/-- A result that can be packed, or an exception whose object is not nil and can be packed. -/
def Transmits (packed : R → Option Value) (outcome : Except Raised R) : Prop :=
  (∀ result, outcome = .ok result → (packed result).isSome) ∧
  ∀ e object, outcome = .error e → e.object = some object →
    object ≠ .nil ∧ object.fits = true

/-- How an answer follows from the outcome; `packed` is what the results are packed as. -/
structure AnswersOutcome (packed : R → Option Value) (outcome : Except Raised R)
    (answer : Answer) : Prop where
  result : ∀ {r value}, outcome = .ok r → packed r = some value → answer = .result value
  unpacked : ∀ {r}, outcome = .ok r → packed r = none →
    answer = .unanswered ∨ ∃ object, answer = .error object ∧ object ≠ .nil
  error : ∀ {e object}, outcome = .error e → e.object = some object → object.fits = true →
    answer = .error object
  overflow : ∀ {e object}, outcome = .error e → e.object = some object → object.fits = false →
    answer = .unanswered ∨ answer = .error containerSizeOverflow.object
  foreign : outcome = .error .foreign → answer = .unanswered

/-- What a client relies on in its `get_from_call_result`, which reads `read r` of a result `r`. -/
structure GetsResults {R' : Type} (packed : R → Option Value) (read : R → R')
    (get : CallResult → Except GetError R') : Prop where
  result : ∀ {r value}, packed r = some value → get (.createResult value) = .ok (read r)
  success : ∀ value object, get (.createResult value) ≠ .error (.server object)
  error : ∀ object, get (.createError object) = .error (.server object)

section Agrees

variable {R' : Type} {lib : MsgpackLibrary} {packed : R → Option Value} {read : R → R'}
  {get : CallResult → Except GetError R'}

theorem clientGets_result (hlib : lib.Lawful) {id : UInt32} {value : Value}
    {called : Except Raised (List UInt8)} (h : (Answer.result value).Given lib id called) :
    clientGets lib get called = some (get (.createResult value)) := by
  obtain ⟨bytes, rfl, hbytes⟩ := h
  rw [clientGets, hlib.parse_successfulResponse hbytes]

theorem clientGets_error (hlib : lib.Lawful) {id : UInt32} {object : Value}
    {called : Except Raised (List UInt8)} (h : (Answer.error object).Given lib id called) :
    clientGets lib get called = some (get (.ofResponse object .nil)) := by
  obtain ⟨bytes, rfl, hbytes⟩ := h
  rw [clientGets, hlib.parse_errorResponse hbytes]

theorem clientGets_unanswered {id : UInt32} {called : Except Raised (List UInt8)}
    (h : Answer.unanswered.Given lib id called) : clientGets lib get called = none := by
  obtain ⟨e, rfl⟩ := h
  rfl

/-- An error object other than nil arrives. -/
theorem clientGets_server (hlib : lib.Lawful) (hgets : GetsResults packed read get) {id : UInt32}
    {object : Value} {called : Except Raised (List UInt8)}
    (h : (Answer.error object).Given lib id called) (hnil : object ≠ .nil) :
    clientGets lib get called = some (.error (.server object)) := by
  rw [clientGets_error hlib h, CallResult.ofResponse_of_ne_nil hnil, hgets.error]

theorem agrees_ok_iff {result : R} {gets : Option (Except GetError R)} :
    Agrees (.ok result) gets ↔ gets = some (.ok result) := by
  constructor
  · intro hagrees
    exact (hagrees.1 result).mpr rfl
  · rintro rfl
    refine ⟨fun other => ?_, nofun⟩
    rw [Option.some.injEq, Except.ok.injEq, Except.ok.injEq]

theorem agrees_error_iff {e : Raised} {object : Value} (hobject : e.object = some object)
    {gets : Option (Except GetError R)} :
    Agrees (.error e) gets ↔ gets = some (.error (.server object)) := by
  constructor
  · intro hagrees
    exact hagrees.2 e object rfl hobject
  · rintro rfl
    refine ⟨fun result => ⟨nofun, nofun⟩, fun e' object' he ho => ?_⟩
    cases he
    rw [hobject] at ho
    cases ho
    rfl

theorem transmits_ok_iff {result : R} :
    Transmits packed (.ok result) ↔ (packed result).isSome := by
  constructor
  · intro htransmits
    exact htransmits.1 result rfl
  · intro hsome
    refine ⟨fun other hother => ?_, nofun⟩
    cases hother
    exact hsome

theorem transmits_error_iff {e : Raised} {object : Value} (hobject : e.object = some object) :
    Transmits packed (.error e) ↔ object ≠ .nil ∧ object.fits = true := by
  constructor
  · intro htransmits
    exact htransmits.2 e object rfl hobject
  · intro hgood
    refine ⟨nofun, fun e' object' he ho => ?_⟩
    cases he
    rw [hobject] at ho
    cases ho
    exact hgood

/-- An exception that is no `std::exception` leaves nothing to agree on, since nobody answers. -/
theorem agrees_foreign : Agrees (.error .foreign) (none : Option (Except GetError R)) := by
  refine ⟨fun result => ⟨nofun, nofun⟩, fun e object he ho => ?_⟩
  cases he
  cases ho

theorem transmits_foreign : Transmits packed (.error .foreign) := by
  refine ⟨nofun, fun e object he ho => ?_⟩
  cases he
  cases ho

section Given

variable (hlib : lib.Lawful) (hgets : GetsResults packed read get) {answer : Answer} {id : UInt32}
  {called : Except Raised (List UInt8)} (hgiven : answer.Given lib id called)
include hlib hgets hgiven

theorem agrees_ok {r : R} (hanswer : AnswersOutcome packed (.ok r) answer) :
    Agrees (.ok (read r)) (clientGets lib get called) ↔ Transmits packed (.ok r) := by
  rw [agrees_ok_iff, transmits_ok_iff]
  cases hpacked : packed r with
  | some value =>
    -- the result arrives as it has been packed
    rw [hanswer.result rfl hpacked] at hgiven
    rw [clientGets_result hlib hgiven, hgets.result hpacked]
    exact iff_of_true rfl rfl
  | none =>
    refine iff_of_false (fun hok => ?_) Bool.false_ne_true
    -- the function has returned, and the client would have to see its result
    rcases hanswer.unpacked rfl hpacked with rfl | ⟨object, rfl, hnil⟩
    · rw [clientGets_unanswered hgiven] at hok
      cases hok
    · rw [clientGets_server hlib hgets hgiven hnil] at hok
      cases hok

theorem agrees_error {e : Raised} {object : Value} (hobject : e.object = some object)
    (hanswer : AnswersOutcome packed (.error e) answer) :
    Agrees (.error e) (clientGets lib get called) ↔ Transmits packed (.error e) := by
  rw [agrees_error_iff hobject, transmits_error_iff hobject]
  constructor
  · intro hserver
    cases hfits : object.fits with
    | true =>
      rw [hanswer.error rfl hobject hfits] at hgiven
      refine ⟨?_, rfl⟩
      rintro rfl
      -- nil is taken for the mark of a success
      rw [clientGets_error hlib hgiven, Option.some.injEq] at hserver
      exact hgets.success .nil .nil hserver
    | false =>
      -- too large for the packer: no response, or one that tells only this
      rcases hanswer.overflow rfl hobject hfits with rfl | rfl
      · rw [clientGets_unanswered hgiven] at hserver
        cases hserver
      · rw [clientGets_server hlib hgets hgiven nofun] at hserver
        cases hserver
        cases hfits
  · rintro ⟨hnil, hfits⟩
    rw [hanswer.error rfl hobject hfits] at hgiven
    exact clientGets_server hlib hgets hgiven hnil

theorem agrees_iff {outcome : Except Raised R} (hanswer : AnswersOutcome packed outcome answer) :
    Agrees (outcome.map read) (clientGets lib get called) ↔ Transmits packed outcome := by
  cases outcome with
  | ok r => exact agrees_ok hlib hgets hgiven hanswer
  | error e =>
    cases hobject : e.object with
    | some object => exact agrees_error hlib hgets hgiven hobject hanswer
    | none =>
      have hforeign : e = .foreign := by
        cases e with
        | foreign => rfl
        | _ => cases hobject
      subst hforeign
      rw [hanswer.foreign rfl] at hgiven
      rw [clientGets_unanswered hgiven]
      exact iff_of_true agrees_foreign transmits_foreign

end Given

end Agrees

/-! ## The two specialisations -/

/-- The object that a result is packed as, if the packer has room for it. -/
def packedResult (m : FunctionalMethod P R) (result : R) : Option Value :=
  match m.result.pack result with
  | .ok value => if value.fits then some value else none
  | .error _ => none

/-- An exception that is told by its text, as far as the text can be packed. -/
theorem answersOutcome_standard (packed : R → Option Value) (e : StandardException)
    {answer : Answer} (herror : e.object.fits = true → answer = .error e.object)
    (hoverflow : ¬ e.object.fits = true →
      answer = .unanswered ∨ answer = .error containerSizeOverflow.object) :
    AnswersOutcome packed (.error (.standard e) : Except Raised R) answer where
  result h := by cases h
  unpacked h := by cases h
  error he ho hfits := by
    cases he
    cases ho
    exact herror hfits
  overflow he ho hfits := by
    cases he
    cases ho
    exact hoverflow (ne_true_of_eq_false hfits)
  foreign h := by cases h

theorem answersOutcome_uncaught (packed : R → Option Value) (e : StandardException) :
    AnswersOutcome packed (.error (.standard e) : Except Raised R) (.ofUncaught e.what) :=
  answersOutcome_standard packed e (fun hfits => if_pos hfits) fun hfits => .inl (if_neg hfits)

theorem answersOutcome_text (packed : R → Option Value) (e : StandardException) :
    AnswersOutcome packed (.error (.standard e) : Except Raised R) (.ofText e.what) :=
  answersOutcome_standard packed e (fun hfits => if_pos hfits) fun hfits => .inr (if_neg hfits)

theorem answersOutcome_method (packed : R → Option Value) (object : Object) :
    AnswersOutcome packed (.error (.method object) : Except Raised R) (.error object.val) where
  result h := by cases h
  unpacked h := by cases h
  error he ho _ := by
    cases he
    cases ho
    rfl
  overflow he ho hfits := by
    cases he
    cases ho
    rw [object.property] at hfits
    cases hfits
  foreign h := by cases h

theorem answersOutcome_foreign (packed : R → Option Value) :
    AnswersOutcome packed (.error .foreign : Except Raised R) .unanswered where
  result h := by cases h
  unpacked h := by cases h
  error he ho := by
    cases he
    cases ho
  overflow he ho := by
    cases he
    cases ho
  foreign _ := rfl

/-- An exception of the function. -/
theorem answersOutcome_raised (packed : R → Option Value) (e : Raised) :
    AnswersOutcome packed (.error e : Except Raised R)
      (match e with
        | .method object => .error object.val
        | .standard e => .ofText e.what
        | .foreign => .unanswered) := by
  cases e with
  | method object => exact answersOutcome_method packed object
  | standard e => exact answersOutcome_text packed e
  | foreign => exact answersOutcome_foreign packed

/-- A function that has returned: its result is sent, or the exception of packing it. -/
theorem answersOutcome_returned (packed : R → Option Value) (r : R) {answer : Answer}
    (hresult : ∀ value, packed r = some value → answer = .result value)
    (hunpacked : packed r = none →
      answer = .unanswered ∨ ∃ object, answer = .error object ∧ object ≠ .nil) :
    AnswersOutcome packed (.ok r) answer where
  result h := by
    cases h
    exact hresult _
  unpacked h := by
    cases h
    exact hunpacked
  error h := by cases h
  overflow h := by cases h
  foreign h := by cases h

theorem functional_answersOutcome (m : FunctionalMethod P R) (parameters : ParsedParameters) :
    AnswersOutcome (packedResult m) (m.outcome parameters) (m.answer parameters) := by
  unfold FunctionalMethod.answer FunctionalMethod.outcome
  cases parametersAs m.parameterTypes parameters with
  | error e => exact answersOutcome_uncaught _ e
  | ok values =>
    simp only [raise, bind, Except.bind]
    cases m.function values with
    | error e => cases e <;> exact answersOutcome_raised _ _
    | ok r =>
      simp only []
      cases hpack : m.result.pack r with
      | error e =>
        have hnone : packedResult m r = none := by rw [packedResult, hpack]
        apply answersOutcome_returned
        · intro value hvalue
          rw [hnone] at hvalue
          cases hvalue
        · intro _
          simp only [Answer.ofUncaught]
          split
          · exact .inr ⟨_, rfl, fun heq => by cases heq⟩
          · exact .inl rfl
      | ok value =>
        by_cases hfits : value.fits = true
        · have hsome : packedResult m r = some value := by
            simp only [packedResult, hpack, if_pos hfits]
          apply answersOutcome_returned
          · intro value' hvalue
            rw [hsome, Option.some.injEq] at hvalue
            subst hvalue
            exact if_pos hfits
          · intro hunpacked
            rw [hsome] at hunpacked
            cases hunpacked
        · have hnone : packedResult m r = none := by
            simp only [packedResult, hpack, if_neg hfits]
          apply answersOutcome_returned
          · intro value' hvalue
            rw [hnone] at hvalue
            cases hvalue
          · intro _
            exact .inr ⟨_, if_neg hfits, fun heq => by cases heq⟩

theorem void_answersOutcome (m : VoidMethod P) (parameters : ParsedParameters) :
    AnswersOutcome (fun _ => some .nil) (m.outcome parameters) (m.answer parameters) := by
  unfold VoidMethod.answer
  cases m.outcome parameters with
  | error e => cases e <;> exact answersOutcome_raised _ _
  | ok r =>
    apply answersOutcome_returned
    · intro value hvalue
      cases hvalue
      rfl
    · nofun

/-- The client reads with the adaptor that the server packs with. -/
theorem getsResults_of_convert (adaptor : Adaptor R) {packed : R → Option Value}
    (hconvert : ∀ r value, packed r = some value → adaptor.convert value = .ok r) :
    GetsResults packed id (getFromCallResult adaptor) where
  result {r value} h := by
    have hvalue := hconvert r value h
    simp only [getFromCallResult, CallResult.isSuccess, CallResult.createResult, Bool.not_false,
      if_true, resultAs, Bool.false_eq_true, if_false, hvalue, id_eq]
  success value object := by
    simp only [getFromCallResult, CallResult.isSuccess, CallResult.createResult, Bool.not_false,
      if_true]
    cases resultAs adaptor { isError := false, object := value } <;> nofun
  error object := rfl

theorem getsResults_packedResult (m : FunctionalMethod P R) :
    GetsResults (packedResult m) id (getFromCallResult m.result) := by
  apply getsResults_of_convert
  intro r value hvalue
  unfold packedResult at hvalue
  split at hvalue
  · rename_i hpack
    rw [Option.ite_none_right_eq_some, Option.some.injEq] at hvalue
    rw [← hvalue.2]
    exact m.result.convert_pack hpack
  · cases hvalue

/-- A future without a result does not look at the object of a success. -/
theorem getsResults_void (packed : R → Option Value) :
    GetsResults packed (fun _ => ()) getFromVoidCallResult where
  result _ := rfl
  success _ _ := nofun
  error _ := rfl

/-- The answer to a request for a method that is not registered has only its text to transmit. -/
theorem transmits_notFound_iff {name : List UInt8} {packed : R → Option Value} :
    Transmits packed (.error (.standard (MethodDict.notFound name))) ↔
      (MethodDict.notFound name).object.fits = true := by
  rw [transmits_error_iff rfl]
  exact and_iff_right nofun

/-- Success and failure agree across the wire exactly if the outcome can be transmitted: no nil as
the object of a `MethodException`, and nothing too large for the packer.  This holds for a future
that has the type of the method's result and for a future without a result. -/
theorem success_agrees_iff (lib : MsgpackLibrary) (hlib : lib.Lawful) (methods : MethodDict)
    (request : ParsedRequest) :
    (∀ (P R : Type) (m : FunctionalMethod P R),
      methods.get request.methodName = .ok (m.toIMethod lib) →
      (Agrees (m.outcome request.parameters)
          (clientGets lib (getFromCallResult m.result)
            (MethodProcessor.call lib methods request)) ↔
        Transmits (packedResult m) (m.outcome request.parameters))) ∧
    (∀ (P : Type) (m : VoidMethod P),
      methods.get request.methodName = .ok (m.toIMethod lib) →
      (Agrees (m.outcome request.parameters)
          (clientGets lib getFromVoidCallResult (MethodProcessor.call lib methods request)) ↔
        Transmits (fun _ => some .nil) (m.outcome request.parameters))) ∧
    (∀ (R : Type) (adaptor : Adaptor R),
      methods.get request.methodName = .error (MethodDict.notFound request.methodName) →
      (Agrees (.error (.standard (MethodDict.notFound request.methodName)))
          (clientGets lib (getFromCallResult adaptor)
            (MethodProcessor.call lib methods request)) ↔
        (MethodDict.notFound request.methodName).object.fits = true)) ∧
    (∀ (P R : Type) (m : FunctionalMethod P R),
      methods.get request.methodName = .ok (m.toIMethod lib) →
      (Agrees ((m.outcome request.parameters).map fun _ => ())
          (clientGets lib getFromVoidCallResult (MethodProcessor.call lib methods request)) ↔
        Transmits (packedResult m) (m.outcome request.parameters))) ∧
    (methods.get request.methodName = .error (MethodDict.notFound request.methodName) →
      (Agrees (.error (.standard (MethodDict.notFound request.methodName)))
          (clientGets lib getFromVoidCallResult (MethodProcessor.call lib methods request)) ↔
        (MethodDict.notFound request.methodName).object.fits = true)) := by
  refine ⟨?_, ?_, ?_, ?_, ?_⟩
  · intro P R m hget
    have hagrees := agrees_iff hlib (getsResults_packedResult m)
      ((Answers.functional m hget).given hlib) (functional_answersOutcome m request.parameters)
    rwa [Except.map_id] at hagrees
  · intro P m hget
    have hagrees := agrees_iff hlib (getsResults_void _) ((Answers.void m hget).given hlib)
      (void_answersOutcome m request.parameters)
    rwa [show (fun _ : Unit => ()) = id from rfl, Except.map_id] at hagrees
  · intro R adaptor hget
    have hgets : GetsResults (fun _ : R => none) id (getFromCallResult adaptor) :=
      getsResults_of_convert adaptor nofun
    rw [← transmits_notFound_iff]
    exact agrees_iff hlib hgets ((Answers.notFound hget).given hlib) (answersOutcome_uncaught _ _)
  · intro P R m hget
    exact agrees_iff hlib (getsResults_void _) ((Answers.functional m hget).given hlib)
      (functional_answersOutcome m request.parameters)
  · intro hget
    rw [← transmits_notFound_iff (R := Unit)]
    exact agrees_iff hlib (getsResults_void fun _ => none) ((Answers.notFound hget).given hlib)
      (answersOutcome_uncaught _ _)

theorem success_agrees_echo :
    Agrees (.ok (.boolean true))
      (clientGets formatLibrary (getFromCallResult echo.result)
        (MethodProcessor.call formatLibrary echoMethods
          { id := 7, methodName := text "echo", parameters := ⟨[.boolean true]⟩ })) := by
  refine ((success_agrees_iff formatLibrary formatLibrary_lawful echoMethods
    { id := 7, methodName := text "echo", parameters := ⟨[.boolean true]⟩ }).1 Value Value echo
    rfl).mpr ⟨fun result hresult => ?_, nofun⟩
  cases hresult
  rfl

/-- A function without parameters that throws `MethodException(nil)`. -/
def throwsNil : VoidMethod Unit where
  name := text "throws"
  parameterTypes :=
    { size := 0
      convert := fun _ => .ok () }
  function := fun _ => .error (.method ⟨.nil, rfl⟩)

def throwingNilMethods : MethodDict where
  elements := [throwsNil.toIMethod formatLibrary]

/-- The client takes the response for a success. -/
theorem nil_error_succeeds :
    ¬ ∀ (methods : MethodDict) (m : VoidMethod Unit) (request : ParsedRequest),
      methods.get request.methodName = .ok (m.toIMethod formatLibrary) →
      Agrees (m.outcome request.parameters)
        (clientGets formatLibrary getFromVoidCallResult
          (MethodProcessor.call formatLibrary methods request)) := by
  intro h
  have hagrees := h throwingNilMethods throwsNil
    { id := 0, methodName := text "throws", parameters := ⟨[]⟩ } rfl
  have hserver := hagrees.2 (.method ⟨.nil, rfl⟩) .nil rfl rfl
  cases hserver

end MsgpackRpc.Clients
